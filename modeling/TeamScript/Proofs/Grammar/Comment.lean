/-
# TeamScript.Proofs.Grammar.Comment -- block comments as a grammar

Behind its opener, a block comment is a row of items and a close.  The close is
one or more stars and a slash.  An item is a character other than a slash and a
star; a slash that no star follows; stars that neither a star nor a slash
follows; or a block comment.  The star of an opener belongs to the opener alone.

`blockEnd` counts how deep comments are nested and reads stars one by one.  It
finds the end of a body and no other end:

* `blockEnd_append`: in front of any text, a body closes exactly one level;
* `blockEnd_eq_some`: where `depth + 1` levels are closed, as many bodies stand
  one behind the other (`Bodies`), each closing the level that the one before it
  left open.
-/
import TeamScript.Lexeme.Comment
import TeamScript.Proofs.Lookahead

namespace TeamScript.Comment

set_option autoImplicit false

/-! ## The grammar -/

/-- What follows the opener of a block comment, up to and including the close. -/
inductive Body : List Char → Prop
  | close (more : Nat) : Body (List.replicate (more + 1) '*' ++ ['/'])
  | plain {c : Char} {text : List Char} (slash : c ≠ '/') (star : c ≠ '*') (later : Body text) :
      Body (c :: text)
  | slash {text : List Char} (opens : text.head? ≠ some '*') (later : Body text) :
      Body ('/' :: text)
  | stars (more : Nat) {text : List Char} (star : text.head? ≠ some '*')
      (closes : text.head? ≠ some '/') (later : Body text) :
      Body (List.replicate (more + 1) '*' ++ text)
  | nested {inner text : List Char} (inside : Body inner) (later : Body text) :
      Body ('/' :: '*' :: (inner ++ text))

/-- A complete block comment. -/
def Block (text : List Char) : Prop :=
  ∃ body, text = '/' :: '*' :: body ∧ Body body

/-- So many bodies, one behind the other. -/
inductive Bodies : Nat → List Char → Prop
  | none : Bodies 0 []
  | more {depth : Nat} {body text : List Char} (first : Body body) (later : Bodies depth text) :
      Bodies (depth + 1) (body ++ text)

theorem Body.ne_nil {body : List Char} (h : Body body) : body ≠ [] := by
  cases h <;> simp [List.replicate_succ]

theorem Body.head?_append {body : List Char} (h : Body body) (rest : List Char) :
    (body ++ rest).head? = body.head? := by
  obtain ⟨c, more, rfl⟩ := List.exists_cons_of_ne_nil h.ne_nil
  rfl

/-- One more star in front of a body belongs to the stars in front of it, or makes such. -/
theorem Body.star {body : List Char} (h : Body body) (closes : body.head? ≠ some '/') :
    Body ('*' :: body) := by
  by_cases run : body.head? = some '*'
  · cases h with
    | close more => exact .close (more + 1)
    | stars more star slash later => exact .stars (more + 1) star slash later
    | plain _ star _ => exact absurd (by simpa using run) star
    | slash _ _ => simp at run
    | nested _ _ => simp at run
  · exact .stars 0 run closes h

/-! ## One step of the count -/

theorem blockEnd_open (depth seen : Nat) (text : List Char) :
    blockEnd depth seen ('/' :: '*' :: text) = blockEnd (depth + 1) (seen + 2) text := by
  rw [blockEnd]

theorem blockEnd_close (depth seen : Nat) (text : List Char) :
    blockEnd (depth + 1) seen ('*' :: '/' :: text) =
      if depth = 0 then some (seen + 2) else blockEnd depth (seen + 2) text := by
  rw [blockEnd]
  simp

/-- A character that begins neither an opener nor a close only counts. -/
theorem blockEnd_pass {c : Char} {text : List Char} (depth seen : Nat)
    (opens : c = '/' → text.head? ≠ some '*') (closes : c = '*' → text.head? ≠ some '/') :
    blockEnd depth seen (c :: text) = blockEnd depth (seen + 1) text := by
  rw [blockEnd]
  · rintro more rfl rfl
    exact opens rfl rfl
  · rintro more rfl rfl
    exact closes rfl rfl

theorem blockEnd_pass_stars {text : List Char} (closes : text.head? ≠ some '/') (depth : Nat) :
    ∀ more seen, blockEnd depth seen (List.replicate more '*' ++ text) =
      blockEnd depth (seen + more) text := by
  intro more
  induction more with
  | zero => simp
  | succ more ih =>
      intro seen
      rw [List.replicate_succ, List.cons_append, blockEnd_pass depth seen (by simp), ih]
      · congr 1
        omega
      · intro _
        cases more with
        | zero => exact closes
        | succ more => simp [List.replicate_succ]

theorem blockEnd_close_stars (depth seen more : Nat) (text : List Char) :
    blockEnd (depth + 1) seen ('*' :: (List.replicate more '*' ++ '/' :: text)) =
      if depth = 0 then some (seen + (more + 2)) else blockEnd depth (seen + (more + 2)) text := by
  have last : '*' :: (List.replicate more '*' ++ '/' :: text) =
      List.replicate more '*' ++ '*' :: '/' :: text := by
    rw [← List.cons_append, ← List.replicate_succ, List.replicate_succ', List.append_assoc]
    rfl
  rw [last, blockEnd_pass_stars (by simp), blockEnd_close, Nat.add_assoc]

/-! ## A body closes one level -/

theorem blockEnd_append {body : List Char} (h : Body body) :
    ∀ (depth seen : Nat) (rest : List Char), blockEnd (depth + 1) seen (body ++ rest) =
      if depth = 0 then some (seen + body.length) else blockEnd depth (seen + body.length) rest := by
  induction h with
  | close more =>
      intro depth seen rest
      have front : List.replicate (more + 1) '*' ++ ['/'] ++ rest =
          '*' :: (List.replicate more '*' ++ '/' :: rest) := by
        simp [List.replicate_succ]
      rw [front, blockEnd_close_stars]
      simp
  | plain slash star later ih =>
      intro depth seen rest
      rw [List.cons_append, blockEnd_pass _ _ (by simp [slash]) (by simp [star]), ih]
      simp [Nat.add_assoc, Nat.add_comm 1]
  | slash opens later ih =>
      intro depth seen rest
      have single := later.head?_append rest ▸ opens
      rw [List.cons_append, blockEnd_pass _ _ (fun _ => single) (by simp), ih]
      simp [Nat.add_assoc, Nat.add_comm 1]
  | stars more star closes later ih =>
      intro depth seen rest
      have single := later.head?_append rest ▸ closes
      rw [List.append_assoc, blockEnd_pass_stars single, ih]
      simp [Nat.add_assoc]
  | @nested inner text inside later ihInside ihLater =>
      intro depth seen rest
      have front : '/' :: '*' :: (inner ++ text) ++ rest =
          '/' :: '*' :: (inner ++ (text ++ rest)) := by simp
      have length : ('/' :: '*' :: (inner ++ text)).length = 2 + inner.length + text.length := by
        simp
        omega
      rw [front, blockEnd_open, ihInside, if_neg (Nat.succ_ne_zero depth), ihLater, length]
      simp only [Nat.add_assoc]

/-! ## Where all levels are closed, bodies stand -/

theorem blockEnd_eq_some {depth seen n : Nat} {text : List Char}
    (found : blockEnd (depth + 1) seen text = some n) :
    ∃ closing rest, text = closing ++ rest ∧ Bodies (depth + 1) closing ∧
      n = seen + closing.length := by
  match text with
  | [] => simp [blockEnd] at found
  | c :: text =>
      by_cases opens : c = '/' ∧ text.head? = some '*'
      · obtain ⟨rfl, star⟩ := opens
        obtain ⟨text, rfl⟩ : ∃ more, text = '*' :: more := by
          cases text <;> simp_all
        rw [blockEnd_open] at found
        obtain ⟨_, rest, rfl, closed, rfl⟩ := blockEnd_eq_some found
        -- the first of the bodies closes the comment that opens here
        cases closed with
        | @more _ inner _ inside closed =>
            cases closed with
            | @more _ body later first closed =>
                refine ⟨'/' :: '*' :: (inner ++ body) ++ later, rest, by simp,
                  .more (.nested inside first) closed, ?_⟩
                simp
                omega
      · by_cases closes : c = '*' ∧ text.head? = some '/'
        · obtain ⟨rfl, slash⟩ := closes
          obtain ⟨text, rfl⟩ : ∃ more, text = '/' :: more := by
            cases text <;> simp_all
          rw [blockEnd_close] at found
          cases depth with
          | zero => exact ⟨['*', '/'], text, rfl, .more (.close 0) .none, by simpa using found.symm⟩
          | succ depth =>
              rw [if_neg (Nat.succ_ne_zero depth)] at found
              obtain ⟨closing, rest, rfl, closed, rfl⟩ := blockEnd_eq_some found
              refine ⟨['*', '/'] ++ closing, rest, by simp, .more (.close 0) closed, ?_⟩
              simp
              omega
        · have single : c = '/' → text.head? ≠ some '*' := fun slash star => opens ⟨slash, star⟩
          have open_ : c = '*' → text.head? ≠ some '/' := fun star slash => closes ⟨star, slash⟩
          rw [blockEnd_pass _ _ single open_] at found
          obtain ⟨_, rest, rfl, closed, rfl⟩ := blockEnd_eq_some found
          cases closed with
          | @more _ body later first closed =>
              rw [List.append_assoc, first.head?_append] at single open_
              have longer : Body (c :: body) := by
                by_cases slash : c = '/'
                · subst slash
                  exact .slash (single rfl) first
                · by_cases star : c = '*'
                  · subst star
                    exact first.star (open_ rfl)
                  · exact .plain slash star first
              refine ⟨c :: body ++ later, rest, by simp, .more longer closed, ?_⟩
              simp
              omega
termination_by text.length

/-- The count started at an opener stops behind a body, and only there. -/
theorem body_of_blockEnd {n : Nat} {text : List Char} (found : blockEnd 1 0 text = some n) :
    Body (text.take n) := by
  obtain ⟨_, rest, rfl, closed, rfl⟩ := blockEnd_eq_some found
  cases closed with
  | @more _ body later first closed =>
      cases closed
      simpa using first

theorem blockEnd_of_body {body : List Char} (h : Body body) (rest : List Char) :
    blockEnd 1 0 (body ++ rest) = some body.length := by
  simpa using blockEnd_append h 0 0 rest

theorem blockEnd_eq_none_iff {text : List Char} :
    blockEnd 1 0 text = none ↔ ∀ body, body <+: text → ¬ Body body := by
  constructor
  · rintro none_ body ⟨rest, rfl⟩ closed
    rw [blockEnd_of_body closed] at none_
    cases none_
  · intro unclosed
    cases found : blockEnd 1 0 text with
    | none => rfl
    | some n => exact absurd (body_of_blockEnd found) (unclosed _ (List.take_prefix n text))

/-! ## Line comments -/

theorem line_of_feed {text : List Char} (within : '\n' ∉ text) (rest : List Char) :
    line (text ++ '\n' :: rest) = text ++ ['\n'] ∧ afterLine (text ++ '\n' :: rest) = rest := by
  have inside : ∀ c ∈ text, (c != '\n') = true := by
    intro c member
    simpa using ne_of_mem_of_not_mem member within
  have stops : Stops (· != '\n') ('\n' :: rest).head? := by simp
  rw [line, afterLine, takeWhile_of_stops inside stops, dropWhile_of_stops inside stops]
  exact ⟨rfl, rfl⟩

theorem line_of_not_mem {text : List Char} (within : '\n' ∉ text) :
    line text = text ∧ afterLine text = [] := by
  have inside : ∀ c ∈ text, (c != '\n') = true := by
    intro c member
    simpa using ne_of_mem_of_not_mem member within
  have run := @takeWhile_of_stops _ text [] inside (by simp)
  have behind := @dropWhile_of_stops _ text [] inside (by simp)
  rw [List.append_nil] at run behind
  rw [line, afterLine, run, behind]
  simp

/-! ## Reading -/

theorem read_line (text : List Char) :
    read ('/' :: '/' :: text) = .gap ('/' :: '/' :: line text) (afterLine text) := rfl

theorem read_of_blockEnd {n : Nat} {text : List Char} (found : blockEnd 1 0 text = some n) :
    read ('/' :: '*' :: text) = .gap ('/' :: '*' :: text.take n) (text.drop n) := by
  simp [read, found]

theorem read_of_open {text : List Char} (missing : blockEnd 1 0 text = none) :
    read ('/' :: '*' :: text) =
      .token (.faulty ('/' :: '*' :: text) [] .openComment (some .openComment)) := by
  simp [read, missing]

theorem read_body {body : List Char} (closed : Body body) (rest : List Char) :
    read ('/' :: '*' :: (body ++ rest)) = .gap ('/' :: '*' :: body) rest := by
  rw [read_of_blockEnd (blockEnd_of_body closed rest), List.take_left, List.drop_left]

theorem read_unclosed {text : List Char} (unclosed : ∀ body, body <+: text → ¬ Body body) :
    read ('/' :: '*' :: text) =
      .token (.faulty ('/' :: '*' :: text) [] .openComment (some .openComment)) :=
  read_of_open (blockEnd_eq_none_iff.2 unclosed)

theorem read_slash {rest : List Char} (slash : rest.head? ≠ some '/') (star : rest.head? ≠ some '*') :
    read ('/' :: rest) = .token (.plain ['/'] rest (.operator "/")) := by
  unfold read
  simp only [List.take_succ_cons, List.take_zero, List.drop_succ_cons, List.drop_zero]
  split
  · exact absurd rfl slash
  · exact absurd rfl star
  · rfl

end TeamScript.Comment
