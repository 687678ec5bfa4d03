/-
# TeamScript.Proofs.Grammar.LineEnd -- a carriage return in front of a line feed

Whatever holds a carriage return in front of a line feed is the same without it:
a block comment (`Comment.body_return_iff`), a string with a fault
(`StringLiteral.Spells.drop_return`) and any other piece of a gap
(`Chunk.gapPiece_drop_return`).  And what stands in front of the carriage return
also stands in front of the line feed (`Chunk.Stands.feed_of_return`).
-/
import TeamScript.Proofs.Grammar.Separator

namespace TeamScript

set_option autoImplicit false

/-! ## Block comments -/

namespace Comment

/-- With so many comments open at the front of the text, the last one is closed where the text
ends, and not before. -/
def EndsWith (depth : Nat) (text : List Char) : Prop := blockEnd depth 0 text = some text.length

theorem body_iff_endsWith {body : List Char} : Body body ↔ EndsWith 1 body := by
  constructor
  · intro closed
    have found := blockEnd_of_body closed []
    rwa [List.append_nil] at found
  · intro found
    have closed := body_of_blockEnd found
    rwa [List.take_length] at closed

theorem blockEnd_add (extra depth seen : Nat) (text : List Char) :
    blockEnd depth (seen + extra) text = (blockEnd depth seen text).map (· + extra) := by
  fun_induction blockEnd depth seen text with
  | case1 depth seen text ih => rw [blockEnd_open, Nat.add_right_comm, ih]
  | case2 depth seen text last =>
      rw [blockEnd, if_pos last]
      simp [Nat.add_right_comm]
  | case3 depth seen text more ih => rw [blockEnd, if_neg more, Nat.add_right_comm, ih]
  | case4 depth seen c text opens closes ih =>
      rw [blockEnd_pass, Nat.add_right_comm, ih]
      · rintro rfl star
        obtain ⟨more, rfl⟩ := List.head?_eq_some_iff.1 star
        exact opens more rfl rfl
      · rintro rfl slash
        obtain ⟨more, rfl⟩ := List.head?_eq_some_iff.1 slash
        exact closes more rfl rfl
  | case5 => rfl

/-- It does not matter how many characters have gone by. -/
theorem endsWith_iff_of_count {depth depth' passed : Nat} {text rest : List Char}
    (same : blockEnd depth 0 text = blockEnd depth' passed rest)
    (length : text.length = rest.length + passed) : EndsWith depth text ↔ EndsWith depth' rest := by
  have moved := blockEnd_add passed depth' 0 rest
  rw [Nat.zero_add] at moved
  rw [EndsWith, EndsWith, same, moved, length]
  cases blockEnd depth' 0 rest <;> simp

theorem endsWith_open (depth : Nat) (text : List Char) :
    EndsWith depth ('/' :: '*' :: text) ↔ EndsWith (depth + 1) text :=
  endsWith_iff_of_count (blockEnd_open depth 0 text) rfl

theorem endsWith_close {depth : Nat} (more : ¬ depth ≤ 1) (text : List Char) :
    EndsWith depth ('*' :: '/' :: text) ↔ EndsWith (depth - 1) text := by
  have same : blockEnd depth 0 ('*' :: '/' :: text) = blockEnd (depth - 1) 2 text := by
    rw [blockEnd, if_neg more]
  exact endsWith_iff_of_count same rfl

theorem endsWith_close_last {depth : Nat} (last : depth ≤ 1) (text : List Char) :
    EndsWith depth ('*' :: '/' :: text) ↔ text = [] := by
  rw [EndsWith, blockEnd, if_pos last]
  simp

theorem endsWith_pass {c : Char} {text : List Char} (depth : Nat)
    (opens : c = '/' → text.head? ≠ some '*') (closes : c = '*' → text.head? ≠ some '/') :
    EndsWith depth (c :: text) ↔ EndsWith depth text :=
  endsWith_iff_of_count (blockEnd_pass depth 0 opens closes) rfl

theorem head?_append_cons {front more : List Char} {c d : Char} (other : d ≠ c)
    (first : front.head? ≠ some c) : (front ++ d :: more).head? ≠ some c := by
  cases front with
  | nil => simpa using other
  | cons _ _ => exact first

theorem endsWith_return_iff (text : List Char) : ∀ (front : List Char) (depth : Nat),
    EndsWith depth (front ++ '\r' :: '\n' :: text) ↔ EndsWith depth (front ++ '\n' :: text)
  | [], depth => endsWith_pass depth (by simp) (by simp)
  | c :: front, depth => by
      by_cases opens : c = '/' ∧ front.head? = some '*'
      · obtain ⟨rfl, star⟩ := opens
        obtain ⟨front, rfl⟩ := List.head?_eq_some_iff.1 star
        have inner := endsWith_return_iff text front (depth + 1)
        exact (endsWith_open _ _).trans (inner.trans (endsWith_open _ _).symm)
      · by_cases closes : c = '*' ∧ front.head? = some '/'
        · obtain ⟨rfl, slash⟩ := closes
          obtain ⟨front, rfl⟩ := List.head?_eq_some_iff.1 slash
          by_cases last : depth ≤ 1
          · -- the close ends neither text
            refine (endsWith_close_last last _).trans (.trans ?_ (endsWith_close_last last _).symm)
            simp
          · have outer := endsWith_return_iff text front (depth - 1)
            exact (endsWith_close last _).trans (outer.trans (endsWith_close last _).symm)
        · have passed {d : Char} (more : List Char) (star : d ≠ '*') (slash : d ≠ '/') :
              EndsWith depth (c :: (front ++ d :: more)) ↔ EndsWith depth (front ++ d :: more) :=
            endsWith_pass depth
              (fun first => head?_append_cons star fun next => opens ⟨first, next⟩)
              (fun first => head?_append_cons slash fun next => closes ⟨first, next⟩)
          have later := endsWith_return_iff text front depth
          exact (passed _ (by decide) (by decide)).trans
            (later.trans (passed _ (by decide) (by decide)).symm)
  termination_by front => front.length

/-- A carriage return in front of a line feed does not count in a block comment. -/
theorem body_return_iff {front text : List Char} :
    Body (front ++ '\r' :: '\n' :: text) ↔ Body (front ++ '\n' :: text) := by
  rw [body_iff_endsWith, body_iff_endsWith, endsWith_return_iff]

theorem Body.getLast?_eq {body : List Char} (closed : Body body) : body.getLast? = some '/' := by
  induction closed with
  | close more => simp
  | plain _ _ _ ih => simp [List.getLast?_cons, ih]
  | slash _ _ ih => simp [List.getLast?_cons, ih]
  | stars more _ _ _ ih => simp [List.getLast?_append, ih]
  | nested _ _ _ ih => simp [List.getLast?_cons, List.getLast?_append, ih]

/-- A comment that is open stays open when a carriage return is dropped. -/
theorem unclosed_of_return {front text : List Char}
    (unclosed : ∀ body, body <+: front ++ '\r' :: '\n' :: text → ¬ Body body) :
    ∀ body, body <+: front ++ '\n' :: text → ¬ Body body := by
  rintro body ⟨rest, split⟩ closed
  rcases List.append_eq_append_iff.1 split with ⟨more, rfl, -⟩ | ⟨more, rfl, behind⟩
  · exact unclosed body (List.prefix_append_of_prefix (List.prefix_append _ _)) closed
  · cases more with
    | nil => exact unclosed _ (by simp) closed
    | cons c more =>
        obtain ⟨rfl, rfl⟩ := List.cons.inj behind
        refine unclosed _ ?_ (body_return_iff.2 closed)
        simp

/-- A comment that is open stays open behind a line feed. -/
theorem unclosed_add_feed {text : List Char} (unclosed : ∀ body, body <+: text → ¬ Body body) :
    ∀ body, body <+: text ++ ['\n'] → ¬ Body body := by
  intro body front closed
  rcases List.prefix_concat_iff.1 front with rfl | inside
  · have last := closed.getLast?_eq
    simp at last
  · exact unclosed body inside closed

end Comment

/-! ## Where a carriage return stands -/

section

variable {front behind : List Char} {ahead : Option Char}

/-- Where a text is cut at a character that is not its first one. -/
theorem exists_of_cons {c d : Char} {body : List Char} (other : c ≠ d)
    (whole : front ++ d :: behind = c :: body) :
    ∃ inner, front = c :: inner ∧ body = inner ++ d :: behind := by
  cases front with
  | nil => exact absurd (List.cons.inj whole).1.symm other
  | cons _ inner =>
      obtain ⟨rfl, rfl⟩ := List.cons.inj whole
      exact ⟨inner, rfl, rfl⟩

/-- A text that the next line feed is behind is empty if it has none. -/
theorem eq_nil_of_feed (feed : behind.head?.or ahead = some '\n') (line : '\n' ∉ behind) :
    behind = [] := by
  cases behind with
  | nil => rfl
  | cons c behind =>
      cases feed
      simp at line

/-- In front of a line feed, a carriage return in a text that begins on one line is the last
character of that line or stands behind it. -/
theorem return_cases {line tail : List Char} (within : '\n' ∉ line)
    (whole : line ++ tail = front ++ '\r' :: behind) (feed : behind.head?.or ahead = some '\n') :
    (line = front ++ ['\r'] ∧ behind = tail) ∨
      ∃ more, front = line ++ more ∧ tail = more ++ '\r' :: behind := by
  rcases List.append_eq_append_iff.1 whole with ⟨more, rfl, rfl⟩ | ⟨more, rfl, behind_eq⟩
  · exact .inr ⟨more, rfl, rfl⟩
  · cases more with
    | nil => exact .inr ⟨[], by simp, by simpa using behind_eq.symm⟩
    | cons c more =>
        obtain ⟨rfl, rfl⟩ := List.cons.inj behind_eq
        cases more with
        | nil => exact .inl ⟨rfl, rfl⟩
        | cons d more =>
            cases feed
            exact absurd within (by simp)

end

/-! ## Strings -/

namespace StringLiteral

theorem Clean.of_append {a b : List Char} (clean : Clean (a ++ b)) : Clean a :=
  ⟨fun dollar => clean.dollar (List.mem_append_left b dollar),
    fun feed => clean.feed (List.mem_append_left b feed),
    fun escape => clean.escape (escape.trans (List.infix_append' [] a b))⟩

variable {front behind : List Char} {ahead : Option Char}

theorem Skips.drop_return (skips : Skips (front ++ '\r' :: behind) ahead)
    (feed : behind.head?.or ahead = some '\n') : behind = [] ∧ Skips front ahead := by
  generalize whole : front ++ '\r' :: behind = skipped at skips
  cases skips with
  | @closed inside _ within =>
      have line : '\n' ∉ behind := by
        intro member
        have inner : '\n' ∈ inside ++ ['$'] := by simp [← whole, member]
        rcases List.mem_append.1 inner with inner | sign
        · exact (within _ inner).2 rfl
        · simp at sign
      obtain rfl := eq_nil_of_feed feed line
      have last := congrArg List.getLast? whole
      simp at last
  | open_ within stops =>
      have line : '\n' ∉ behind := fun member => (within '\n' (by simp [← whole, member])).2 rfl
      obtain rfl := eq_nil_of_feed feed line
      exact ⟨rfl, .open_ (fun c member => within c (by simp [← whole, member])) stops⟩

theorem Skips.feed_of_return {skipped : List Char} (skips : Skips skipped (some '\r')) :
    Skips skipped (some '\n') := by
  cases skips with
  | closed within => exact .closed within
  | open_ _ stops => exact absurd (stops '\r' rfl) (by decide)

theorem Spells.feed_of_return {span : List Char} {outcome : Except Fault Lexeme}
    (spells : Spells span outcome (some '\r')) : Spells span outcome (some '\n') := by
  cases spells with
  | closed clean => exact .closed clean
  | broken clean skips => exact .broken clean skips.feed_of_return
  | escape clean skips => exact .escape clean skips.feed_of_return

theorem Spells.drop_return {outcome : Except Fault Lexeme}
    (spells : Spells (front ++ '\r' :: behind) outcome ahead)
    (feed : behind.head?.or ahead = some '\n') : Spells (front ++ behind) outcome ahead := by
  obtain ⟨body, whole⟩ := spells.first
  obtain ⟨front, rfl, rfl⟩ := exists_of_cons (by decide) whole
  generalize same : '$' :: front ++ '\r' :: behind = span at spells
  cases spells with
  | @closed content _ clean =>
      rcases return_cases clean.feed (List.cons.inj same).2.symm feed with
        ⟨-, rfl⟩ | ⟨skipped, -, sign⟩
      · cases feed
      · obtain ⟨text, -, empty⟩ := exists_of_cons (by decide) sign.symm
        simp at empty
  | @cut content clean =>
      have line : '\n' ∉ behind := by
        intro member
        exact clean.feed (by simp [← (List.cons.inj same).2, member])
      obtain rfl := eq_nil_of_feed feed line
      cases feed
  | @broken content skipped _ clean skips =>
      rcases return_cases clean.feed (List.cons.inj same).2.symm feed with
        ⟨rfl, rfl⟩ | ⟨text, rfl, tail⟩
      · exact .broken clean.of_append skips
      · obtain ⟨text, rfl, rfl⟩ := exists_of_cons (by decide) tail.symm
        obtain ⟨rfl, others⟩ := skips.drop_return feed
        simpa using Spells.broken clean others
  | @escape content skipped _ clean skips =>
      rcases return_cases clean.feed (List.cons.inj same).2.symm feed with
        ⟨-, rfl⟩ | ⟨text, rfl, tail⟩
      · cases feed
      · obtain ⟨text, rfl, escape⟩ := exists_of_cons (by decide) tail.symm
        obtain ⟨text, rfl, rfl⟩ := exists_of_cons (by decide) escape.symm
        obtain ⟨rfl, others⟩ := skips.drop_return feed
        simpa using Spells.escape clean others

end StringLiteral

/-! ## Chunks -/

namespace Chunk

variable {policy : Policy} {ahead : Option Char}

theorem Stands.feed_of_return {chunk : Chunk} (stands : chunk.Stands policy (some '\r')) :
    chunk.Stands policy (some '\n') := by
  cases chunk with
  | gap span =>
      cases stands with
      | gap piece => exact .gap piece
  | token span outcome =>
      exact stands.separated (by decide) (fun spells => spells.feed_of_return) (by simp)
        (fun _ => by decide)

/-- Without a carriage return in front of a line feed, a complete gap piece is one again or
is no text at all. -/
theorem gapPiece_drop_return {front behind : List Char}
    (piece : GapPiece policy (front ++ '\r' :: behind))
    (feed : behind.head?.or ahead = some '\n') :
    front ++ behind = [] ∨ GapPiece policy (front ++ behind) := by
  generalize whole : front ++ '\r' :: behind = span at piece
  cases piece with
  | blank _ =>
      obtain ⟨rfl, rfl⟩ : front = [] ∧ behind = [] := by
        cases front <;> simp_all
      exact .inl rfl
  | punctuation _ _ =>
      obtain ⟨rfl, rfl⟩ : front = [] ∧ behind = [] := by
        cases front <;> simp_all
      exact .inl rfl
  | @line text within =>
      obtain ⟨front, rfl, inner⟩ := exists_of_cons (by decide) whole
      obtain ⟨front, rfl, split⟩ := exists_of_cons (by decide) inner.symm
      rcases return_cases within split feed with ⟨rfl, rfl⟩ | ⟨more, -, last⟩
      · refine .inr (.line fun member => within ?_)
        exact List.mem_append_left _ member
      · obtain ⟨more, -, empty⟩ := exists_of_cons (by decide) last.symm
        simp at empty
  | block block =>
      obtain ⟨body, rfl, closed⟩ := block
      obtain ⟨front, rfl, inner⟩ := exists_of_cons (by decide) whole
      obtain ⟨front, rfl, rfl⟩ := exists_of_cons (by decide) inner.symm
      cases behind with
      | nil =>
          have last := closed.getLast?_eq
          simp at last
      | cons c behind =>
          cases feed
          exact .inr (.block ⟨_, rfl, Comment.body_return_iff.1 closed⟩)

end Chunk

end TeamScript
