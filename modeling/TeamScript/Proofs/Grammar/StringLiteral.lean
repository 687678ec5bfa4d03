/-
# TeamScript.Proofs.Grammar.StringLiteral -- the forms of a string

A string holds no dollar sign, no line feed and no backslash before an `n`
(`Clean`).  So the first of these three behind the opening sign decides what the
text is, and where a fault skips on, the next dollar sign or line feed decides
where reading goes on (`Skips`).

`read_follows` and `read_yields` say that `read` answers with the forms and with
nothing else.
-/
import TeamScript.Lexeme.StringLiteral
import TeamScript.Proofs.Grammar.Form

namespace TeamScript.StringLiteral

set_option autoImplicit false

/-! ## The forms -/

/-- Text that may stand inside a string. -/
structure Clean (content : List Char) : Prop where
  dollar : '$' ∉ content
  feed : '\n' ∉ content
  escape : ¬ ['\\', 'n'] <:+: content

/-- What a fault skips in front of `ahead`: text on one line, and a dollar sign
unless the line or the text ends first. -/
inductive Skips : List Char → Option Char → Prop
  | closed {inside : List Char} {ahead : Option Char}
      (within : ∀ c ∈ inside, c ≠ '$' ∧ c ≠ '\n') : Skips (inside ++ ['$']) ahead
  | open_ {inside : List Char} {ahead : Option Char}
      (within : ∀ c ∈ inside, c ≠ '$' ∧ c ≠ '\n') (stops : ∀ c, ahead = some c → c = '\n') :
      Skips inside ahead

/-- The forms of a text that begins with a dollar sign. -/
inductive Spells : Form
  | closed {content : List Char} {ahead : Option Char} (clean : Clean content) :
      Spells ('$' :: (content ++ ['$'])) (.ok (.string (String.ofList content))) ahead
  | cut {content : List Char} (clean : Clean content) :
      Spells ('$' :: content) (.error .openString) none
  | broken {content skipped : List Char} {ahead : Option Char} (clean : Clean content)
      (skips : Skips skipped ahead) :
      Spells ('$' :: (content ++ '\n' :: skipped)) (.error .openString) ahead
  | escape {content skipped : List Char} {ahead : Option Char} (clean : Clean content)
      (skips : Skips skipped ahead) :
      Spells ('$' :: (content ++ '\\' :: 'n' :: skipped)) (.error .forbiddenEscape) ahead

theorem Spells.first {span : List Char} {outcome : Except Fault Lexeme} {ahead : Option Char}
    (spells : Spells span outcome ahead) : ∃ body, span = '$' :: body := by
  cases spells <;> exact ⟨_, rfl⟩

/-! ## Content -/

theorem ends_iff {text : List Char} :
    ends text = true ↔ text = [] ∨ (∃ more, text = '$' :: more) ∨ (∃ more, text = '\n' :: more) ∨
      ∃ more, text = '\\' :: 'n' :: more := by
  unfold ends
  split <;> simp_all

theorem clean_nil : Clean [] := ⟨by simp, by simp, by simp⟩

theorem clean_cons {c : Char} {content : List Char} :
    Clean (c :: content) ↔ c ≠ '$' ∧ c ≠ '\n' ∧ ¬ ['\\', 'n'] <+: c :: content ∧ Clean content := by
  constructor
  · rintro ⟨dollar, feed, escape⟩
    rw [List.infix_cons_iff, not_or] at escape
    rw [List.mem_cons, not_or] at dollar feed
    exact ⟨Ne.symm dollar.1, Ne.symm feed.1, escape.1, dollar.2, feed.2, escape.2⟩
  · rintro ⟨dollar, feed, front, clean⟩
    refine ⟨?_, ?_, ?_⟩
    · simp [Ne.symm dollar, clean.dollar]
    · simp [Ne.symm feed, clean.feed]
    · rw [List.infix_cons_iff, not_or]
      exact ⟨front, clean.escape⟩

theorem contentEnd_eq_add (seen : Nat) (text : List Char) :
    contentEnd seen text = seen + contentEnd 0 text := by
  induction text generalizing seen with
  | nil => rfl
  | cons c text ih =>
      simp only [contentEnd]
      split
      · rfl
      · rw [ih (seen + 1), ih (0 + 1)]
        omega

theorem content_of_ends {text : List Char} (h : ends text = true) :
    content text = [] ∧ afterContent text = text := by
  cases text with
  | nil => exact ⟨rfl, rfl⟩
  | cons c text => simp [content, afterContent, contentEnd, h]

theorem content_cons {c : Char} {text : List Char} (h : ends (c :: text) = false) :
    content (c :: text) = c :: content text ∧ afterContent (c :: text) = afterContent text := by
  have length : contentEnd 0 (c :: text) = contentEnd 0 text + 1 := by
    simp only [contentEnd, h, Bool.false_eq_true, if_false]
    rw [contentEnd_eq_add]
    omega
  simp [content, afterContent, length]

theorem clean_content (text : List Char) : Clean (content text) := by
  induction text with
  | nil => exact clean_nil
  | cons c text ih =>
      cases h : ends (c :: text) with
      | true => rw [(content_of_ends h).1]; exact clean_nil
      | false =>
          have goesOn : ¬ ends (c :: text) = true := by simp [h]
          rw [ends_iff] at goesOn
          simp only [reduceCtorEq, false_or, not_or, List.cons.injEq] at goesOn
          obtain ⟨dollar, feed, escape⟩ := goesOn
          rw [(content_cons h).1, clean_cons]
          refine ⟨fun same => dollar ⟨text, same, rfl⟩, fun same => feed ⟨text, same, rfl⟩,
            fun front => ?_, ih⟩
          -- an escape in the content is one in the text
          rw [← (content_cons h).1] at front
          obtain ⟨more, split⟩ := front.trans (List.take_prefix _ _)
          simp only [List.cons_append, List.nil_append, List.cons.injEq] at split
          exact escape ⟨more, split.1.symm, split.2.symm⟩

theorem ends_afterContent (text : List Char) : ends (afterContent text) = true := by
  induction text with
  | nil => rfl
  | cons c text ih =>
      cases h : ends (c :: text) with
      | true => rw [(content_of_ends h).2]; exact h
      | false => rw [(content_cons h).2]; exact ih

/-- Clean text in front of an end of the content is the content. -/
theorem content_append_of_clean {text : List Char} (clean : Clean text) (rest : List Char)
    (h : ends rest = true) : content (text ++ rest) = text ∧ afterContent (text ++ rest) = rest := by
  induction text with
  | nil => exact content_of_ends h
  | cons c text ih =>
      obtain ⟨dollar, feed, escape, later⟩ := clean_cons.1 clean
      obtain ⟨inner, behind⟩ := ih later
      have goesOn : ends (c :: (text ++ rest)) = false := by
        rw [← Bool.not_eq_true, ends_iff]
        simp only [reduceCtorEq, false_or, List.cons.injEq]
        rintro (⟨_, same, -⟩ | ⟨_, same, -⟩ | ⟨more, rfl, split⟩)
        · exact dollar same
        · exact feed same
        · -- an escape across the border would need an end that begins with `n`
          cases text with
          | nil =>
              rw [ends_iff] at h
              simp_all
          | cons d text =>
              simp only [List.cons_append, List.cons.injEq] at split
              exact escape ⟨text, by simp [split.1]⟩
      exact ⟨by rw [List.cons_append, (content_cons goesOn).1, inner],
        by rw [List.cons_append, (content_cons goesOn).2, behind]⟩

/-! ## Recovery -/

theorem skips_skipped (text : List Char) : Skips (skipped text) (resumed text).head? := by
  have within : ∀ c ∈ text.takeWhile (fun c => c != '$' && c != '\n'), c ≠ '$' ∧ c ≠ '\n' := by
    intro c member
    simpa using of_mem_takeWhile c member
  have stops := stops_dropWhile (fun c => c != '$' && c != '\n') text
  unfold skipped resumed
  dsimp only
  split
  · exact .closed within
  · rename_i dollar
    rw [List.append_nil]
    refine .open_ within fun c next => ?_
    have refused := stops c next
    have other : c ≠ '$' := by
      rintro rfl
      obtain ⟨more, front⟩ := List.head?_eq_some_iff.1 next
      exact dollar more front
    simpa [other] using refused

theorem skipped_of_skips {text rest : List Char} (skips : Skips text rest.head?) :
    skipped (text ++ rest) = text ∧ resumed (text ++ rest) = rest := by
  unfold skipped resumed
  dsimp only
  cases skips with
  | @closed inside _ within =>
      have inner : ∀ c ∈ inside, (c != '$' && c != '\n') = true := by simpa using within
      have front : inside ++ ['$'] ++ rest = inside ++ '$' :: rest := by simp
      rw [front, takeWhile_of_stops inner (by simp), dropWhile_of_stops inner (by simp)]
      simp
  | open_ within stops =>
      have inner : ∀ c ∈ text, (c != '$' && c != '\n') = true := by simpa using within
      have stop : Stops (fun c => c != '$' && c != '\n') rest.head? := by
        intro c next
        simp [stops c next]
      rw [takeWhile_of_stops inner stop, dropWhile_of_stops inner stop]
      cases rest with
      | nil => simp
      | cons c rest =>
          obtain rfl : c = '\n' := stops c rfl
          simp

/-! ## Reading -/

section Stop

variable {body more : List Char}

theorem read_of_nil (stop : afterContent body = []) :
    read ('$' :: body) = .faulty ('$' :: content body) [] .openString none := by
  simp [read, stop]

theorem read_of_dollar (stop : afterContent body = '$' :: more) :
    read ('$' :: body) =
      .plain ('$' :: (content body ++ ['$'])) more (.string (String.ofList (content body))) := by
  simp [read, stop]

theorem read_of_feed (stop : afterContent body = '\n' :: more) :
    read ('$' :: body) = .faulty ('$' :: (content body ++ '\n' :: skipped more)) (resumed more)
      .openString (some .brokenString) := by
  simp [read, stop]

theorem read_of_escape (stop : afterContent body = '\\' :: 'n' :: more) :
    read ('$' :: body) = .faulty ('$' :: (content body ++ '\\' :: 'n' :: skipped more))
      (resumed more) .forbiddenEscape (some .forbiddenEscape) := by
  simp [read, stop]

end Stop

theorem read_follows (body : List Char) : (read ('$' :: body)).Follows Spells := by
  have clean := clean_content body
  rcases ends_iff.1 (ends_afterContent body) with nil | ⟨more, front⟩ | ⟨more, front⟩ | ⟨more, front⟩
  · rw [read_of_nil nil]
    exact .cut clean
  · rw [read_of_dollar front]
    exact .closed clean
  · rw [read_of_feed front]
    exact .broken clean (skips_skipped more)
  · rw [read_of_escape front]
    exact .escape clean (skips_skipped more)

theorem read_yields {span rest : List Char} {outcome : Except Fault Lexeme}
    (spells : Spells span outcome rest.head?) : (read (span ++ rest)).Yields span outcome rest := by
  generalize behind : rest.head? = ahead at spells
  cases spells with
  | @closed content _ clean =>
      have front : '$' :: (content ++ ['$']) ++ rest = '$' :: (content ++ '$' :: rest) := by simp
      obtain ⟨inner, stop⟩ := content_append_of_clean clean ('$' :: rest) rfl
      rw [front, read_of_dollar stop, inner]
      exact Reading.yields_plain _ _ _
  | @cut content clean =>
      obtain rfl : rest = [] := by simpa using behind
      obtain ⟨inner, stop⟩ := content_append_of_clean clean [] rfl
      rw [List.cons_append, read_of_nil stop, inner]
      exact Reading.yields_faulty _ _ _ _
  | @broken content text _ clean skips =>
      have front : '$' :: (content ++ '\n' :: text) ++ rest =
          '$' :: (content ++ '\n' :: (text ++ rest)) := by simp
      obtain ⟨inner, stop⟩ := content_append_of_clean clean ('\n' :: (text ++ rest)) rfl
      obtain ⟨skip, resume⟩ := skipped_of_skips (behind ▸ skips)
      rw [front, read_of_feed stop, inner, skip, resume]
      exact Reading.yields_faulty _ _ _ _
  | @escape content text _ clean skips =>
      have front : '$' :: (content ++ '\\' :: 'n' :: text) ++ rest =
          '$' :: (content ++ '\\' :: 'n' :: (text ++ rest)) := by simp
      obtain ⟨inner, stop⟩ := content_append_of_clean clean ('\\' :: 'n' :: (text ++ rest)) rfl
      obtain ⟨skip, resume⟩ := skipped_of_skips (behind ▸ skips)
      rw [front, read_of_escape stop, inner, skip, resume]
      exact Reading.yields_faulty _ _ _ _

end TeamScript.StringLiteral
