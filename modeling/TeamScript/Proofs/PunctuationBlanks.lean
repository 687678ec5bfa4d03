/-
# TeamScript.Proofs.PunctuationBlanks -- skipped punctuation is blank

Where punctuation is skipped, it may as well be replaced by spaces, everywhere in
the text.  No reader of a token or a comment tells the two apart, because
punctuation is no mark and neither is a space; and between tokens, what separates
them when punctuation is skipped is blank when it is replaced.  So the
replacement carries a text from the one policy to the other
(`carries_blankPunctuation`), and both texts divide at the same places.

Only strings hold punctuation that is read at all, so the tokens of both texts
are the same but for the content of strings (`Chunk.Stands.tokenOf_blank`).
-/
import TeamScript.Proofs.Renaming

namespace TeamScript

set_option autoImplicit false

/-- A space in the place of punctuation. -/
def blankPunctuation (c : Char) : Char :=
  if c ∈ ['(', ')', '\x7b', '\x7d', '[', ']', ',', ';', ':'] then ' ' else c

/-- The token with spaces in the place of the punctuation of its content, if it is a string. -/
def Token.blankContent (t : Token) : Token :=
  if t.kind = .string then { t with lexeme := t.lexeme.map blankPunctuation } else t

/-! ## What the replacement changes -/

theorem blankPunctuation_eq (c : Char) :
    blankPunctuation c = if isPunctuation c then ' ' else c := by
  simp only [blankPunctuation, isPunctuation, List.contains_iff_mem, punctuation]

theorem blankPunctuation_of_not {c : Char} (other : isPunctuation c = false) :
    blankPunctuation c = c := by
  simp [blankPunctuation_eq, other]

theorem isPunctuation_of_mark {c : Char} (mark : isMark c = true) : isPunctuation c = false := by
  have unmarked : punctuation.any isMark = false := by decide
  rw [← Bool.not_eq_true, isPunctuation, List.contains_iff_mem]
  intro member
  exact List.any_eq_false.1 unmarked c member mark

theorem fixes_blankPunctuation : Fixes blankPunctuation isMark := by
  constructor
  · intro c mark
    exact blankPunctuation_of_not (isPunctuation_of_mark mark)
  · intro c other
    rw [blankPunctuation]
    split
    · rfl
    · exact other

/-- Texts whose punctuation is skipped become texts without punctuation. -/
theorem carries_blankPunctuation : Carries blankPunctuation .skip .refuse := by
  refine ⟨fixes_blankPunctuation, fun c => ?_⟩
  simp only [Policy.separates, Policy.skips, Bool.or_false]
  cases about : isPunctuation c with
  | true =>
      rw [blankPunctuation_eq, if_pos about, Bool.or_true]
      rfl
  | false => rw [blankPunctuation_of_not about, Bool.or_false]

/-! ## The tokens of both texts -/

namespace Chunk

variable {span : List Char} {outcome : Except Fault Lexeme} {ahead : Option Char}

/-- Of all tokens the replacement changes strings only. -/
theorem Stands.tokenOf_blank (stands : (token span outcome).Stands .skip ahead)
    (location : Location) :
    tokenOf (renameOutcome blankPunctuation outcome) location =
      (tokenOf outcome location).blankContent := by
  have fixes := fixes_blankPunctuation
  cases stands with
  | slash _ _ =>
      rw [(slash_fixed fixes).2]
      rfl
  | openComment _ => rfl
  | string spells => cases spells <;> rfl
  | name spells =>
      rw [(spells.fixed fixes).2]
      cases spells
      rfl
  | numeral spells _ =>
      rw [(spells.fixed fixes).2]
      cases spells with
      | @bare shape _ _ _ _ _ => cases shape <;> rfl
      | _ => rfl
  | word spells =>
      rw [(spells.fixed fixes).2]
      cases spells <;> rfl
  | operator spells =>
      rw [(spells.fixed fixes).2]
      cases spells <;> rfl
  | @unknown c _ unknown =>
      -- skipped punctuation is no unknown character
      have other : TeamScript.isPunctuation c = false := by
        simp only [Policy.knows, Policy.skips, Bool.or_eq_false_iff] at unknown
        exact unknown.2
      rw [renameOutcome, Fault.rename, blankPunctuation_of_not other]
      rfl

end Chunk

/-- A text with skipped punctuation has the tokens of the text with spaces in the place of
punctuation, kinds, lexemes and locations alike, except that the content of strings is replaced
along with the text. -/
theorem tokenize_map_blankPunctuation (text : List Char) :
    tokenize .refuse (text.map blankPunctuation) =
      (tokenize .skip text).map Token.blankContent := by
  obtain ⟨chunks, row, rfl⟩ := Chunk.exists_row .skip text
  have carried := row.carry carries_blankPunctuation
  rw [← Chunk.text_rename, tokenize_of_row carried, tokenize_of_row row]
  have each (span : List Char) (outcome : Except Fault Lexeme)
      (member : Chunk.token span outcome ∈ chunks) (location : Location) :
      Chunk.tokenOf (Chunk.renameOutcome blankPunctuation outcome) location =
        (Chunk.tokenOf outcome location).blankContent := by
    obtain ⟨next, stands⟩ := row.stands_of_mem member
    exact stands.tokenOf_blank location
  exact Chunk.tokens_map fixes_blankPunctuation (fun _ => rfl) each .start

/-- Punctuation between tokens, in a string and in a comment. -/
example : tokenize .refuse ("f($a;b$)/*,*/;2".toList.map blankPunctuation) =
    [⟨.error, "unknown word: f", ⟨1, 1⟩⟩, ⟨.string, "a b", ⟨1, 3⟩⟩, ⟨.integer, "2", ⟨1, 15⟩⟩,
      ⟨.ending, "<EOF>", ⟨1, 16⟩⟩] := by decide +kernel

end TeamScript
