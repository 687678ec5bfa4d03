/-
# TeamScript.Proofs.Grammar.Separator -- what any gap does to the token in front of it

Every piece of a gap begins with one of the `separators`.  No token goes on with
one of them, so the text of a token in front of some character is also the text
of that token in front of a separator (`Chunk.Stands.separated`).

There are exceptions, which are left to those who know what stands in front.
Behind a slash a second one would begin a comment.  A fault inside a string has
not found the end of the string: what follows it may be part of what it skips.
And a block comment that the end of the text leaves open would go on.
-/
import TeamScript.Proofs.Grammar.Chunk

namespace TeamScript

set_option autoImplicit false

/-- The characters with which the pieces of gaps begin. -/
def separators : List Char :=
  [' ', '\t', '\r', '\n', '/'] ++ ['(', ')', '\x7b', '\x7d', '[', ']', ',', ';', ':']

theorem GapPiece.first {policy : Policy} {piece : List Char} (stands : GapPiece policy piece) :
    ∃ c more, piece = c :: more ∧ c ∈ separators := by
  cases stands with
  | @blank c blank =>
      refine ⟨c, [], rfl, ?_⟩
      rcases isBlank_iff.1 blank with rfl | rfl | rfl | rfl <;> decide
  | @punctuation c _ known => exact ⟨c, [], rfl, List.mem_append_right _ known⟩
  | line _ => exact ⟨'/', _, rfl, by decide⟩
  | block block =>
      obtain ⟨body, rfl, -⟩ := block
      exact ⟨'/', _, rfl, by decide⟩

/-- A gap that is not empty begins with a separator. -/
theorem separator_of_pieces {policy : Policy} {pieces : List (List Char)}
    (inside : ∀ piece ∈ pieces, GapPiece policy piece) (nonempty : pieces.flatten ≠ []) :
    ∃ c, pieces.flatten.head? = some c ∧ c ∈ separators := by
  cases pieces with
  | nil => exact absurd rfl nonempty
  | cons piece pieces =>
      obtain ⟨c, more, rfl, apart⟩ := (inside piece (by simp)).first
      exact ⟨c, rfl, apart⟩

/-- A string without fault stands in front of anything. -/
theorem StringLiteral.Spells.in_front {span : List Char} {outcome : Except Fault Lexeme}
    {ahead : Option Char} (spells : StringLiteral.Spells span outcome ahead)
    (whole : ∀ fault, outcome = .error fault → span.head? ≠ some '$') (other : Option Char) :
    StringLiteral.Spells span outcome other := by
  cases spells with
  | closed clean => exact .closed clean
  | cut _ => exact absurd rfl (whole _ rfl)
  | broken _ _ => exact absurd rfl (whole _ rfl)
  | escape _ _ => exact absurd rfl (whole _ rfl)

section

variable {d : Char} (apart : d ∈ separators)

include apart

/-- A separator ends a run of characters from any class without separators. -/
theorem stops_separator {p : Char → Bool} (outside : separators.any p = false) :
    Stops p (some d) :=
  (stops_some p d).2 (Bool.eq_false_iff.2 (List.any_eq_false.1 outside d apart))

theorem ne_separator {c : Char} (other : c ∉ separators) : some d ≠ some c := by
  rintro same
  cases same
  exact other apart

namespace Name

theorem Spells.separated {span : List Char} {outcome : Except Fault Lexeme} {ahead : Option Char}
    (spells : Spells span outcome ahead) : Spells span outcome (some d) := by
  cases spells with
  | name known start parts _ =>
      exact .name known start parts (stops_separator apart (by decide))

theorem not_opens_separator {text : List Char} {ahead : Option Char}
    (unnamed : ¬ Opens (text ++ ahead.toList)) : ¬ Opens (text ++ [d]) := by
  rintro ⟨code, known, c, more, split, start⟩
  rcases List.eq_nil_or_concat more with rfl | ⟨body, last, rfl⟩
  · -- the separator would be the first character of the body
    obtain ⟨-, same⟩ := List.append_inj' split rfl
    cases same
    have stops := (stops_some isNameStart d).1 (stops_separator apart (by decide))
    rw [start] at stops
    cases stops
  · have front : text ++ [d] = (code.toList ++ c :: body) ++ [last] := by simpa using split
    obtain ⟨rfl, -⟩ := List.append_inj' front rfl
    exact unnamed (Opens.append ⟨code, known, c, body, rfl, start⟩ _)

end Name

namespace Numeral

theorem Mantissa.stops_separator (shape : Mantissa) : Stops shape.continues (some d) := by
  cases shape <;> exact TeamScript.stops_separator apart (by decide)

theorem Exponent.ends_separator (e : Exponent) : e.Ends (some d) :=
  ⟨stops_separator apart (by decide), fun _ _ => stops_separator apart (by decide)⟩

theorem Spells.separated {span : List Char} {outcome : Except Fault Lexeme} {ahead : Option Char}
    (spells : Spells span outcome ahead) : Spells span outcome (some d) := by
  have digit : Stops isDigit (some d) := stops_separator apart (by decide)
  have mark : Stops isExponentMark (some d) := stops_separator apart (by decide)
  cases spells with
  | @bare shape _ _ spells _ _ => exact .bare spells (shape.stops_separator apart) mark
  | scaled spells complete formed power _ => exact .scaled spells complete formed power digit
  | @unscaled _ _ _ e _ spells complete formed power behind =>
      refine .unscaled spells complete formed power ?_
      cases behind with
      | letter isLetter => exact .letter isLetter
      | none _ _ => exact .none (e.ends_separator apart) (stops_separator apart (by decide))
  | @dangling _ e _ spells formed _ => exact .dangling spells formed (e.ends_separator apart)
  | doubleDot dots _ => exact .doubleDot dots digit
  | @dotExponent e _ formed _ => exact .dotExponent formed (e.ends_separator apart)
  | loneDot _ _ => exact .loneDot digit mark

end Numeral

theorem Word.Spells.separated {span : List Char} {outcome : Except Fault Lexeme}
    {ahead : Option Char} (spells : Word.Spells span outcome ahead) :
    Word.Spells span outcome (some d) := by
  have letter : Stops isLetter (some d) := stops_separator apart (by decide)
  cases spells with
  | keyword word _ => exact .keyword word letter
  | unknown nonempty inside unknown _ => exact .unknown nonempty inside unknown letter

theorem Operator.stops_separator (c : Char) : Stops (isPair c) (some d) :=
  stops_isPair_iff.2
    ⟨fun _ => ne_separator apart (by decide), fun _ => ne_separator apart (by decide)⟩

theorem Operator.Spells.separated {span : List Char} {outcome : Except Fault Lexeme}
    {ahead : Option Char} (spells : Operator.Spells span outcome ahead) :
    Operator.Spells span outcome (some d) := by
  cases spells with
  | pair pair => exact .pair pair
  | @single c _ first bang _ => exact .single first bang (stops_separator apart c)
  | bang _ => exact .bang (stops_separator apart '!')

/-- A token's text stands in front of a separator wherever it stands, if the string and the
comment that it may be are complete and a slash begins no comment. -/
theorem Chunk.Stands.separated {policy : Policy} {span : List Char} {outcome : Except Fault Lexeme}
    {ahead : Option Char} (stands : (Chunk.token span outcome).Stands policy ahead)
    (string : StringLiteral.Spells span outcome ahead →
      StringLiteral.Spells span outcome (some d))
    (closed : ahead = none → outcome ≠ .error .openComment)
    (slash : outcome = .ok (.operator "/") → d ≠ '/') :
    (Chunk.token span outcome).Stands policy (some d) := by
  cases stands with
  | slash _ _ =>
      exact .slash (fun same => slash rfl (Option.some.inj same)) (ne_separator apart (by decide))
  | openComment _ => exact absurd rfl (closed rfl)
  | string spells => exact .string (string spells)
  | name spells => exact .name (spells.separated apart)
  | numeral spells unnamed =>
      exact .numeral (spells.separated apart) (Name.not_opens_separator apart unnamed)
  | word spells => exact .word (spells.separated apart)
  | operator spells => exact .operator (spells.separated apart)
  | unknown unknown => exact .unknown unknown

end

end TeamScript
