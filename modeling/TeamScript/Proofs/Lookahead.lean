/-
# TeamScript.Proofs.Lookahead -- the one character behind a run

Every reader ends a run of characters at the first one that does not belong to
it, or at the end of the text.  `Stops p ahead` says that the character `ahead`,
if there is one, ends a run of characters that satisfy `p`.

* `takeWhile_of_stops`, `dropWhile_of_stops`: a run in front of a character that
  stops it is read whole, and nothing else is.
* `stops_dropWhile`: whatever a run leaves stops it.

Seen from the texts that a reader may take, the character behind the longest of
them is one with which it would not go on (`Longest.stops`).

The last part says which classes of characters have nothing in common.
-/
import TeamScript.Alphabet

namespace TeamScript

set_option autoImplicit false

/-! ## Runs -/

/-- The next character, if there is one, does not satisfy `p`. -/
def Stops (p : Char → Bool) (ahead : Option Char) : Prop :=
  ∀ c, ahead = some c → p c = false

@[simp] theorem stops_none (p : Char → Bool) : Stops p none := by
  simp [Stops]

@[simp] theorem stops_some (p : Char → Bool) (c : Char) : Stops p (some c) ↔ p c = false := by
  simp [Stops]

theorem stops_or {p q : Char → Bool} {ahead : Option Char} :
    Stops (fun c => p c || q c) ahead ↔ Stops p ahead ∧ Stops q ahead := by
  cases ahead <;> simp

theorem stops_singleton {ahead : Option Char} {d : Char} (other : ahead ≠ some d) :
    Stops (· == d) ahead := by
  cases ahead with
  | none => exact stops_none _
  | some c =>
      rw [stops_some, beq_eq_false_iff_ne]
      rintro rfl
      exact other rfl

theorem takeWhile_of_stops {p : Char → Bool} {run rest : List Char}
    (inside : ∀ c ∈ run, p c = true) (stops : Stops p rest.head?) :
    (run ++ rest).takeWhile p = run := by
  rw [List.takeWhile_append_of_pos inside]
  cases rest with
  | nil => simp
  | cons c rest =>
      have refused : p c = false := by simpa using stops
      simp [refused]

theorem dropWhile_of_stops {p : Char → Bool} {run rest : List Char}
    (inside : ∀ c ∈ run, p c = true) (stops : Stops p rest.head?) :
    (run ++ rest).dropWhile p = rest := by
  rw [List.dropWhile_append_of_pos inside]
  cases rest with
  | nil => simp
  | cons c rest =>
      have refused : p c = false := by simpa using stops
      simp [refused]

theorem of_mem_takeWhile {p : Char → Bool} {text : List Char} :
    ∀ c ∈ text.takeWhile p, p c = true :=
  List.all_eq_true.1 List.all_takeWhile

theorem stops_dropWhile (p : Char → Bool) (text : List Char) :
    Stops p (text.dropWhile p).head? := by
  intro c next
  have refused := List.head?_dropWhile_not p text
  simpa [next] using refused

/-! ## Longest matches -/

/-- The part is in front of the text, it satisfies `p`, and no longer one does. -/
structure Longest (p : List Char → Prop) (text part : List Char) : Prop where
  front : part <+: text
  holds : p part
  longest : ∀ other, other <+: text → p other → other.length ≤ part.length

/-- If there is a match there is a longest one. -/
theorem exists_longest {p : List Char → Prop} {text part : List Char} (front : part <+: text)
    (holds : p part) : ∃ longest, Longest p text longest := by
  by_cases last : ∀ other, other <+: text → p other → other.length ≤ part.length
  · exact ⟨part, front, holds, last⟩
  · simp only [Classical.not_forall, Nat.not_le] at last
    obtain ⟨other, inside, holds', longer⟩ := last
    -- a longer match takes its place, and none is longer than the text
    exact exists_longest inside holds'
termination_by text.length - part.length
decreasing_by
  have short := inside.length_le
  omega

namespace Longest

variable {p : List Char → Prop} {part rest : List Char}

theorem not_more {more : List Char} (longest : Longest p (part ++ (more ++ rest)) part)
    (nonempty : more ≠ []) : ¬ p (part ++ more) := by
  intro holds
  have inside : part ++ more <+: part ++ (more ++ rest) := ⟨rest, by simp⟩
  have short := longest.longest _ inside holds
  have some_ := List.length_pos_iff.2 nonempty
  rw [List.length_append] at short
  omega

/-- A longest match ends in front of a character with which it would go on. -/
theorem stops {q : Char → Bool} (longest : Longest p (part ++ rest) part)
    (goesOn : ∀ c, q c = true → p (part ++ [c])) : Stops q rest.head? := by
  intro c next
  obtain ⟨more, rfl⟩ := List.head?_eq_some_iff.1 next
  have beyond : ¬ p (part ++ [c]) := @not_more p part more [c] longest (by simp)
  cases inside : q c with
  | false => rfl
  | true => exact absurd (goesOn c inside) beyond

end Longest

/-! ## Classes of characters -/

/-- Two characters differ if a class tells them apart. -/
theorem ne_of_class {p : Char → Bool} {c d : Char} (inside : p c = true) (outside : p d = false) :
    c ≠ d := by
  rintro rfl
  rw [inside] at outside
  cases outside

theorem isBlank_iff {c : Char} : isBlank c = true ↔ c = ' ' ∨ c = '\t' ∨ c = '\r' ∨ c = '\n' := by
  simp [isBlank, or_assoc]

/-- A class without blanks holds no blank. -/
theorem isBlank_of_class {p : Char → Bool} {c : Char} (inside : p c = true)
    (outside : [' ', '\t', '\r', '\n'].any p = false) : isBlank c = false := by
  rw [← Bool.not_eq_true, isBlank_iff]
  rw [List.any_eq_false] at outside
  rintro (rfl | rfl | rfl | rfl) <;> exact outside _ (by simp) inside

theorem isLetter_iff {c : Char} :
    isLetter c = true ↔ 97 ≤ c.toNat ∧ c.toNat ≤ 122 ∨ 65 ≤ c.toNat ∧ c.toNat ≤ 90 := by
  simp [isLetter, Char.le_def, UInt32.le_iff_toNat_le]

theorem isDigit_iff {c : Char} : isDigit c = true ↔ 48 ≤ c.toNat ∧ c.toNat ≤ 57 := by
  simp [isDigit, Char.le_def, UInt32.le_iff_toNat_le]

theorem isDigit_of_isLetter {c : Char} (letter : isLetter c = true) : isDigit c = false := by
  rw [← Bool.not_eq_true, isDigit_iff]
  rw [isLetter_iff] at letter
  omega

end TeamScript
