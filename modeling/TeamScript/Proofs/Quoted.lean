/-
# TeamScript.Proofs.Quoted -- what stands for a character in quotes

`Visible` says which characters are visible, by the ranges of the standard, and
`Escaped` what stands for a character between the quotes: itself, a letter behind
a backslash, or its number.

* `escaped_iff`: `escapeChar` writes what stands for the character, and nothing
  else stands for it;
* `Escaped.inj`: what stands for a character stands for no other one, so a quoted
  character can be read back (`quoteChar_inj`).

All of ASCII but the controls is visible (`visible_of_ascii`).
-/
import Mathlib.Data.Nat.Digits.Defs
import TeamScript.CharLiteral

namespace TeamScript

set_option autoImplicit false

/-! ## Visible characters -/

/-- The character is drawn, and in a cell of its own. -/
structure Visible (c : Char) : Prop where
  apart : extendingRanges.mem c.toNat → c ∈ ['\uff9e', '\uff9f']
  printed : ¬ unprintedRanges.mem c.toNat
  filled : c ∉ ['\u115f', '\u1160', '\u3164', '\uffa0']

theorem isMerging_iff {c : Char} :
    isMerging c = true ↔ extendingRanges.mem c.toNat ∧ c ∉ ['\uff9e', '\uff9f'] := by
  have extending : isExtending c = true ↔ extendingRanges.mem c.toNat :=
    CodeRanges.contains_iff extendingRanges_inOrder _
  simp [isMerging, isHalfwidthSoundMark, extending]

theorem isUnprinted_iff {c : Char} : isUnprinted c = true ↔ unprintedRanges.mem c.toNat :=
  CodeRanges.contains_iff unprintedRanges_inOrder _

theorem isFiller_iff {c : Char} :
    isFiller c = true ↔ c ∈ ['\u115f', '\u1160', '\u3164', '\uffa0'] := by
  simp [isFiller, or_assoc]

theorem isVisible_iff {c : Char} : isVisible c = true ↔ Visible c := by
  rw [isVisible, Bool.not_eq_true', ← Bool.not_eq_true, Bool.or_eq_true, Bool.or_eq_true,
    isMerging_iff, isUnprinted_iff, isFiller_iff, not_or, not_or, not_and_not_right]
  exact ⟨fun ⟨⟨apart, printed⟩, filled⟩ => ⟨apart, printed, filled⟩,
    fun ⟨apart, printed, filled⟩ => ⟨⟨apart, printed⟩, filled⟩⟩

/-- The first range of what is not printed are the controls, and the second one begins behind the
last letters and signs of ASCII. -/
theorem unprintedRanges_eq :
    ∃ more, unprintedRanges = (0x0, 0x1f) :: more ∧ CodeRanges.inOrder 0x7f more :=
  ⟨_, rfl, by decide +kernel⟩

theorem visible_of_ascii {c : Char} (first : 0x20 ≤ c.toNat) (last : c.toNat ≤ 0x7e) :
    Visible c := by
  refine ⟨fun extending => ?_, fun unprinted => ?_, fun filler => ?_⟩
  · have beyond := CodeRanges.le_of_mem_of_inOrder extendingRanges_inOrder extending
    omega
  · obtain ⟨more, split, ordered⟩ := unprintedRanges_eq
    obtain ⟨range, known, inside⟩ := unprinted
    rw [split] at known
    rcases List.mem_cons.1 known with rfl | later
    · have control : c.toNat ≤ 0x1f := inside.2
      omega
    · have beyond := CodeRanges.le_of_mem_of_inOrder ordered ⟨range, later, inside⟩
      omega
  · simp only [List.mem_cons, List.not_mem_nil, or_false] at filler
    rcases filler with rfl | rfl | rfl | rfl <;> exact absurd last (by decide)

/-! ## Numbers in base sixteen -/

def sixteenDigits : List Char := "0123456789abcdef".toList

/-- The digits of a number in base sixteen, the greatest first. -/
def sixteens (n : Nat) : List Char :=
  (Nat.digits 16 n).reverse.map fun d => sixteenDigits.getD d '0'

theorem sixteens_inj {m n : Nat} (same : sixteens m = sixteens n) : m = n := by
  have told : ∀ d < 16, sixteenDigits.idxOf (sixteenDigits.getD d '0') = d := by decide
  have back (n : Nat) : (sixteens n).map sixteenDigits.idxOf = (Nat.digits 16 n).reverse := by
    rw [sixteens, List.map_map]
    refine (List.map_congr_left fun d member => ?_).trans (List.map_id _)
    exact told d (Nat.digits_lt_base (by decide) (List.mem_reverse.1 member))
  have digits := congrArg (List.map sixteenDigits.idxOf) same
  rw [back, back, List.reverse_inj] at digits
  exact Nat.digits_inj_iff.1 digits

theorem toDigits_eq_sixteens {n : Nat} (positive : 0 < n) : Nat.toDigits 16 n = sixteens n := by
  have digit : ∀ d < 16, [Nat.digitChar d] = [sixteenDigits.getD d '0'] := by decide
  induction n using Nat.strongRecOn with
  | _ n ih =>
      by_cases small : n < 16
      · rw [Nat.toDigits_of_lt_base small, digit n small, sixteens,
          Nat.digits_of_lt 16 n positive.ne' small]
        rfl
      · have front := ih (n / 16) (by omega) (by omega)
        have last : n % 16 < 16 := Nat.mod_lt n (by decide)
        have whole := @Nat.toDigits_append_toDigits 16 (n / 16) (n % 16) (by decide) (by omega) last
        rw [Nat.div_add_mod, Nat.toDigits_of_lt_base last, digit _ last, front] at whole
        rw [← whole, sixteens, sixteens, Nat.digits_def' (by decide) positive, List.reverse_cons,
          List.map_append]
        rfl

theorem toList_hexadecimal {c : Char} (other : c ≠ '\x00') :
    (hexadecimal c).toList = sixteens c.toNat := by
  have positive : 0 < c.toNat := Nat.pos_of_ne_zero fun zero => other (Char.toNat_inj.1 zero)
  rw [hexadecimal, String.toList_ofList, toDigits_eq_sixteens positive]

/-! ## Between the quotes -/

/-- The characters that a letter or a sign behind a backslash stands for. -/
def escapeLetters : List (Char × Char) :=
  [('\'', '\''), ('\\', '\\'), ('\x00', '0'), ('\t', 't'), ('\n', 'n'), ('\r', 'r')]

/-- The text stands for the character between quotes. -/
inductive Escaped (c : Char) : List Char → Prop
  | itself (visible : Visible c) (other : ∀ entry ∈ escapeLetters, c ≠ entry.1) : Escaped c [c]
  | letter {letter : Char} (known : (c, letter) ∈ escapeLetters) : Escaped c ['\\', letter]
  | number (hidden : ¬ Visible c) (other : ∀ entry ∈ escapeLetters, c ≠ entry.1) :
      Escaped c ('\\' :: 'u' :: '\x7b' :: (sixteens c.toNat ++ ['\x7d']))

theorem escaped_escapeChar (c : Char) : Escaped c (escapeChar c).toList := by
  by_cases known : ∃ entry ∈ escapeLetters, c = entry.1
  · obtain ⟨entry, member, rfl⟩ := known
    have written : ∀ entry ∈ escapeLetters,
        (escapeChar entry.1).toList = ['\\', entry.2] := by decide
    rw [written entry member]
    exact .letter member
  · have other : ∀ entry ∈ escapeLetters, c ≠ entry.1 :=
      fun entry member same => known ⟨entry, member, same⟩
    obtain ⟨quote, backslash, null, tab, feed, return_⟩ := by
      simpa only [escapeLetters, List.forall_mem_cons] using other
    unfold escapeChar
    rw [if_neg quote, if_neg backslash, if_neg null, if_neg tab, if_neg feed, if_neg return_.1]
    split
    · rename_i visible
      rw [String.toList_singleton]
      exact .itself (isVisible_iff.1 visible) other
    · rename_i hidden
      have opening : "\\u\x7b".toList = ['\\', 'u', '\x7b'] := rfl
      have closing : "\x7d".toList = ['\x7d'] := rfl
      rw [String.toList_append, String.toList_append, toList_hexadecimal null, opening, closing]
      exact .number (fun visible => hidden (isVisible_iff.2 visible)) other

namespace Escaped

variable {a b c : Char} {text text' : List Char}

/-- Only one text stands for a character. -/
theorem unique (escaped : Escaped c text) (escaped' : Escaped c text') : text = text' := by
  have functional : ∀ x ∈ escapeLetters, ∀ y ∈ escapeLetters, x.1 = y.1 → x.2 = y.2 := by decide
  cases escaped with
  | itself visible other =>
      cases escaped' with
      | itself _ _ => rfl
      | letter known => exact absurd rfl (other _ known)
      | number hidden _ => exact absurd visible hidden
  | letter known =>
      cases escaped' with
      | itself _ other => exact absurd rfl (other _ known)
      | letter known' =>
          have same := functional _ known _ known' rfl
          dsimp only at same
          rw [same]
      | number _ other => exact absurd rfl (other _ known)
  | number hidden other =>
      cases escaped' with
      | itself visible _ => exact absurd visible hidden
      | letter known => exact absurd rfl (other _ known)
      | number _ _ => rfl

/-- A text stands for one character only. -/
theorem inj (escaped : Escaped a text) (escaped' : Escaped b text') (same : text = text') :
    a = b := by
  have injective : ∀ x ∈ escapeLetters, ∀ y ∈ escapeLetters, x.2 = y.2 → x.1 = y.1 := by decide
  cases escaped with
  | itself _ _ =>
      cases escaped' with
      | itself _ _ => exact List.head_eq_of_cons_eq same
      | letter _ => cases same
      | number _ _ => cases same
  | letter known =>
      cases escaped' with
      | itself _ _ => cases same
      | letter known' =>
          cases same
          exact injective _ known _ known' rfl
      | number _ _ => cases same
  | number _ _ =>
      cases escaped' with
      | itself _ _ => cases same
      | letter _ => cases same
      | number _ _ =>
          simp only [List.cons.injEq, true_and, List.append_cancel_right_eq] at same
          exact Char.toNat_inj.1 (sixteens_inj same)

end Escaped

theorem escaped_iff {c : Char} {text : List Char} :
    Escaped c text ↔ text = (escapeChar c).toList :=
  ⟨fun escaped => escaped.unique (escaped_escapeChar c), fun same => same ▸ escaped_escapeChar c⟩

/-! ## Quoted characters -/

theorem toList_quoteChar (c : Char) :
    (quoteChar c).toList = '\'' :: ((escapeChar c).toList ++ ['\'']) := by
  have quote : "'".toList = ['\''] := rfl
  simp [quoteChar, quote]

theorem quoteChar_eq_iff {c : Char} {text : String} :
    quoteChar c = text ↔ ∃ inside, Escaped c inside ∧ text.toList = '\'' :: (inside ++ ['\'']) := by
  simp only [escaped_iff, exists_eq_left, ← toList_quoteChar, String.toList_inj]
  exact eq_comm

theorem quoteChar_inj {a b : Char} (same : quoteChar a = quoteChar b) : a = b := by
  have lists := congrArg String.toList same
  rw [toList_quoteChar, toList_quoteChar] at lists
  have inside := List.append_cancel_right (List.cons.inj lists).2
  exact (escaped_escapeChar a).inj (escaped_escapeChar b) inside

/-- A letter, a digit or a sign of ASCII is itself between the quotes. -/
theorem quoteChar_of_ascii {c : Char} (first : 0x20 ≤ c.toNat) (last : c.toNat ≤ 0x7e)
    (sign : c ∉ ['\'', '\\']) : quoteChar c = String.ofList ['\'', c, '\''] := by
  have other : ∀ entry ∈ escapeLetters, c ≠ entry.1 := by
    have signs : ∀ entry ∈ escapeLetters, entry.1 ∈ ['\'', '\\'] ∨ entry.1.toNat < 0x20 := by
      decide
    rintro entry known rfl
    exact (signs entry known).elim sign (Nat.not_lt.2 first)
  exact quoteChar_eq_iff.2 ⟨[c], .itself (visible_of_ascii first last) other, String.toList_ofList⟩

end TeamScript
