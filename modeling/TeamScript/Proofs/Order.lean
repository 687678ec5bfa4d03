/-
# TeamScript.Proofs.Order -- locations in order

`<` orders locations by line, and on one line by column.  It is a strict total
order, `≤` is its reflexive closure, and `compare` decides between the three
cases.  Text leads forward in it (`lt_next`, `lt_after`), so a longer front part
of a text leads to a greater location (`behind_take_lt`).

What is computed from a list of locations is settled by the order alone:

* `comparisons` never answers anything but `.lt` if and only if the list ascends
  (`comparisons_lt_iff`), nor `.gt` if and only if it does not descend
  (`comparisons_ne_gt_iff`);
* `sorted` is the one rearrangement that does not descend (`sorted_eq_iff`);
* `greatest?` is the location of the list with no greater one beside it
  (`greatest?_eq_some_iff`), and only the empty list has none.
-/
import Mathlib.Data.List.Chain
import TeamScript.Proofs.Place

namespace TeamScript.Location

set_option autoImplicit false

/-! ## A strict total order -/

theorem lt_irrefl (l : Location) : ¬ l < l := by
  rintro (less | ⟨-, less⟩) <;> exact Nat.lt_irrefl _ less

theorem lt_trans {a b c : Location} (ab : a < b) (bc : b < c) : a < c := by
  show Location.lt a c
  unfold Location.lt
  rcases ab with ab | ⟨ab, ab'⟩ <;> rcases bc with bc | ⟨bc, bc'⟩ <;> omega

theorem lt_trichotomy (a b : Location) : a < b ∨ a = b ∨ b < a := by
  rcases Nat.lt_trichotomy a.line b.line with above | sameLine | below
  · exact .inl (.inl above)
  · rcases Nat.lt_trichotomy a.column b.column with left | sameColumn | right
    · exact .inl (.inr ⟨sameLine, left⟩)
    · obtain ⟨line, column⟩ := a
      obtain ⟨line', column'⟩ := b
      cases sameLine
      cases sameColumn
      exact .inr (.inl rfl)
    · exact .inr (.inr (.inr ⟨sameLine.symm, right⟩))
  · exact .inr (.inr (.inl below))

theorem le_refl (l : Location) : l ≤ l := .inr rfl

theorem not_lt_iff {a b : Location} : ¬ a < b ↔ b ≤ a := by
  constructor
  · intro not_
    rcases lt_trichotomy a b with less | same | greater
    · exact absurd less not_
    · exact .inr same.symm
    · exact .inl greater
  · rintro (greater | rfl) less
    · exact lt_irrefl _ (lt_trans less greater)
    · exact lt_irrefl _ less

theorem lt_of_lt_of_le {a b c : Location} (ab : a < b) (bc : b ≤ c) : a < c := by
  rcases bc with less | rfl
  · exact lt_trans ab less
  · exact ab

theorem le_trans {a b c : Location} (ab : a ≤ b) (bc : b ≤ c) : a ≤ c := by
  rcases ab with less | rfl
  · exact .inl (lt_of_lt_of_le less bc)
  · exact bc

theorem le_antisymm {a b : Location} (ab : a ≤ b) (ba : b ≤ a) : a = b := by
  rcases ab with less | same
  · exact absurd less (not_lt_iff.2 ba)
  · exact same

theorem le_total (a b : Location) : a ≤ b ∨ b ≤ a := by
  by_cases less : a < b
  · exact .inl (.inl less)
  · exact .inr (not_lt_iff.1 less)

theorem compare_eq_lt_iff {a b : Location} : compare a b = .lt ↔ a < b := by
  show compareOfLessAndEq a b = .lt ↔ a < b
  unfold compareOfLessAndEq
  split
  · rename_i less
    exact iff_of_true rfl less
  · rename_i not_
    refine iff_of_false ?_ not_
    split <;> nofun

theorem compare_ne_gt_iff {a b : Location} : compare a b ≠ .gt ↔ a ≤ b := by
  show compareOfLessAndEq a b ≠ .gt ↔ a < b ∨ a = b
  unfold compareOfLessAndEq
  split
  · rename_i less
    exact iff_of_true nofun (.inl less)
  · rename_i not_
    split
    · rename_i same
      exact iff_of_true nofun (.inr same)
    · rename_i other
      exact iff_of_false (fun less => less rfl) (not_or.2 ⟨not_, other⟩)

/-! ## Text leads forward -/

theorem lt_next (l : Location) (c : Char) : l < l.next c := by
  unfold next
  split
  · exact .inl (Nat.lt_succ_self _)
  · exact .inr ⟨rfl, Nat.lt_succ_self _⟩

theorem lt_after (l : Location) {text : List Char} (nonempty : text ≠ []) : l < l.after text := by
  induction text generalizing l with
  | nil => exact absurd rfl nonempty
  | cons c text ih =>
      cases text with
      | nil => exact lt_next l c
      | cons d more => exact lt_trans (lt_next l c) (ih _ (by simp))

theorem behind_lt_append (before : List Char) {text : List Char} (nonempty : text ≠ []) :
    behind before < behind (before ++ text) := by
  rw [← behind_after]
  exact lt_after _ nonempty

theorem behind_le_append (before text : List Char) : behind before ≤ behind (before ++ text) := by
  cases text with
  | nil => rw [List.append_nil]; exact le_refl _
  | cons c text => exact .inl (behind_lt_append before (by simp))

/-- A longer front part of a text leads to a greater location. -/
theorem behind_take_lt {text : List Char} {m n : Nat} (less : m < n) (inside : n ≤ text.length) :
    behind (text.take m) < behind (text.take n) := by
  have front : text.take n = text.take m ++ (text.take n).drop m := by
    have cut := List.take_append_drop m (text.take n)
    rw [List.take_take, Nat.min_eq_left (Nat.le_of_lt less)] at cut
    exact cut.symm
  have between : (text.take n).drop m ≠ [] := by
    apply List.ne_nil_of_length_pos
    rw [List.length_drop, List.length_take]
    omega
  rw [front]
  exact behind_lt_append _ between

section Fronts

variable {text : List Char} {m n : Nat}

theorem behind_take_lt_iff (inside : m ≤ text.length) (inside' : n ≤ text.length) :
    behind (text.take m) < behind (text.take n) ↔ m < n := by
  refine ⟨fun less => ?_, fun less => behind_take_lt less inside'⟩
  rcases Nat.lt_trichotomy m n with before | rfl | beyond
  · exact before
  · exact absurd less (lt_irrefl _)
  · exact absurd (lt_trans less (behind_take_lt beyond inside)) (lt_irrefl _)

theorem behind_take_inj (inside : m ≤ text.length) (inside' : n ≤ text.length)
    (same : behind (text.take m) = behind (text.take n)) : m = n := by
  rcases Nat.lt_trichotomy m n with before | here | beyond
  · exact absurd (same ▸ behind_take_lt before inside') (lt_irrefl _)
  · exact here
  · exact absurd (same ▸ behind_take_lt beyond inside) (lt_irrefl _)

end Fronts

/-! ## Lists of locations -/

variable {ls : List Location}

/-- The comparisons look at neighbours only. -/
theorem comparisons_iff_isChain {P : Ordering → Prop} {R : Location → Location → Prop}
    (same : ∀ a b, P (compare a b) ↔ R a b) : (∀ o ∈ comparisons ls, P o) ↔ ls.IsChain R := by
  induction ls with
  | nil => simp [comparisons]
  | cons a ls ih =>
      cases ls with
      | nil => simp [comparisons]
      | cons b more =>
          have first : comparisons (a :: b :: more) = compare a b :: comparisons (b :: more) := rfl
          rw [first, List.forall_mem_cons, List.isChain_cons_cons, same, ih]

theorem comparisons_lt_iff : (∀ o ∈ comparisons ls, o = .lt) ↔ ls.Pairwise (· < ·) := by
  have trans : Trans (α := Location) (· < ·) (· < ·) (· < ·) := ⟨lt_trans⟩
  rw [comparisons_iff_isChain fun _ _ => compare_eq_lt_iff]
  exact List.isChain_iff_pairwise

theorem comparisons_ne_gt_iff : (∀ o ∈ comparisons ls, o ≠ .gt) ↔ ls.Pairwise (· ≤ ·) := by
  have trans : Trans (α := Location) (· ≤ ·) (· ≤ ·) (· ≤ ·) := ⟨le_trans⟩
  rw [comparisons_iff_isChain fun _ _ => compare_ne_gt_iff]
  exact List.isChain_iff_pairwise

/-- The sorted list holds the same locations as often, and does not descend; no other list
does both. -/
theorem sorted_eq_iff {ms : List Location} :
    sorted ls = ms ↔ ms.Perm ls ∧ ms.Pairwise (· ≤ ·) := by
  have perm : (sorted ls).Perm ls := List.mergeSort_perm _ _
  have ordered : (sorted ls).Pairwise (· ≤ ·) := by
    have pairwise := @List.pairwise_mergeSort _ (fun a b : Location => decide (a ≤ b))
      (fun _ _ _ ab bc => decide_eq_true (le_trans (of_decide_eq_true ab) (of_decide_eq_true bc)))
      (fun a b => by simpa using le_total a b) ls
    exact pairwise.imp of_decide_eq_true
  constructor
  · rintro rfl
    exact ⟨perm, ordered⟩
  · rintro ⟨perm', ordered'⟩
    exact List.Perm.eq_of_pairwise (fun _ _ _ _ => le_antisymm) ordered ordered'
      (perm.trans perm'.symm)

/-- The search for the greatest location keeps the best one of those it has seen. -/
theorem foldl_greatest (best : Location) (ls : List Location) :
    let found := ls.foldl (fun best next => if best < next then next else best) best
    found ∈ best :: ls ∧ ∀ other ∈ best :: ls, other ≤ found := by
  induction ls generalizing best with
  | nil => simp [le_refl]
  | cons next ls ih =>
      obtain ⟨member, above⟩ := ih (if best < next then next else best)
      obtain ⟨aboveBoth, aboveOthers⟩ := List.forall_mem_cons.1 above
      rw [List.foldl_cons]
      by_cases less : best < next
      · rw [if_pos less] at member aboveBoth aboveOthers ⊢
        have aboveBest := le_trans (.inl less) aboveBoth
        exact ⟨List.mem_cons_of_mem _ member,
          List.forall_mem_cons.2 ⟨aboveBest, List.forall_mem_cons.2 ⟨aboveBoth, aboveOthers⟩⟩⟩
      · rw [if_neg less] at member aboveBoth aboveOthers ⊢
        have aboveNext := le_trans (not_lt_iff.1 less) aboveBoth
        refine ⟨?_, List.forall_mem_cons.2 ⟨aboveBoth, List.forall_mem_cons.2 ⟨aboveNext,
          aboveOthers⟩⟩⟩
        rcases List.mem_cons.1 member with same | later
        · exact List.mem_cons.2 (.inl same)
        · exact List.mem_cons_of_mem _ (List.mem_cons_of_mem _ later)

theorem greatest?_eq_some_iff {l : Location} :
    greatest? ls = some l ↔ l ∈ ls ∧ ∀ other ∈ ls, other ≤ l := by
  cases ls with
  | nil => simp [greatest?]
  | cons first ls =>
      obtain ⟨member, above⟩ := foldl_greatest first ls
      rw [greatest?, Option.some.injEq]
      constructor
      · rintro rfl
        exact ⟨member, above⟩
      · rintro ⟨member', above'⟩
        exact le_antisymm (above' _ member) (above _ member')

theorem greatest?_eq_none_iff : greatest? ls = none ↔ ls = [] := by
  cases ls <;> simp [greatest?]

end TeamScript.Location
