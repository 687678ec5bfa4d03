/-
# TeamScript.Unicode.Ranges -- sets of code points

A set of code points is a list of closed ranges, ascending and apart.  Looking a
number up stops at the first range that begins above it.  `mem` is membership,
and on a list in order it is what `contains` decides (`contains_iff`).
-/

namespace TeamScript

set_option autoImplicit false

abbrev CodeRanges := List (Nat × Nat)

namespace CodeRanges

def contains : CodeRanges → Nat → Bool
  | [], _ => false
  | (first, last) :: more, n => first ≤ n && (n ≤ last || contains more n)

/-- How many code points there are in the ranges. -/
def size : CodeRanges → Nat
  | [] => 0
  | (first, last) :: more => last + 1 - first + size more

/-- Every range is upright, and begins beyond `floor` and beyond the one before it. -/
def inOrder (floor : Nat) : CodeRanges → Bool
  | [] => true
  | (first, last) :: more => floor ≤ first && first ≤ last && inOrder (last + 2) more

def mem (ranges : CodeRanges) (n : Nat) : Prop :=
  ∃ range ∈ ranges, range.1 ≤ n ∧ n ≤ range.2

theorem le_of_mem_of_inOrder {ranges : CodeRanges} {floor n : Nat}
    (ordered : ranges.inOrder floor) (member : ranges.mem n) : floor ≤ n := by
  induction ranges generalizing floor with
  | nil =>
      obtain ⟨_, impossible, -⟩ := member
      cases impossible
  | cons range more ih =>
      obtain ⟨first, last⟩ := range
      simp only [inOrder, Bool.and_eq_true, decide_eq_true_eq] at ordered
      obtain ⟨found, among, inside⟩ := member
      rcases List.mem_cons.1 among with rfl | later
      · exact Nat.le_trans ordered.1.1 inside.1
      · have := ih ordered.2 ⟨found, later, inside⟩
        omega

theorem contains_iff {ranges : CodeRanges} {floor : Nat} (ordered : ranges.inOrder floor)
    (n : Nat) : ranges.contains n ↔ ranges.mem n := by
  induction ranges generalizing floor with
  | nil => simp [contains, mem]
  | cons range more ih =>
      obtain ⟨first, last⟩ := range
      simp only [inOrder, Bool.and_eq_true, decide_eq_true_eq] at ordered
      simp only [contains, Bool.and_eq_true, Bool.or_eq_true, decide_eq_true_eq, ih ordered.2]
      constructor
      · rintro ⟨above, here | there⟩
        · exact ⟨_, List.mem_cons_self, above, here⟩
        · obtain ⟨found, among, inside⟩ := there
          exact ⟨found, List.mem_cons_of_mem _ among, inside⟩
      · rintro ⟨found, among, inside⟩
        rcases List.mem_cons.1 among with rfl | later
        · exact ⟨inside.1, Or.inl inside.2⟩
        · have member : mem more n := ⟨found, later, inside⟩
          have := le_of_mem_of_inOrder ordered.2 member
          exact ⟨by omega, Or.inr member⟩

end CodeRanges

end TeamScript
