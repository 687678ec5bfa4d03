/-
# TeamScript.Proofs.Place -- the location behind a text, counted

`Location.behind text` counts the line feeds of a text and the characters behind
the last of them.  It is where a text leaves a reader that starts at the
beginning (`start_after`).

A text read from another location than the start leads to the location that is
shifted by it (`shift_after`): only what stands on the first line keeps the
columns of the line it continues.
-/
import Mathlib.Data.List.TakeWhile
import TeamScript.Location

namespace TeamScript.Location

set_option autoImplicit false

/-- The location behind `text`: one line more than it has line feeds, one column
more than it has characters on its last line. -/
def behind (text : List Char) : Location :=
  ⟨1 + text.count '\n', 1 + (text.reverse.takeWhile (· != '\n')).length⟩

theorem behind_append_singleton (text : List Char) (c : Char) :
    behind (text ++ [c]) = (behind text).next c := by
  by_cases feed : c = '\n'
  · simp [behind, next, feed, Nat.add_assoc]
  · have counted : [c].count '\n' = 0 := by simp [feed]
    simp [behind, next, feed, counted]
    omega

theorem start_after (text : List Char) : start.after text = behind text := by
  -- by induction from the end, where the last character is the one that counts
  have reversed : ∀ rev : List Char, start.after rev.reverse = behind rev.reverse := by
    intro rev
    induction rev with
    | nil => rfl
    | cons c rev ih =>
        rw [List.reverse_cons, after_append, ih, behind_append_singleton]
        rfl
  simpa using reversed text.reverse

/-- A text without line feed stands on the first line. -/
theorem behind_of_not_mem {text : List Char} (line : '\n' ∉ text) :
    behind text = ⟨1, 1 + text.length⟩ := by
  have inside : ∀ c ∈ text.reverse, (c != '\n') = true := by
    intro c member
    simpa using ne_of_mem_of_not_mem (List.mem_reverse.1 member) line
  rw [behind, List.count_eq_zero.2 line, List.takeWhile_eq_self_iff.2 inside, List.length_reverse]

theorem behind_after (a b : List Char) : (behind a).after b = behind (a ++ b) := by
  rw [← start_after, ← start_after, after_append]

/-! ## Shifted locations -/

/-- Lines and columns count from one. -/
structure Placed (l : Location) : Prop where
  line : 1 ≤ l.line
  column : 1 ≤ l.column

theorem placed_start : Placed start := ⟨Nat.le_refl 1, Nat.le_refl 1⟩

theorem Placed.next {l : Location} (placed : Placed l) (c : Char) : Placed (l.next c) := by
  unfold Location.next
  split
  · exact ⟨Nat.le_add_left 1 _, Nat.le_refl 1⟩
  · exact ⟨placed.line, Nat.le_add_left 1 _⟩

theorem Placed.after {l : Location} (placed : Placed l) (text : List Char) :
    Placed (l.after text) := by
  induction text generalizing l with
  | nil => exact placed
  | cons c text ih => exact ih (placed.next c)

theorem shift_start (origin : Location) : origin.shift start = origin := rfl

theorem shift_next {l : Location} (placed : Placed l) (origin : Location) (c : Char) :
    origin.shift (l.next c) = (origin.shift l).next c := by
  obtain ⟨line, column⟩ := l
  obtain ⟨hasLine, hasColumn⟩ := placed
  dsimp only at hasLine hasColumn
  by_cases feed : c = '\n'
  · have later : line + 1 ≠ 1 := by omega
    by_cases first : line = 1
    · simp [shift, next, feed, first]
    · simp only [shift, next, feed, if_true, later, first, if_false, Location.mk.injEq, and_true]
      omega
  · by_cases first : line = 1
    · simp only [shift, next, feed, first, if_true, if_false, Location.mk.injEq, true_and]
      omega
    · simp [shift, next, feed, first]

theorem shift_after {l : Location} (placed : Placed l) (origin : Location) (text : List Char) :
    origin.shift (l.after text) = (origin.shift l).after text := by
  induction text generalizing l with
  | nil => rfl
  | cons c text ih => rw [after_cons, after_cons, ih (placed.next c), shift_next placed]

end TeamScript.Location
