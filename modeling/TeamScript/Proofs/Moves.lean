/-
# TeamScript.Proofs.Moves -- a cursor and the text in front of it

What a cursor sees and how far it moves depends on the rest of the text alone.
Looking ahead sees the rest, and the sentinel behind it (`peekAt_eq`); whether a
word of the text is in front can be told character by character (`shows_iff`).
Consuming a front part of the rest passes it, in one move or in many
(`advances_append`), and from where it has come to a cursor can tell the text
that it passed (`textSince_pass`) or go back (`restore_pass`).
-/
import TeamScript.Cursor

namespace TeamScript.Cursor

set_option autoImplicit false

/-! ## Looking -/

theorem peekAt_eq (c : Cursor) (k : Nat) : c.peekAt k = c.rest[k]?.getD sentinel := by
  rw [peekAt, rest, List.getElem?_drop]

theorem peek_eq (c : Cursor) : c.peek = c.rest.head?.getD sentinel := by
  rw [peek, peekAt_eq, List.head?_eq_getElem?]

theorem peek_of_cons {c : Cursor} {d : Char} {more : List Char} (ahead : c.rest = d :: more) :
    c.peek = d := by
  rw [peek_eq, ahead]
  rfl

/-- A class without the sentinel sees at the end of the text what is there, nothing. -/
theorem class_peek {p : Char → Bool} (foreign : p sentinel = false) (c : Cursor) :
    p c.peek = c.rest.head?.any p := by
  rw [peek_eq]
  cases c.rest.head? with
  | none => exact foreign
  | some d => rfl

theorem atEnd_of_cons {c : Cursor} {d : Char} {more : List Char} (ahead : c.rest = d :: more) :
    c.atEnd = false := by
  rw [← Bool.not_eq_true, atEnd_iff, ahead]
  exact List.cons_ne_nil _ _

/-- The characters of the word are in front, looked at one by one. -/
def shows (c : Cursor) (word : List Char) : Bool :=
  word.zipIdx.all fun (d, k) => c.peekAt k == d

/-- A word without the sentinel is seen where it stands, and nowhere else. -/
theorem shows_iff {word : List Char} (inside : sentinel ∉ word) (c : Cursor) :
    c.shows word = true ↔ word <+: c.rest := by
  rw [shows, List.all_eq_true, List.prefix_iff_getElem?]
  simp only [Prod.forall, List.mem_zipIdx_iff_getElem?, beq_iff_eq, peekAt_eq]
  constructor
  · intro seen k short
    have same := seen word[k] k (List.getElem?_eq_getElem short)
    cases next : c.rest[k]? with
    | none =>
        -- behind the end there is the sentinel, which the word does not hold
        rw [next, Option.getD_none] at same
        exact absurd (same ▸ List.getElem_mem short) inside
    | some d =>
        rw [next, Option.getD_some] at same
        rw [same]
  · intro front d k member
    obtain ⟨short, rfl⟩ := List.getElem?_eq_some_iff.1 member
    rw [front k short, Option.getD_some]

/-! ## Moving -/

theorem pass_nil (c : Cursor) : c.pass [] = c := rfl

theorem pass_pass (c : Cursor) (a b : List Char) : (c.pass a).pass b = c.pass (a ++ b) := by
  simp [pass, offset, location, Location.after_append, Nat.add_assoc]

theorem advance_of_cons {c : Cursor} {d : Char} {more : List Char} (ahead : c.rest = d :: more) :
    c.advance = (d, c.pass [d]) := by
  rw [advance, ahead]

/-- Consumes so many characters, one after the other. -/
def advances (c : Cursor) : Nat → Cursor
  | 0 => c
  | n + 1 => c.advance.2.advances n

theorem advances_append {c : Cursor} {span more : List Char} (ahead : c.rest = span ++ more) :
    c.advances span.length = c.pass span := by
  induction span generalizing c with
  | nil => exact (pass_nil c).symm
  | cons d span ih =>
      rw [List.length_cons, advances, advance_of_cons ahead, ih (rest_pass ahead), pass_pass]
      rfl

theorem eatWhile_eq (c : Cursor) (p : Char → Bool) :
    (c.eatWhile p).2 = c.pass (c.rest.takeWhile p) := rfl

/-! ## Looking and going back -/

theorem textSince_pass {c : Cursor} {span more : List Char} (ahead : c.rest = span ++ more) :
    (c.pass span).textSince c.place = span := by
  have length := congrArg List.length ahead
  rw [rest, List.length_drop, List.length_append] at length
  unfold textSince
  split
  · show (c.buffer.take (c.offset + span.length)).drop c.offset = span
    rw [List.drop_take, Nat.add_sub_cancel_left]
    have front : c.buffer.drop c.offset = span ++ more := ahead
    rw [front, List.take_left]
  · -- a cursor that is beyond its buffer passes nothing
    rename_i beyond
    rw [pass_offset] at beyond
    have empty : span.length = 0 := by
      have buffer : (c.pass span).buffer = c.buffer := rfl
      rw [buffer] at beyond
      omega
    exact (List.eq_nil_of_length_eq_zero empty).symm

theorem restore_pass (c : Cursor) (span : List Char) : (c.pass span).restore c.place = c := rfl

end TeamScript.Cursor
