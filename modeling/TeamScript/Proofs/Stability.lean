/-
# TeamScript.Proofs.Stability -- what is read stays read

No reader looks further than one character beyond what it consumes.  So once a
token is read and one more character is known, nothing that may still be written
behind that character changes the token.

`answers_of_prefix` says it of any number of calls on two texts with a common
front.  The calls on the one text use up a front part of its row of chunks.  If
that part ends before the common front does, the character behind it is known,
too, and the same chunks stand in front of whatever row the other text goes on
with.
-/
import TeamScript.Proofs.Calls

namespace TeamScript

set_option autoImplicit false

namespace Chunk

variable {policy : Policy}

/-- A part of a row stands in front of any text that begins with the same character as the
text behind it. -/
theorem Row.continued {front later : List Chunk} {c : Char} {more : List Char}
    (row : Row policy (front ++ later) none) (next : text later = c :: more)
    (other : List Char) :
    ∃ others, Row policy (front ++ others) none ∧ text others = c :: other := by
  obtain ⟨others, otherRow, behind⟩ := exists_row policy (c :: other)
  have frontRow := (row_append.1 row).1
  rw [next] at frontRow
  refine ⟨others, row_append.2 ⟨?_, otherRow⟩, behind⟩
  rw [behind]
  exact frontRow

end Chunk

/-- A text that ends within a common front of two texts is followed by the same character in
both of them. -/
theorem exists_next_of_prefix {front text other span rest : List Char} (begins : front <+: text)
    (begins' : front <+: other) (whole : text = span ++ rest) (short : span.length < front.length) :
    ∃ c more more', rest = c :: more ∧ other = span ++ c :: more' := by
  have inside : span <+: front :=
    List.prefix_of_prefix_length_le ⟨rest, whole.symm⟩ begins (Nat.le_of_lt short)
  obtain ⟨behind, rfl⟩ := inside
  have nonempty : behind ≠ [] := by
    rintro rfl
    simp at short
  obtain ⟨c, behind, rfl⟩ := List.exists_cons_of_ne_nil nonempty
  obtain ⟨tail, rfl⟩ := begins
  obtain ⟨tail', rfl⟩ := begins'
  refine ⟨c, behind ++ tail, behind ++ tail', ?_, by simp⟩
  rw [List.append_assoc] at whole
  exact (List.append_cancel_left whole).symm

/-- Calls that end before the common front of two texts does answer alike on both of them and
leave the lexer at the same place. -/
theorem answers_of_prefix {policy : Policy} {front text other : List Char} {k : Nat}
    (begins : front <+: text) (begins' : front <+: other)
    (more : ∀ t ∈ (Lexer.ofText policy text).answers k, t.isEnding = false)
    (short : ((Lexer.ofText policy text).afterCalls k).offset < front.length) :
    (Lexer.ofText policy other).answers k = (Lexer.ofText policy text).answers k ∧
      ((Lexer.ofText policy other).afterCalls k).offset =
        ((Lexer.ofText policy text).afterCalls k).offset ∧
      ((Lexer.ofText policy other).afterCalls k).location =
        ((Lexer.ofText policy text).afterCalls k).location := by
  obtain ⟨chunks, row, whole⟩ := Chunk.exists_row policy text
  obtain ⟨read, later, rfl, served⟩ :=
    Chunk.exists_served (l := .ofText policy text) row whole.symm more
  obtain ⟨answered, called⟩ := served.calls (l := .ofText policy text) row whole.symm
  have consumed : (Chunk.text read).length < front.length := by
    rw [called] at short
    simpa [Lexer.ofText, Lexer.pass] using short
  rw [Chunk.text_append] at whole
  obtain ⟨c, behind, behind', next, whole'⟩ :=
    exists_next_of_prefix begins begins' whole.symm consumed
  -- the chunks of the calls stand in front of the rest of the other text as well
  obtain ⟨others, otherRow, otherNext⟩ := row.continued next behind'
  have ahead : other = Chunk.text (read ++ others) := by
    rw [Chunk.text_append, otherNext, whole']
  obtain ⟨answered', called'⟩ := served.calls (l := .ofText policy other) otherRow ahead
  rw [answered, answered', called, called']
  exact ⟨rfl, rfl, rfl⟩

/-- Two tokens in front of a slash that begins a comment in one text and is an operator in the
other. -/
theorem answers_before_slash :
    "134 .5e+7/".toList <+: "134 .5e+7/* 1".toList ∧
      "134 .5e+7/".toList <+: "134 .5e+7/= 1".toList ∧
      (∀ t ∈ (Lexer.ofText .refuse "134 .5e+7/* 1".toList).answers 2, t.isEnding = false) ∧
      ((Lexer.ofText .refuse "134 .5e+7/* 1".toList).afterCalls 2).offset <
        "134 .5e+7/".toList.length ∧
      (Lexer.ofText .refuse "134 .5e+7/= 1".toList).answers 2 =
        [⟨.integer, "134", ⟨1, 1⟩⟩, ⟨.number, ".5e+7", ⟨1, 5⟩⟩] ∧
      ((Lexer.ofText .refuse "134 .5e+7/= 1".toList).afterCalls 2).offset = 9 ∧
      ((Lexer.ofText .refuse "134 .5e+7/= 1".toList).afterCalls 2).location = ⟨1, 10⟩ := by
  have begins : "134 .5e+7/".toList <+: "134 .5e+7/* 1".toList := by decide
  have begins' : "134 .5e+7/".toList <+: "134 .5e+7/= 1".toList := by decide
  have answered : (Lexer.ofText .refuse "134 .5e+7/* 1".toList).answers 2 =
      [⟨.integer, "134", ⟨1, 1⟩⟩, ⟨.number, ".5e+7", ⟨1, 5⟩⟩] := by decide +kernel
  have offset : ((Lexer.ofText .refuse "134 .5e+7/* 1".toList).afterCalls 2).offset = 9 := by
    decide +kernel
  have location : ((Lexer.ofText .refuse "134 .5e+7/* 1".toList).afterCalls 2).location =
      ⟨1, 10⟩ := by decide +kernel
  have more : ∀ t ∈ (Lexer.ofText .refuse "134 .5e+7/* 1".toList).answers 2,
      t.isEnding = false := by rw [answered]; decide
  have short : ((Lexer.ofText .refuse "134 .5e+7/* 1".toList).afterCalls 2).offset <
      "134 .5e+7/".toList.length := by rw [offset]; decide
  have stable := answers_of_prefix begins begins' more short
  rw [answered, offset, location] at stable
  exact ⟨begins, begins', more, short, stable⟩

end TeamScript
