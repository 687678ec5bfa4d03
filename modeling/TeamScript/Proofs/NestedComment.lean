/-
# TeamScript.Proofs.NestedComment -- a block comment and no more of the text

In front of an opener the reader of slashes counts how deep comments are nested.
Where the count comes to an end there is a block comment of the grammar, and
where there is a block comment the count comes to an end behind it, whatever
slashes and stars it holds.  So no block comment is the beginning of another one
(`Block.eq_of_prefix`): a text has at most one in front (`Block.unique`), and the
reader takes that one or, if there is none, the whole text.
-/
import TeamScript.Cursor.Scan
import TeamScript.Proofs.Grammar.Comment

namespace TeamScript

set_option autoImplicit false

namespace Comment

/-- No block comment begins with another one. -/
theorem Block.eq_of_prefix {block other : List Char} (first : Block block) (second : Block other)
    (front : block <+: other) : block = other := by
  obtain ⟨body, rfl, closed⟩ := first
  obtain ⟨_, rfl, closed'⟩ := second
  rw [List.cons_prefix_cons, List.cons_prefix_cons] at front
  obtain ⟨-, -, rest, rfl⟩ := front
  -- behind the opener the count ends behind either body, whatever follows it
  have ends := blockEnd_of_body closed rest
  have ends' := blockEnd_of_body closed' []
  rw [List.append_nil, ends, Option.some.injEq, List.length_append] at ends'
  have empty : rest = [] := List.eq_nil_of_length_eq_zero (by omega)
  rw [empty, List.append_nil]

/-- At most one block comment stands in front of a text. -/
theorem Block.unique {block other text : List Char} (first : Block block) (second : Block other)
    (front : block <+: text) (front' : other <+: text) : other = block := by
  rcases List.prefix_or_prefix_of_prefix front front' with inside | inside
  · exact (first.eq_of_prefix second inside).symm
  · exact second.eq_of_prefix first inside

/-- Without a block comment in front the count behind the opener comes to no end. -/
theorem unclosed_of_no_block {text : List Char}
    (none_ : ∀ block, Block block → ¬ block <+: '/' :: '*' :: text) :
    ∀ body, body <+: text → ¬ Body body := by
  intro body front closed
  apply none_ ('/' :: '*' :: body) ⟨body, rfl, closed⟩
  simpa [List.cons_prefix_cons] using front

end Comment

namespace Cursor

open Comment

variable {c : Cursor}

theorem scan_of_block {block rest : List Char} (complete : Block block)
    (ahead : c.rest = block ++ rest) (start : Location) :
    c.scan start .slash = (.comment, c.pass block) := by
  obtain ⟨body, rfl, closed⟩ := complete
  have read : Comment.read c.rest = .gap ('/' :: '*' :: body) rest := by
    rw [ahead]
    exact read_body closed rest
  rw [scan, read]

theorem scan_of_unclosed {text : List Char} (opened : c.rest = '/' :: '*' :: text)
    (unclosed : ∀ body, body <+: text → ¬ Body body) (start : Location) :
    c.scan start .slash = (.token ⟨.error, "unterminated comment", start⟩, c.pass c.rest) := by
  rw [scan, opened, read_unclosed unclosed]
  rfl

/-- In front of an opener, the reader of slashes takes the one block comment that stands there, if
there is one, and else reports the whole text as an open comment.  No block comment is the
beginning of another one. -/
theorem scan_slash_block {more : List Char} (opened : c.rest = '/' :: '*' :: more)
    (start : Location) :
    (∀ block, Block block → block <+: c.rest →
      (∀ other, Block other → other <+: c.rest → other = block) ∧
      c.scan start .slash = (.comment, c.pass block) ∧
      c.rest = block ++ (c.pass block).rest) ∧
    ((∀ block, Block block → ¬ block <+: c.rest) →
      c.scan start .slash = (.token ⟨.error, "unterminated comment", start⟩, c.pass c.rest) ∧
      (c.pass c.rest).rest = []) ∧
    ∀ block other, Block block → Block other → block <+: other → block = other := by
  refine ⟨fun block complete front => ⟨?_, ?_⟩, fun none_ => ⟨?_, ?_⟩, ?_⟩
  · intro other complete' front'
    exact complete.unique complete' front front'
  · obtain ⟨rest, whole⟩ := front
    refine ⟨scan_of_block complete whole.symm start, ?_⟩
    rw [rest_pass whole.symm, whole]
  · rw [opened] at none_
    exact scan_of_unclosed opened (unclosed_of_no_block none_) start
  · exact rest_pass (List.append_nil _).symm
  · intro block other complete complete' front
    exact complete.eq_of_prefix complete' front

/-- A comment in a comment, both closed by runs of stars, and one that is left open. -/
theorem scan_slash_block_nested :
    (Cursor.mk "1/*/***/**/2".toList ⟨1, ⟨1, 2⟩⟩).scan ⟨1, 2⟩ .slash =
        (.comment, .mk "1/*/***/**/2".toList ⟨11, ⟨1, 12⟩⟩) ∧
      (ofText "/*/*/*/".toList).scan ⟨4, 2⟩ .slash =
        (.token ⟨.error, "unterminated comment", ⟨4, 2⟩⟩, .mk "/*/*/*/".toList ⟨7, ⟨1, 8⟩⟩) := by
  have nested : Block "/*/***/**/".toList :=
    ⟨"/***/**/".toList, rfl, @Body.nested ['*', '*', '/'] ['*', '*', '/'] (.close 1) (.close 1)⟩
  have unclosed : ∀ block, Block block → ¬ block <+: "/*/*/*/".toList := by
    rintro _ ⟨body, rfl, closed⟩ front
    have open_ : blockEnd 1 0 "/*/*/".toList = none := by decide
    apply blockEnd_eq_none_iff.1 open_ body _ closed
    exact (List.prefix_append_right_inj ['/', '*']).1 front
  obtain ⟨found, -, -⟩ :=
    @scan_slash_block (.mk "1/*/***/**/2".toList ⟨1, ⟨1, 2⟩⟩) "/***/**/2".toList rfl ⟨1, 2⟩
  obtain ⟨-, open_, -⟩ :=
    @scan_slash_block (ofText "/*/*/*/".toList) "/*/*/".toList rfl ⟨4, 2⟩
  exact ⟨(found _ nested ⟨['2'], rfl⟩).2.1, (open_ unclosed).1⟩

end Cursor

end TeamScript
