/-
# TeamScript.Lexeme.Comment -- line comments and nested block comments

Two slashes begin a comment that ends with its line.  A slash and a star open a
block comment; block comments nest, and a star and a slash close the innermost
one that is open.  An opener is told before a closer: in `/*/` the star belongs
to the opener, so the comment is still open.

A block comment that is never closed is a fault, and all text belongs to it.  A
slash that begins no comment is an operator.
-/
import TeamScript.Reading

namespace TeamScript.Comment

set_option autoImplicit false

/-! ## Line comments -/

/-- The rest of a line, its line feed included. -/
def line (text : List Char) : List Char :=
  text.takeWhile (· != '\n') ++ (text.dropWhile (· != '\n')).take 1

def afterLine (text : List Char) : List Char :=
  (text.dropWhile (· != '\n')).drop 1

theorem line_append (text : List Char) : line text ++ afterLine text = text := by
  rw [line, afterLine, List.append_assoc, List.take_append_drop, List.takeWhile_append_dropWhile]

/-! ## Block comments -/

/-- How many characters there are up to the end of a block comment, `depth` comments being
open and `seen` characters having gone by; `none` if the text ends first. -/
def blockEnd (depth seen : Nat) : List Char → Option Nat
  | '/' :: '*' :: text => blockEnd (depth + 1) (seen + 2) text
  | '*' :: '/' :: text =>
      if depth ≤ 1 then some (seen + 2) else blockEnd (depth - 1) (seen + 2) text
  | _ :: text => blockEnd depth (seen + 1) text
  | [] => none

/-! ## Reading -/

/-- Reads what begins with the slash in front of a text; a comment is a gap.
The first character counts as the slash whatever it is. -/
def read (text : List Char) : Piece :=
  let slash := text.take 1
  match text.drop 1 with
  | '/' :: more => .gap (slash ++ '/' :: line more) (afterLine more)
  | '*' :: more =>
      match blockEnd 1 0 more with
      | some length => .gap (slash ++ '*' :: more.take length) (more.drop length)
      | none => .token (.faulty text [] .openComment (some .openComment))
  | more => .token (.plain slash more (.operator "/"))

theorem read_splits (text : List Char) : (read text).Splits text := by
  have front := List.take_append_drop 1 text
  unfold read
  dsimp only
  split
  · rename_i more behind
    rw [behind] at front
    simpa [Piece.Splits, Piece.span, Piece.rest, line_append] using front
  · rename_i more behind
    rw [behind] at front
    split
    · simpa [Piece.Splits, Piece.span, Piece.rest] using front
    · simp [Piece.Splits, Piece.span, Piece.rest, Reading.faulty]
  · exact front

theorem read_span_ne_nil (c : Char) (more : List Char) : (read (c :: more)).span ≠ [] := by
  unfold read
  dsimp only
  split
  · simp [Piece.span]
  · split <;> simp [Piece.span, Reading.faulty]
  · simp [Piece.span, Reading.plain]

end TeamScript.Comment
