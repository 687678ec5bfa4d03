/-
# TeamScript.Piece -- the piece at the front of a text

The first character decides which reader is asked.  Each piece accounts for the
whole text (`read_splits`) and consumes at least one character
(`read_span_ne_nil`), so a text falls into finitely many pieces
(`read_rest_length_lt`).
-/
import TeamScript.Lexeme.Comment
import TeamScript.Lexeme.Name
import TeamScript.Lexeme.Numeral
import TeamScript.Lexeme.Operator
import TeamScript.Lexeme.StringLiteral
import TeamScript.Lexeme.Word

namespace TeamScript.Piece

set_option autoImplicit false

/-- A digit in front begins a name if it can and a numeral otherwise.  A team code
that begins no name is noted before anything is said about the numeral. -/
def readNameOrNumeral (text : List Char) : Reading :=
  match Name.read? text with
  | some name => name
  | none =>
      match Name.bareCode? text with
      | some code => (Numeral.read text).noting (.bareTeamCode code)
      | none => Numeral.read text

/-- Reads the piece at the front of the text `c :: more`. -/
def read (policy : Policy) (c : Char) (more : List Char) : Piece :=
  if isBlank c then .gap [c] more
  else if c = '/' then Comment.read (c :: more)
  else if c = '$' then .token (StringLiteral.read (c :: more))
  else if isDigit c then .token (readNameOrNumeral (c :: more))
  else if isLetter c then .token (Word.read (c :: more))
  else if c = '.' then .token (Numeral.read (c :: more))
  else if isOperatorStart c then .token (Operator.read (c :: more))
  else if policy.skips c then .gap [c] more
  else .token (.faulty [c] more (.unknownCharacter c) (some (.unknownCharacter c)))

/-! ## Nothing is lost, and something is consumed -/

theorem readNameOrNumeral_splits (text : List Char) : (readNameOrNumeral text).Splits text := by
  unfold readNameOrNumeral
  split
  · rename_i found
    exact Name.read?_splits found
  · split
    · exact (Reading.splits_noting _ _ _).2 (Numeral.read_splits text)
    · exact Numeral.read_splits text

theorem readNameOrNumeral_span_ne_nil (c : Char) (more : List Char) :
    (readNameOrNumeral (c :: more)).span ≠ [] := by
  unfold readNameOrNumeral
  split
  · rename_i found
    exact Name.read?_span_ne_nil found
  · split <;> exact Numeral.read_span_ne_nil c more

theorem read_splits (policy : Policy) (c : Char) (more : List Char) :
    (read policy c more).Splits (c :: more) := by
  unfold read
  split
  · rfl
  split
  · exact Comment.read_splits _
  split
  · exact StringLiteral.read_splits _
  split
  · exact readNameOrNumeral_splits _
  split
  · exact Word.read_splits _
  split
  · exact Numeral.read_splits _
  split
  · exact Operator.read_splits _
  split <;> rfl

theorem read_span_ne_nil (policy : Policy) (c : Char) (more : List Char) :
    (read policy c more).span ≠ [] := by
  unfold read
  split
  · simp [span]
  split
  · exact Comment.read_span_ne_nil _ _
  split
  · exact StringLiteral.read_span_ne_nil _ _
  split
  · exact readNameOrNumeral_span_ne_nil _ _
  split
  · rename_i letter
    exact Word.read_span_ne_nil letter _
  split
  · exact Numeral.read_span_ne_nil _ _
  split
  · exact Operator.read_span_ne_nil _ _
  split <;> simp [span, Reading.faulty]

theorem read_rest_length_lt (policy : Policy) (c : Char) (more : List Char) :
    (read policy c more).rest.length < (c :: more).length := by
  have whole := congrArg List.length (read_splits policy c more)
  have consumed := List.length_pos_iff.2 (read_span_ne_nil policy c more)
  rw [List.length_append] at whole
  omega

end TeamScript.Piece
