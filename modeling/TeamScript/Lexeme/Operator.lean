/-
# TeamScript.Lexeme.Operator -- operators of one and two characters

`==`, `>=`, `!=`, `<=` and `<>` are read as one operator, and any other
character in front is an operator of its own.  The exception is `!`, which means
nothing without `=` behind it.
-/
import TeamScript.Alphabet
import TeamScript.Reading

namespace TeamScript.Operator

set_option autoImplicit false

/-- The pairs of characters that make one operator. -/
def isPair (first second : Char) : Bool :=
  if second == '=' then first == '=' || first == '>' || first == '!' || first == '<'
  else first == '<' && second == '>'

/-- One character in front, no pair. -/
def readSingle (c : Char) (rest : List Char) : Reading :=
  if c = '!' then .faulty [c] rest .loneBang (some .loneBang)
  else .plain [c] rest (.operator (String.singleton c))

/-- Reads the operator at the front of a text.  An empty text stands for the
sentinel, and nothing is consumed. -/
def read : List Char → Reading
  | [] => .plain [] [] (.operator (String.singleton sentinel))
  | [c] => readSingle c []
  | c :: d :: rest =>
      if isPair c d then .plain [c, d] rest (.operator (String.ofList [c, d]))
      else readSingle c (d :: rest)

theorem readSingle_span (c : Char) (rest : List Char) : (readSingle c rest).span = [c] := by
  unfold readSingle; split <;> rfl

theorem readSingle_rest (c : Char) (rest : List Char) : (readSingle c rest).rest = rest := by
  unfold readSingle; split <;> rfl

theorem read_splits (text : List Char) : (read text).Splits text := by
  match text with
  | [] => rfl
  | [c] => simp [read, Reading.Splits, readSingle_span, readSingle_rest]
  | c :: d :: rest =>
      simp only [read]
      split
      · rfl
      · simp [Reading.Splits, readSingle_span, readSingle_rest]

theorem read_span_ne_nil (c : Char) (more : List Char) : (read (c :: more)).span ≠ [] := by
  match more with
  | [] => simp [read, readSingle_span]
  | d :: rest =>
      simp only [read]
      split
      · simp [Reading.plain]
      · simp [readSingle_span]

end TeamScript.Operator
