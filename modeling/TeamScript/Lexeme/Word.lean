/-
# TeamScript.Lexeme.Word -- keywords, and words that are none

A word is the longest run of letters in front.  The language has no words but
its keywords: names carry a team code, so any other word is a fault.
-/
import TeamScript.Alphabet
import TeamScript.Reading

namespace TeamScript.Word

set_option autoImplicit false

/-- Reads the word at the front of a text.  A text that begins with no letter
begins with the empty word, which is no keyword. -/
def read (text : List Char) : Reading :=
  let letters := text.takeWhile isLetter
  let rest := text.dropWhile isLetter
  let word := String.ofList letters
  match Keyword.ofWord? word with
  | some keyword => .plain letters rest (.keyword keyword)
  | none => .faulty letters rest (.unknownWord word) (some (.unknownWord word))

theorem read_span (text : List Char) : (read text).span = text.takeWhile isLetter := by
  unfold read; dsimp only; split <;> rfl

theorem read_rest (text : List Char) : (read text).rest = text.dropWhile isLetter := by
  unfold read; dsimp only; split <;> rfl

theorem read_splits (text : List Char) : (read text).Splits text := by
  simp [Reading.Splits, read_span, read_rest, List.takeWhile_append_dropWhile]

theorem read_span_ne_nil {c : Char} (letter : isLetter c) (more : List Char) :
    (read (c :: more)).span ≠ [] := by
  simp [read_span, letter]

end TeamScript.Word
