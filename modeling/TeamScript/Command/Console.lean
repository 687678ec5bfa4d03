/-
# TeamScript.Command.Console -- a text typed line by line

A line of bytes ends with a line feed, and a carriage return right before that
line feed does not belong to it.  Bytes behind the last line feed are a line
too, and keep their carriage return.

A line that says `END` ends the input, and nothing behind it is looked at.
Every line before it is taken into the text with a line feed of its own, and
must encode a text.
-/
import TeamScript.Command.Failure

namespace TeamScript

set_option autoImplicit false

abbrev Bytes := List UInt8

/-- The text that bytes encode in UTF-8, if they encode one. -/
def Bytes.text? (bytes : Bytes) : Option (List Char) :=
  (String.fromUTF8? bytes.toByteArray).map String.toList

namespace Console

def lineFeed : UInt8 := 10

def carriageReturn : UInt8 := 13

/-- A line without the carriage return at its end. -/
def stripReturn (line : Bytes) : Bytes :=
  if line.getLast? = some carriageReturn then line.dropLast else line

/-- The lines of the bytes; none behind a final line feed. -/
def lines (bytes : Bytes) : List Bytes :=
  match bytes with
  | [] => []
  | first :: others =>
      let line := (first :: others).takeWhile (· != lineFeed)
      match _behind : (first :: others).dropWhile (· != lineFeed) with
      | [] => [line]
      | _ :: rest => stripReturn line :: lines rest
termination_by bytes.length
decreasing_by
  have shorter := (List.dropWhile_suffix (fun b => b != lineFeed) (l := first :: others)).length_le
  rw [_behind] at shorter
  exact shorter

/-- The line that ends the input. -/
def closing : List Char := "END".toList

/-- The text of the lines in front of the closing one. -/
def textOfLines : List Bytes → Except ReadFault (List Char)
  | [] => .ok []
  | line :: others =>
      match line.text? with
      | none => .error .notText
      | some text =>
          if text = closing then .ok []
          else (textOfLines others).map fun more => text ++ '\n' :: more

def read (bytes : Bytes) : Except ReadFault (List Char) :=
  textOfLines (lines bytes)

/-- What the console shows before it reads. -/
def prompt : String :=
  "Enter source code (type '" ++ String.ofList closing ++ "' on a separate line to finish):\n"

end Console

end TeamScript
