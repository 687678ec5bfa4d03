/-
# TeamScript.Fault -- what can be wrong with a piece of text

Reading never fails as a whole: a fault becomes an error token whose lexeme is
the fault's message, and reading goes on behind the faulty text.  A fault that
has no fixed wording carries the text it is about.
-/
import TeamScript.Token

namespace TeamScript

set_option autoImplicit false

inductive Fault where
  /-- A character that begins no token. -/
  | unknownCharacter (c : Char)
  /-- Letters that spell no keyword. -/
  | unknownWord (word : String)
  /-- Digits followed by two dots. -/
  | doubleDot (text : String)
  /-- Digits and a dot with no digit behind it. -/
  | emptyFraction (text : String)
  /-- An exponent without digits, or without digits before it. -/
  | badExponent (text : String)
  /-- `!` without `=` behind it. -/
  | loneBang
  /-- A dot with neither digits nor an exponent behind it. -/
  | loneDot
  /-- A backslash and an `n` inside a string. -/
  | forbiddenEscape
  /-- A string that its line or the text cuts short. -/
  | openString
  /-- A block comment still open at the end of the text. -/
  | openComment
  deriving DecidableEq, Repr

namespace Fault

def message : Fault → String
  | unknownCharacter c => String.singleton c
  | unknownWord word => "unknown word: " ++ word
  | doubleDot text => "malformed number: " ++ text
  | emptyFraction text => "malformed float: " ++ text
  | badExponent text => "bad exponent: " ++ text
  | loneBang => "!"
  | loneDot => "."
  | forbiddenEscape => "string contains forbidden \\n"
  | openString => "unterminated string"
  | openComment => "unterminated comment"

/-- The error token that reports the fault at `location`. -/
def token (f : Fault) (location : Location) : Token := ⟨.error, f.message, location⟩

end Fault

end TeamScript
