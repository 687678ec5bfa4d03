/-
# TeamScript.CharLiteral -- a single character in quotes

A visible character stands for itself between single quotes.  The quote and the
backslash are escaped by a backslash, NUL, tab, line feed and carriage return
have a letter or digit behind the backslash, and any other character that would
not show is written as a backslash, a `u` and its number in braces.
-/
import TeamScript.Unicode.Extending
import TeamScript.Unicode.Unprinted

namespace TeamScript

set_option autoImplicit false

/-- The character can be seen, and be told from the quote in front of it. -/
def isVisible (c : Char) : Bool :=
  !(isMerging c || isUnprinted c || isFiller c)

/-- The code point in lower-case hexadecimal, without leading zeros. -/
def hexadecimal (c : Char) : String :=
  String.ofList (Nat.toDigits 16 c.toNat)

def escapeChar (c : Char) : String :=
  if c = '\'' then "\\'"
  else if c = '\\' then "\\\\"
  else if c = '\x00' then "\\0"
  else if c = '\t' then "\\t"
  else if c = '\n' then "\\n"
  else if c = '\r' then "\\r"
  else if isVisible c then String.singleton c
  else "\\u\x7b" ++ hexadecimal c ++ "\x7d"

def quoteChar (c : Char) : String :=
  "'" ++ escapeChar c ++ "'"

end TeamScript
