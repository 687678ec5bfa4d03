/-
# TeamScript.Alphabet -- the character classes of the language

Every class is a subset of ASCII.  A character outside all of them, NUL
included, is foreign: it is text inside strings and comments and a fault
everywhere else.

The nine punctuation characters belong to programs but not to the token
language.  `Policy` says what becomes of them: refused, each is an unknown
character; skipped, each separates tokens like a blank.
-/

namespace TeamScript

set_option autoImplicit false

/-! ## Classes -/

def isLetter (c : Char) : Bool :=
  ('a' ≤ c && c ≤ 'z') || ('A' ≤ c && c ≤ 'Z')

def isDigit (c : Char) : Bool :=
  '0' ≤ c && c ≤ '9'

/-- The character right after the team code of a name. -/
def isNameStart (c : Char) : Bool :=
  isLetter c || c == '_'

def isNamePart (c : Char) : Bool :=
  isLetter c || isDigit c || c == '_'

/-- Space, tab, carriage return and line feed; no other control character and
no space beyond ASCII. -/
def isBlank (c : Char) : Bool :=
  c == ' ' || c == '\t' || c == '\r' || c == '\n'

/-- Characters that begin an operator. -/
def isOperatorStart (c : Char) : Bool :=
  c == '+' || c == '-' || c == '=' || c == '*' || c == '<' || c == '>' || c == '!'

/-! ## Punctuation -/

def punctuation : List Char :=
  ['(', ')', '\x7b', '\x7d', '[', ']', ',', ';', ':']

def isPunctuation (c : Char) : Bool :=
  punctuation.contains c

/-- What becomes of a punctuation character between tokens. -/
inductive Policy where
  /-- It is reported as an unknown character. -/
  | refuse
  /-- It separates tokens and leaves no trace. -/
  | skip
  deriving DecidableEq, Repr

namespace Policy

def skips : Policy → Char → Bool
  | refuse, _ => false
  | skip, c => isPunctuation c

instance : Inhabited Policy := ⟨refuse⟩

end Policy

/-- What a reader past the end of a text sees in place of a character.  It is
itself a character of some texts, so it never decides whether a text has
ended. -/
def sentinel : Char := '\x00'

end TeamScript
