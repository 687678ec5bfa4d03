/-
# TeamScript.Reading -- what reading at the front of a text yields

A reader looks at the front of a text and answers with a `Reading`: the part it
consumed, the rest, what that part is, and what the log shall say about it.
Readers know nothing of locations; whoever drives them adds the location of the
consumed part.

A text is a row of pieces.  A `Piece` is either a gap, which separates tokens and
leaves no trace, or a token's reading.
-/
import TeamScript.Fault

namespace TeamScript

set_option autoImplicit false

/-! ## Lexemes -/

/-- A correct piece of text, with the text by which it is known.  For a string
that is its content, without the dollar signs around it. -/
inductive Lexeme where
  | name (text : String)
  | keyword (word : Keyword)
  | integer (text : String)
  | number (text : String)
  | string (content : String)
  | operator (text : String)
  deriving DecidableEq, Repr

namespace Lexeme

def kind : Lexeme → Kind
  | name _ => .name
  | keyword _ => .keyword
  | integer _ => .integer
  | number _ => .number
  | string _ => .string
  | operator _ => .operator

def text : Lexeme → String
  | keyword word => word.word
  | name text | integer text | number text | string text | operator text => text

end Lexeme

/-! ## Readings -/

/-- What the log says, beyond the token itself, about a piece of text. -/
inductive Notice where
  | unknownCharacter (c : Char)
  | unknownWord (word : String)
  | doubleDot (text : String)
  /-- An exponent follows a dot that has no digit behind it. -/
  | exponentAfterDot (text : String)
  | exponentWithoutDigits (text : String)
  | loneBang
  | loneDot
  | forbiddenEscape
  /-- A line feed cuts a string short. -/
  | brokenString
  | openComment
  /-- A team code that begins no name is about to be read as digits. -/
  | bareTeamCode (code : String)
  deriving DecidableEq, Repr

structure Reading where
  span : List Char
  rest : List Char
  outcome : Except Fault Lexeme
  notices : List Notice

namespace Reading

/-- A correct piece of text, about which the log has nothing to say. -/
def plain (span rest : List Char) (lexeme : Lexeme) : Reading :=
  ⟨span, rest, .ok lexeme, []⟩

/-- A fault, with at most one notice about it. -/
def faulty (span rest : List Char) (fault : Fault) (notice? : Option Notice) : Reading :=
  ⟨span, rest, .error fault, notice?.toList⟩

/-- The token of a reading whose text begins at `location`. -/
def token (r : Reading) (location : Location) : Token :=
  match r.outcome with
  | .ok lexeme => ⟨lexeme.kind, lexeme.text, location⟩
  | .error fault => fault.token location

/-- The reading with a notice put in front of its own. -/
def noting (r : Reading) (notice : Notice) : Reading :=
  { r with notices := notice :: r.notices }

/-- The reading accounts for the whole of `text`: what it consumed and what it
left make up the text. -/
def Splits (r : Reading) (text : List Char) : Prop :=
  r.span ++ r.rest = text

@[simp] theorem splits_noting (r : Reading) (notice : Notice) (text : List Char) :
    (r.noting notice).Splits text ↔ r.Splits text := Iff.rfl

@[simp] theorem noting_span (r : Reading) (notice : Notice) : (r.noting notice).span = r.span := rfl

@[simp] theorem noting_rest (r : Reading) (notice : Notice) : (r.noting notice).rest = r.rest := rfl

end Reading

/-! ## Pieces -/

inductive Piece where
  /-- Blanks, comments and skipped punctuation. -/
  | gap (span rest : List Char)
  | token (reading : Reading)

namespace Piece

def span : Piece → List Char
  | gap span _ => span
  | token reading => reading.span

def rest : Piece → List Char
  | gap _ rest => rest
  | token reading => reading.rest

/-- The piece accounts for the whole of `text`. -/
def Splits (p : Piece) (text : List Char) : Prop :=
  p.span ++ p.rest = text

end Piece

end TeamScript
