/-
# TeamScript.Log -- what tokenizing a text leaves in the log

A run of the tokenizer opens with the length of the text and closes with the
number of tokens and of error tokens.  In between, each token has a block: the
notices about it, at the location where it starts, and then the token itself.
Gaps leave no trace.

An event is written as a heading, a message and named fields.  It is of debug
or of trace severity; a log that asks for less severe events only is empty.
-/
import TeamScript.CharLiteral
import TeamScript.Lexer

namespace TeamScript

set_option autoImplicit false

/-! ## Severity -/

inductive Severity where
  | error
  | info
  | debug
  | trace
  deriving DecidableEq, Repr

namespace Severity

/-- The graver, the lower. -/
def rank : Severity → Nat
  | error => 0
  | info => 1
  | debug => 2
  | trace => 3

def label : Severity → String
  | error => "ERROR"
  | info => "INFO"
  | debug => "DEBUG"
  | trace => "TRACE"

/-- A log that shows events of severity `shown` also shows the graver ones. -/
def admits (shown severity : Severity) : Bool :=
  severity.rank ≤ shown.rank

end Severity

/-! ## Notices in writing -/

inductive FieldValue where
  | text (value : String)
  | count (value : Nat)
  deriving DecidableEq, Repr

namespace Notice

def message : Notice → String
  | unknownCharacter _ => "unknown character"
  | unknownWord _ => "unknown word"
  | doubleDot _ => "number with two dots"
  | exponentAfterDot _ => "exponent after a dot without fraction"
  | exponentWithoutDigits _ => "exponent without digits"
  | loneBang => "bang without '='"
  | loneDot => "bare dot"
  | forbiddenEscape => "string contains a forbidden escape"
  | brokenString => "string interrupted by a newline"
  | openComment => "block comment runs into end of input"
  | bareTeamCode _ => "team prefix without a body, rescanning as number"

/-- What the notice names besides its location. -/
def detail : Notice → List (String × FieldValue)
  | unknownCharacter c => [("c", .text (quoteChar c))]
  | unknownWord word => [("word", .text word)]
  | doubleDot text | exponentAfterDot text | exponentWithoutDigits text => [("span", .text text)]
  | bareTeamCode code => [("prefix", .text code)]
  | loneBang | loneDot | forbiddenEscape | brokenString | openComment => []

def severity : Notice → Severity
  | bareTeamCode _ => .trace
  | _ => .debug

end Notice

/-! ## Events -/

inductive Event where
  | opened (characters : Nat)
  | noticed (start : Location) (notice : Notice)
  | scanned (token : Token)
  | closed (tokens errors : Nat)
  deriving DecidableEq, Repr

namespace Event

def severity : Event → Severity
  | opened _ | closed _ _ => .debug
  | noticed _ notice => notice.severity
  | scanned _ => .trace

/-- The opening event spans the whole run; any other is headed by its severity. -/
def heading : Event → String
  | opened _ => "SPAN"
  | event => event.severity.label

def message : Event → String
  | opened _ => "tokenize_with"
  | noticed _ notice => notice.message
  | scanned _ => "scanned"
  | closed _ _ => "tokenized"

def fields : Event → List (String × FieldValue)
  | opened characters => [("chars", .count characters)]
  | noticed start notice => ("start", .text start.render) :: notice.detail
  | scanned token => [("token", .text token.render)]
  | closed tokens errors => [("tokens", .count tokens), ("errors", .count errors)]

end Event

/-! ## The log of a run -/

/-- The events of one token. -/
def Step.events (s : Step) : List Event :=
  s.notices.map (.noticed s.token.location) ++ [.scanned s.token]

/-- Every event of tokenizing `text`, in order. -/
def log (policy : Policy) (text : List Char) : List Event :=
  let steps := (Lexer.ofText policy text).steps
  .opened text.length ::
    (steps.flatMap Step.events ++ [.closed steps.length (errorCount (steps.map Step.token))])

/-- The part of the log that is shown at a severity. -/
def logAt (shown : Severity) (policy : Policy) (text : List Char) : List Event :=
  (log policy text).filter fun event => shown.admits event.severity

end TeamScript
