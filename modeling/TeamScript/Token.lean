/-
# TeamScript.Token -- tokens and their written form

A token is a kind, a lexeme and the location of its first character.  An error
token's lexeme is the message of the fault it reports, and the end token's
lexeme is fixed.  `Token.render` writes a token on one line as
`KIND('lexeme')@line:column`, the lexeme verbatim.
-/
import TeamScript.Keyword
import TeamScript.Location

namespace TeamScript

set_option autoImplicit false

inductive Kind where
  | name
  | keyword
  | integer
  | number
  | string
  | operator
  | error
  | ending
  deriving DecidableEq, Repr

namespace Kind

def label : Kind → String
  | name => "IDENTIFIER"
  | keyword => "KEYWORD"
  | integer => "INTEGER"
  | number => "NUMBER"
  | string => "STRING"
  | operator => "OPERATOR"
  | error => "ERROR"
  | ending => "EOF"

def all : List Kind := [name, keyword, integer, number, string, operator, error, ending]

def ofLabel? (text : String) : Option Kind :=
  all.find? fun k => k.label == text

end Kind

structure Token where
  kind : Kind
  lexeme : String
  location : Location
  deriving DecidableEq, Repr

namespace Token

def endLexeme : String := "<EOF>"

/-- The token that closes every stream. -/
def ending (location : Location) : Token := ⟨.ending, endLexeme, location⟩

def isError (t : Token) : Bool := t.kind == .error

def isEnding (t : Token) : Bool := t.kind == .ending

/-- The reserved word a keyword token stands for; no other token has one. -/
def keyword? (t : Token) : Option Keyword :=
  match t.kind with
  | .keyword => Keyword.ofWord? t.lexeme
  | _ => none

def render (t : Token) : String :=
  t.kind.label ++ "('" ++ t.lexeme ++ "')@" ++ t.location.render

end Token

/-- How many tokens report a fault. -/
def errorCount (tokens : List Token) : Nat :=
  tokens.countP Token.isError

end TeamScript
