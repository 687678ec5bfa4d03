/-
# TeamScript.Keyword -- the five reserved words

Keywords are told apart by exact spelling; case matters.  `ofWord?` inverts
`word` (`ofWord?_word`, `word_of_ofWord?`).
-/

namespace TeamScript

set_option autoImplicit false

inductive Keyword where
  | ifWord
  | elseWord
  | whileWord
  | returnWord
  | funcWord
  deriving DecidableEq, Repr

namespace Keyword

def all : List Keyword := [ifWord, elseWord, whileWord, returnWord, funcWord]

def word : Keyword → String
  | ifWord => "if"
  | elseWord => "else"
  | whileWord => "while"
  | returnWord => "return"
  | funcWord => "func"

def ofWord? (text : String) : Option Keyword :=
  all.find? fun k => k.word == text

theorem mem_all (k : Keyword) : k ∈ all := by
  cases k <;> decide

theorem ofWord?_word (k : Keyword) : ofWord? k.word = some k := by
  cases k <;> decide

theorem word_of_ofWord? {text : String} {k : Keyword} (found : ofWord? text = some k) :
    k.word = text := by
  simpa using List.find?_some found

end Keyword

end TeamScript
