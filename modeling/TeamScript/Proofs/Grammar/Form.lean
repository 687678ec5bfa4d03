/-
# TeamScript.Proofs.Grammar.Form -- what it takes to specify a reader

A reader is specified by its forms: which text it consumes with which outcome,
depending on the one character behind that text (`Form`).  The reader keeps to
the forms if whatever it answers is one of them (`Follows`), and it knows them
all if it answers with each of them wherever that form stands in front of the
rest of a text (`Reading.Yields`).
-/
import TeamScript.Reading
import TeamScript.Proofs.Lookahead

namespace TeamScript

set_option autoImplicit false

/-- Consumed text, what it is, and the character behind it. -/
abbrev Form := List Char → Except Fault Lexeme → Option Char → Prop

namespace Reading

/-- The reading is one of the forms. -/
def Follows (r : Reading) (form : Form) : Prop :=
  form r.span r.outcome r.rest.head?

/-- The reading consumed `span`, which is `outcome`, and left `rest`. -/
structure Yields (r : Reading) (span : List Char) (outcome : Except Fault Lexeme)
    (rest : List Char) : Prop where
  span_eq : r.span = span
  outcome_eq : r.outcome = outcome
  rest_eq : r.rest = rest

theorem yields_plain (span rest : List Char) (lexeme : Lexeme) :
    (plain span rest lexeme).Yields span (.ok lexeme) rest :=
  ⟨rfl, rfl, rfl⟩

theorem yields_faulty (span rest : List Char) (fault : Fault) (notice? : Option Notice) :
    (faulty span rest fault notice?).Yields span (.error fault) rest :=
  ⟨rfl, rfl, rfl⟩

theorem Yields.noting {r : Reading} {span rest : List Char} {outcome : Except Fault Lexeme}
    (yields : r.Yields span outcome rest) (notice : Notice) :
    (r.noting notice).Yields span outcome rest :=
  ⟨yields.span_eq, yields.outcome_eq, yields.rest_eq⟩

end Reading

end TeamScript
