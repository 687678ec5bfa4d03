/-
# TeamScript.Lexer.Session -- a lexer driven call by call

A session holds a lexer and a saved copy of one.  Saving keeps the lexer as it
is, the exhaustion of its iterator included; loading puts the saved one in its
place.  Until the first save the saved lexer is the one the session began with.
-/
import TeamScript.Lexer

namespace TeamScript

set_option autoImplicit false

structure Session where
  current : Lexer
  saved : Lexer

namespace Session

def ofText (policy : Policy) (text : List Char) : Session :=
  ⟨.ofText policy text, .ofText policy text⟩

inductive Call where
  | nextToken
  | next
  | collect
  | location
  | save
  | load
  deriving DecidableEq, Repr

inductive Reply where
  | token (token : Token)
  | item (token? : Option Token)
  | items (tokens : List Token)
  | location (location : Location)
  | done
  deriving DecidableEq, Repr

def perform (s : Session) : Call → Reply × Session
  | .nextToken =>
      let (token, next) := s.current.nextToken
      (.token token, { s with current := next })
  | .next =>
      let (token?, next) := s.current.next?
      (.item token?, { s with current := next })
  | .collect =>
      let (tokens, next) := s.current.collect
      (.items tokens, { s with current := next })
  | .location => (.location s.current.location, s)
  | .save => (.done, { s with saved := s.current })
  | .load => (.done, { s with current := s.saved })

/-- The replies to a row of calls, each with the session behind it. -/
def run (s : Session) : List Call → List (Reply × Session)
  | [] => []
  | call :: calls =>
      let answered := s.perform call
      answered :: answered.2.run calls

end Session

end TeamScript
