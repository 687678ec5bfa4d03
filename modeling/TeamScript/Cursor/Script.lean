/-
# TeamScript.Cursor.Script -- a cursor driven step by step

A desk holds a cursor and the places that were remembered under a name.  The
places outlive the buffer: after another text is loaded they can still be taken
up.
-/
import TeamScript.Cursor.Scan

namespace TeamScript

set_option autoImplicit false

structure Desk where
  cursor : Cursor
  places : List (String × Place)

namespace Desk

def ofText (text : List Char) : Desk := ⟨.ofText text, []⟩

inductive Action where
  | atEnd
  | peek
  | peekAt (k : Nat)
  | advance
  | eat (expected : Char)
  | eatAny (expected : List Char)
  | eatWhile (p : Char → Bool)
  | skipBlanks
  | location
  | remember (slot : String)
  | isAt (slot : String)
  | restore (slot : String)
  | textSince (slot : String)
  | load (text : List Char)
  | scan (reader : Reader) (start? : Option Location)

inductive Reply where
  | flag (value : Bool)
  | character (value : Char)
  | count (value : Nat)
  | location (value : Location)
  | text (value : List Char)
  | scanned (value : Scanned)
  | done
  deriving DecidableEq, Repr

/-- The place last remembered under a name. -/
def place? (d : Desk) (slot : String) : Option Place :=
  d.places.lookup slot

/-- One step; there is none if it names a place that was never remembered. -/
def perform? (d : Desk) : Action → Option (Reply × Desk)
  | .atEnd => some (.flag d.cursor.atEnd, d)
  | .peek => some (.character d.cursor.peek, d)
  | .peekAt k => some (.character (d.cursor.peekAt k), d)
  | .advance => some (moved .character d.cursor.advance)
  | .eat expected => some (moved .flag (d.cursor.eat expected))
  | .eatAny expected => some (moved .flag (d.cursor.eatAny expected))
  | .eatWhile p => some (moved .count (d.cursor.eatWhile p))
  | .skipBlanks => some (.done, { d with cursor := d.cursor.skipBlanks })
  | .location => some (.location d.cursor.location, d)
  | .remember slot => some (.done, { d with places := (slot, d.cursor.place) :: d.places })
  | .isAt slot => (d.place? slot).map fun p => (.flag (d.cursor.place == p), d)
  | .restore slot =>
      (d.place? slot).map fun p => (.done, { d with cursor := d.cursor.restore p })
  | .textSince slot => (d.place? slot).map fun p => (.text (d.cursor.textSince p), d)
  | .load text => some (.done, { d with cursor := .ofText text })
  | .scan reader start? =>
      some (moved .scanned (d.cursor.scan (start?.getD d.cursor.location) reader))
where
  moved {α : Type} (reply : α → Reply) (result : α × Cursor) : Reply × Desk :=
    (reply result.1, { d with cursor := result.2 })

/-- The replies to a row of actions, each with the desk behind it. -/
def run? (d : Desk) : List Action → Option (List (Reply × Desk))
  | [] => some []
  | action :: actions => do
      let answered ← d.perform? action
      let others ← answered.2.run? actions
      some (answered :: others)

end Desk

end TeamScript
