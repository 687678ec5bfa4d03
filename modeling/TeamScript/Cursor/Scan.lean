/-
# TeamScript.Cursor.Scan -- each reader on its own at a cursor

A reader can be asked at any place, also where the dispatch over the first
character would never ask it.  The location of the token is given, and need not
be the cursor's.  An attempt at a name that fails leaves the cursor as it is
(`scan_name_of_none`).
-/
import TeamScript.Cursor
import TeamScript.Piece

namespace TeamScript

set_option autoImplicit false

inductive Reader where
  | numeral
  | operator
  | string
  | word
  | slash
  | name
  deriving DecidableEq, Repr

inductive Scanned where
  | token (token : Token)
  /-- The reader consumed a comment. -/
  | comment
  /-- The reader found nothing and consumed nothing. -/
  | nothing
  deriving DecidableEq, Repr

namespace Cursor

/-- The token of a reading at the cursor, and the cursor behind it. -/
def take (c : Cursor) (start : Location) (r : Reading) : Scanned × Cursor :=
  (.token (r.token start), c.pass r.span)

def scan (c : Cursor) (start : Location) : Reader → Scanned × Cursor
  | .numeral => c.take start (Numeral.read c.rest)
  | .operator => c.take start (Operator.read c.rest)
  | .string => c.take start (StringLiteral.read c.rest)
  | .word => c.take start (Word.read c.rest)
  | .slash =>
      match Comment.read c.rest with
      | .gap span _ => (.comment, c.pass span)
      | .token reading => c.take start reading
  | .name =>
      match Name.read? c.rest with
      | some reading => c.take start reading
      | none => (.nothing, c)

theorem scan_name_of_none {c : Cursor} (start : Location) (missing : Name.read? c.rest = none) :
    c.scan start .name = (.nothing, c) := by
  simp [scan, missing]

theorem scan_slash_of_gap {c : Cursor} {text span rest : List Char} (ahead : c.rest = text)
    (found : Comment.read text = .gap span rest) (start : Location) :
    c.scan start .slash = (.comment, c.pass span) := by
  rw [scan, ahead, found]

theorem scan_slash_of_token {c : Cursor} {text : List Char} {r : Reading} (ahead : c.rest = text)
    (found : Comment.read text = .token r) (start : Location) :
    c.scan start .slash = c.take start r := by
  rw [scan, ahead, found]

end Cursor

end TeamScript
