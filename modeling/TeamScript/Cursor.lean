/-
# TeamScript.Cursor -- a place in a text, and moving it

A cursor stands at an offset of its buffer and knows the location there.  Moving
forward keeps the two in step.  Looking past the end yields the sentinel, but
only the offset tells whether the text has ended, so a sentinel character inside
the text is a character like any other.

A `Place` is remembered and taken up again as it is.  Nothing checks that it was
remembered over the same buffer, so it may lie beyond the end of this one, where
there is nothing left to consume.
-/
import TeamScript.Alphabet
import TeamScript.Location

namespace TeamScript

set_option autoImplicit false

structure Place where
  offset : Nat
  location : Location
  deriving DecidableEq, Repr

structure Cursor where
  buffer : List Char
  place : Place

namespace Cursor

def ofText (text : List Char) : Cursor := ⟨text, 0, .start⟩

def offset (c : Cursor) : Nat := c.place.offset

def location (c : Cursor) : Location := c.place.location

/-- The text not consumed yet. -/
def rest (c : Cursor) : List Char := c.buffer.drop c.offset

/-- The cursor behind `span`, which is the text in front of it. -/
def pass (c : Cursor) (span : List Char) : Cursor :=
  { c with place := ⟨c.offset + span.length, c.location.after span⟩ }

/-! ## Looking -/

def atEnd (c : Cursor) : Bool := c.buffer.length ≤ c.offset

def peekAt (c : Cursor) (k : Nat) : Char := c.buffer[c.offset + k]?.getD sentinel

def peek (c : Cursor) : Char := c.peekAt 0

/-- The text from a place up to the cursor; empty if the place lies ahead or the
cursor beyond the buffer. -/
def textSince (c : Cursor) (p : Place) : List Char :=
  if c.offset ≤ c.buffer.length then (c.buffer.take c.offset).drop p.offset else []

/-! ## Moving -/

/-- Consumes one character; at the end there is none to consume. -/
def advance (c : Cursor) : Char × Cursor :=
  match c.rest with
  | [] => (sentinel, c)
  | d :: _ => (d, c.pass [d])

/-- Consumes one character if it satisfies `p`, and tells whether it did. -/
def eatIf (c : Cursor) (p : Char → Bool) : Bool × Cursor :=
  match c.rest with
  | [] => (false, c)
  | d :: _ => if p d then (true, c.pass [d]) else (false, c)

def eat (c : Cursor) (expected : Char) : Bool × Cursor :=
  c.eatIf (· == expected)

def eatAny (c : Cursor) (expected : List Char) : Bool × Cursor :=
  c.eatIf expected.contains

/-- Consumes characters as long as they satisfy `p`, and counts them. -/
def eatWhile (c : Cursor) (p : Char → Bool) : Nat × Cursor :=
  let span := c.rest.takeWhile p
  (span.length, c.pass span)

def skipBlanks (c : Cursor) : Cursor := (c.eatWhile isBlank).2

def restore (c : Cursor) (p : Place) : Cursor := { c with place := p }

/-! ## The remaining text -/

theorem atEnd_iff (c : Cursor) : c.atEnd ↔ c.rest = [] := by
  simp [atEnd, rest]

@[simp] theorem pass_offset (c : Cursor) (span : List Char) :
    (c.pass span).offset = c.offset + span.length := rfl

@[simp] theorem pass_location (c : Cursor) (span : List Char) :
    (c.pass span).location = c.location.after span := rfl

theorem rest_pass {c : Cursor} {span more : List Char} (ahead : c.rest = span ++ more) :
    (c.pass span).rest = more := by
  have shifted : (c.pass span).rest = c.rest.drop span.length := by
    simp [rest, pass, offset]
  rw [shifted, ahead, List.drop_left]

end Cursor

end TeamScript
