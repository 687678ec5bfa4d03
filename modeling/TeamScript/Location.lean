/-
# TeamScript.Location -- lines and columns

A location counts lines and columns from one, in characters.  A line feed is
the last character of its line, so the location after it is column one of the
next line; every other character, carriage returns included, is one column.

`Location.after` is the location behind a text, and it composes over
concatenation (`after_append`).  `Location.shift` moves a location that was
measured from `start` so that it is measured from another one.
-/

namespace TeamScript

set_option autoImplicit false

structure Location where
  line : Nat
  column : Nat
  deriving DecidableEq, Repr

namespace Location

/-- Where every text starts. -/
def start : Location := ⟨1, 1⟩

instance : Inhabited Location := ⟨start⟩

/-- The written form, as in `3:14`. -/
def render (l : Location) : String :=
  toString l.line ++ ":" ++ toString l.column

/-! ## Order: by line, then by column -/

def lt (a b : Location) : Prop :=
  a.line < b.line ∨ a.line = b.line ∧ a.column < b.column

instance : LT Location := ⟨lt⟩

instance : LE Location := ⟨fun a b => a < b ∨ a = b⟩

instance (a b : Location) : Decidable (a < b) :=
  inferInstanceAs (Decidable (a.line < b.line ∨ a.line = b.line ∧ a.column < b.column))

instance (a b : Location) : Decidable (a ≤ b) :=
  inferInstanceAs (Decidable (a < b ∨ a = b))

instance : Ord Location := ⟨fun a b => compareOfLessAndEq a b⟩

/-- How each location compares with the one behind it in the list. -/
def comparisons (ls : List Location) : List Ordering :=
  List.zipWith compare ls (ls.drop 1)

/-- The locations in ascending order; equal ones all stay. -/
def sorted (ls : List Location) : List Location :=
  ls.mergeSort (fun a b => decide (a ≤ b))

/-- The greatest of the locations, if there are any. -/
def greatest? : List Location → Option Location
  | [] => none
  | l :: ls => some (ls.foldl (fun best next => if best < next then next else best) l)

/-! ## Moving over text -/

def next (l : Location) (c : Char) : Location :=
  if c = '\n' then ⟨l.line + 1, 1⟩ else ⟨l.line, l.column + 1⟩

def after (l : Location) (text : List Char) : Location :=
  text.foldl next l

@[simp] theorem after_nil (l : Location) : l.after [] = l := rfl

@[simp] theorem after_cons (l : Location) (c : Char) (text : List Char) :
    l.after (c :: text) = (l.next c).after text := rfl

theorem after_append (l : Location) (a b : List Char) :
    l.after (a ++ b) = (l.after a).after b :=
  List.foldl_append

/-- A location measured from `start`, seen from a text that begins at `origin`:
its first line continues the origin's line. -/
def shift (origin l : Location) : Location :=
  if l.line = 1 then ⟨origin.line, origin.column + l.column - 1⟩
  else ⟨origin.line + l.line - 1, l.column⟩

end Location

end TeamScript
