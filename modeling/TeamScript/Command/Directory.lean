/-
# TeamScript.Command.Directory -- files by their paths

A directory holds folders and files, and a path leads through it name by name:
an empty name and `.` stay where they are, `..` goes up, and any other name goes
down.  Each name, also an empty one behind a final slash, asks for a folder to
start from.  A name has at most 255 bytes, and a whole path at most 4095.

Of the world above the directory nothing is known but that there are folders.
-/
import TeamScript.Command.Console

namespace TeamScript

set_option autoImplicit false

/-- Files and folders by the names that lead to them.  A folder that holds
anything need not be listed. -/
structure Directory where
  folders : List (List String)
  files : List (List String × Bytes)

namespace Directory

inductive Entry where
  | folder
  | file (content : Bytes)
  deriving DecidableEq, Repr

/-- Whether the names lead to a listed folder, or to one on the way to something listed. -/
def hasFolder (d : Directory) (names : List String) : Bool :=
  names.isEmpty || (d.folders ++ d.files.map fun file => file.1.dropLast).any names.isPrefixOf

def entry? (d : Directory) (names : List String) : Option Entry :=
  match d.files.lookup names with
  | some content => some (.file content)
  | none => if d.hasFolder names then some .folder else none

/-- Where a path has led so far. -/
inductive Standing where
  /-- At what these names lead to. -/
  | inside (names : List String) (entry : Entry)
  | outside

def root : Standing := .inside [] .folder

def longestName : Nat := 255

def longestPath : Nat := 4095

/-- One name further. -/
def move (d : Directory) (name : String) : Standing → Except ReadFault Standing
  | .inside _ (.file _) => .error .notFolder
  | .inside names .folder =>
      if name = "" ∨ name = "." then .ok (.inside names .folder)
      else if longestName < name.utf8ByteSize then .error .nameTooLong
      else if name = ".." then
        .ok (if names.isEmpty then .outside else .inside names.dropLast .folder)
      else
        match d.entry? (names ++ [name]) with
        | some entry => .ok (.inside (names ++ [name]) entry)
        | none => .error .missing
  | .outside =>
      if name ∈ ["", ".", ".."] then .ok .outside
      else .error (if longestName < name.utf8ByteSize then .nameTooLong else .missing)

def walk (d : Directory) : Standing → List String → Except ReadFault Standing
  | here, [] => .ok here
  | here, name :: names => (d.move name here).bind fun there => d.walk there names

/-- Where a path leads. -/
def resolve (d : Directory) (path : String) : Except ReadFault Standing :=
  if longestPath < path.utf8ByteSize then .error .nameTooLong
  else d.walk (if path.startsWith "/" then .outside else root) (path.splitOn "/")

/-- The text of the file that a path leads to. -/
def read (d : Directory) (path : String) : Except ReadFault (List Char) :=
  match d.resolve path with
  | .error fault => .error fault
  | .ok (.inside _ (.file content)) =>
      match content.text? with
      | some text => .ok text
      | none => .error .notText
  | .ok _ => .error .isFolder

end Directory

end TeamScript
