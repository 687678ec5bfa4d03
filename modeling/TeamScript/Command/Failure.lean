/-
# TeamScript.Command.Failure -- why a run of the command line fails

A run fails if its source cannot be read, or if it is strict and there are error
tokens.  Each failure has its message and its exit status.  `ReadFault` is why a
file or the console could not be read; the message of a failure to read ends with
this cause (`message_of_cause?`).
-/

namespace TeamScript

set_option autoImplicit false

/-- Why there is no text to be had from a path or from the console. -/
inductive ReadFault where
  | missing
  | isFolder
  /-- The path leads through something that is no folder. -/
  | notFolder
  /-- The path, or a name in it, is longer than names can be. -/
  | nameTooLong
  /-- The bytes do not encode a text. -/
  | notText
  deriving DecidableEq, Repr

def ReadFault.message : ReadFault → String
  | missing => "No such file or directory (os error 2)"
  | isFolder => "Is a directory (os error 21)"
  | notFolder => "Not a directory (os error 20)"
  | nameTooLong => "File name too long (os error 36)"
  | notText => "stream did not contain valid UTF-8"

inductive Failure where
  | file (path cause : String)
  | console (cause : String)
  | errorTokens (count : Nat)
  deriving DecidableEq, Repr

namespace Failure

def message : Failure → String
  | file path cause => "Error reading source file '" ++ path ++ "': " ++ cause
  | console cause => "Error reading source from the console: " ++ cause
  | errorTokens count => "Lexing produced " ++ toString count ++ " error token(s)"

def exitStatus : Failure → Nat
  | file _ _ => 66
  | console _ => 74
  | errorTokens _ => 65

/-- The cause in the words of whoever could not read. -/
def cause? : Failure → Option String
  | file _ cause | console cause => some cause
  | errorTokens _ => none

theorem message_of_cause? {f : Failure} {cause : String} (known : f.cause? = some cause) :
    ∃ front, f.message = front ++ cause := by
  cases f with
  | file path cause =>
      cases known
      exact ⟨"Error reading source file '" ++ path ++ "': ", rfl⟩
  | console cause =>
      cases known
      exact ⟨"Error reading source from the console: ", rfl⟩
  | errorTokens count => cases known

theorem exitStatus_of_cause? {f : Failure} {cause : String} (known : f.cause? = some cause) :
    f.exitStatus = 66 ∨ f.exitStatus = 74 := by
  cases f with
  | file path cause => exact .inl rfl
  | console cause => exact .inr rfl
  | errorTokens count => cases known

end Failure

end TeamScript
