/-
# TeamScript.Main -- the command line

Reads the source that the words ask for and prints the report on it.
-/
import TeamScript.Command.Report

namespace TeamScript.Main

set_option autoImplicit false

/-- Why a read failed.  A folder can be opened and then not read, so the fault does not
name it; a path that leads through a file cannot be opened.  The only invalid argument
of opening a file is a name that is too long. -/
def causeOf (fault : IO.Error) : String :=
  match fault with
  | .noFileOrDirectory _ _ _ => ReadFault.missing.message
  | .inappropriateType none _ _ => ReadFault.isFolder.message
  | .inappropriateType (some _) _ _ => ReadFault.notFolder.message
  | .invalidArgument (some _) _ _ => ReadFault.nameTooLong.message
  | other => toString other

def textOf (bytes : ByteArray) : Except ReadFault (List Char) :=
  match Bytes.text? bytes.toList with
  | some text => .ok text
  | none => .error .notText

def readFile (path : String) : IO (Except Failure (List Char)) := do
  try
    return (textOf (← IO.FS.readBinFile path)).mapError fun fault => .file path fault.message
  catch fault =>
    return .error (.file path (causeOf fault))

/-- The bytes of a stream up to its end, or up to the line that ends the console's input. -/
partial def readConsole (input : IO.FS.Stream) (received line : ByteArray) : IO ByteArray := do
  match (← input.read 1).toList with
  | [] => return received
  | byte :: _ =>
      let received := received.push byte
      if byte != Console.lineFeed then readConsole input received (line.push byte)
      else if Bytes.text? (Console.stripReturn line.toList) == some Console.closing then
        return received
      else readConsole input received .empty

def finish (report : Report) : IO UInt32 := do
  (← IO.getStdout).putStr report.output
  (← IO.getStderr).putStr report.errors
  return report.exitStatus.toUInt32

end TeamScript.Main

open TeamScript TeamScript.Main

def main (words : List String) : IO UInt32 := do
  match Plan.ofWords words (← IO.getEnv Invocation.variableName) with
  | .show report => finish report
  | .read (.file path) policy strict =>
      finish (.ofSource policy strict (← readFile path))
  | .read .console policy strict => do
      (← IO.getStderr).putStr Console.prompt
      (← IO.getStderr).flush
      let bytes ← readConsole (← IO.getStdin) .empty .empty
      finish (.ofSource policy strict
        ((Console.read bytes.toList).mapError fun fault => .console fault.message))
