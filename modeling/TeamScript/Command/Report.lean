/-
# TeamScript.Command.Report -- what a run of the command line shows

A run that has its text prints a header and then every token on a line, always
in full.  A strict run then fails if there are error tokens.  A run that has no
text prints nothing but the reason.

`run` is the whole command line as a function of its words, its environment, the
directory it is started in and the bytes at its console.
-/
import TeamScript.Command.Arguments
import TeamScript.Command.Directory
import TeamScript.Lexer

namespace TeamScript

set_option autoImplicit false

structure Report where
  exitStatus : Nat
  output : String
  errors : String
  deriving DecidableEq, Repr

/-- Every token on a line of its own, below the header. -/
def listing (tokens : List Token) : String :=
  String.join ("=== TOKENS ===\n" :: tokens.map fun t => t.render ++ "\n")

namespace Report

def failed (output : String) (failure : Failure) : Report :=
  ⟨failure.exitStatus, output, failure.message ++ "\n"⟩

/-- The report on a text that was read. -/
def ofText (policy : Policy) (strict : Bool) (text : List Char) : Report :=
  let tokens := tokenize policy text
  let errors := errorCount tokens
  if strict && 0 < errors then failed (listing tokens) (.errorTokens errors)
  else ⟨0, listing tokens, ""⟩

/-- The report on a text, or on the failure to read one. -/
def ofSource (policy : Policy) (strict : Bool) : Except Failure (List Char) → Report
  | .ok text => ofText policy strict text
  | .error failure => failed "" failure

/-- The report with a text put in front of its errors. -/
def prompting (r : Report) (prompt : String) : Report :=
  { r with errors := prompt ++ r.errors }

def usage : String :=
  "Usage: teamlex [--skip-punctuation] [--strict] [SOURCE_FILE] [tokenize FILE | console | c]\n"

def help : Report := ⟨0, usage, ""⟩

def version : Report := ⟨0, "teamlex 0.1.0\n", ""⟩

/-- A command line that cannot be understood. -/
def refused (fault : UsageFault) : Report := ⟨2, "", fault.message ++ "\n" ++ usage⟩

end Report

/-! ## A run -/

/-- What the command line is to do once its words and its environment are understood. -/
inductive Plan where
  | show (report : Report)
  | read (input : Input) (policy : Policy) (strict : Bool)

def Plan.ofWords (words : List String) (value? : Option String) : Plan :=
  match Arguments.parse words with
  | .error fault => .show (.refused fault)
  | .ok .help => .show .help
  | .ok .version => .show .version
  | .ok (.run invocation) =>
      match invocation.policy value? with
      | .error fault => .show (.refused fault)
      | .ok policy => .read invocation.input policy invocation.strict

/-- The surroundings of a run. -/
structure Setting where
  words : List String
  /-- The value of the punctuation variable, if it is set. -/
  value? : Option String
  directory : Directory
  console : Bytes

def Setting.run (s : Setting) : Report :=
  match Plan.ofWords s.words s.value? with
  | .show report => report
  | .read (.file path) policy strict =>
      .ofSource policy strict
        ((s.directory.read path).mapError fun fault => .file path fault.message)
  | .read .console policy strict =>
      (Report.ofSource policy strict
        ((Console.read s.console).mapError fun fault => .console fault.message)).prompting
          Console.prompt

end TeamScript
