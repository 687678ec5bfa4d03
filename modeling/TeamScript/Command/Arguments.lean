/-
# TeamScript.Command.Arguments -- what the command line asks for

    [--skip-punctuation] [--strict] [SOURCE_FILE] [tokenize FILE | console | c]

A command line has one level, or two if it names a subcommand.  Each level takes
each flag at most once.  A source file in front of a subcommand is taken and not
used.  Behind `--` every word is a file name.

Words are taken from left to right, and the first that settles the matter does
so: a fault, or a request for help or for the version.  Only after that the
environment is looked at.  A level without the punctuation flag reads the
variable, so a variable that is neither `true` nor `false` is a fault unless
every level has the flag; but a flag at any level outweighs the variable.
-/
import TeamScript.Alphabet

namespace TeamScript

set_option autoImplicit false

/-! ## What can be asked for -/

inductive Input where
  | file (path : String)
  | console
  deriving DecidableEq, Repr

inductive UsageFault where
  | unknownOption (word : String)
  | repeatedFlag (word : String)
  | surplusWord (word : String)
  | unknownSubcommand (word : String)
  | emptyPath
  | missingPath
  | badVariable (value : String)
  deriving DecidableEq, Repr

namespace UsageFault

def message : UsageFault → String
  | unknownOption word => "unexpected option '" ++ word ++ "'"
  | repeatedFlag word => "option '" ++ word ++ "' given twice"
  | surplusWord word => "unexpected argument '" ++ word ++ "'"
  | unknownSubcommand word => "no subcommand '" ++ word ++ "'"
  | emptyPath => "a file name must not be empty"
  | missingPath => "a file name is required"
  | badVariable value => "invalid value '" ++ value ++ "' for the punctuation variable"

end UsageFault

inductive Flag where
  | skipPunctuation
  | strict
  deriving DecidableEq, Repr

def Flag.word : Flag → String
  | skipPunctuation => "--skip-punctuation"
  | strict => "--strict"

/-- The flags of one level. -/
structure Flags where
  skipPunctuation : Bool
  strict : Bool
  deriving DecidableEq, Repr

namespace Flags

def empty : Flags := ⟨false, false⟩

def has (fs : Flags) : Flag → Bool
  | .skipPunctuation => fs.skipPunctuation
  | .strict => fs.strict

def set (fs : Flags) : Flag → Flags
  | .skipPunctuation => { fs with skipPunctuation := true }
  | .strict => { fs with strict := true }

def add (fs : Flags) (f : Flag) : Except UsageFault Flags :=
  if fs.has f then .error (.repeatedFlag f.word) else .ok (fs.set f)

end Flags

/-- A command line that asks for a run. -/
structure Invocation where
  input : Input
  /-- The flags of the top level, and of the subcommand if there is one. -/
  levels : List Flags
  deriving DecidableEq, Repr

inductive Request where
  | run (invocation : Invocation)
  | help
  | version
  deriving DecidableEq, Repr

/-! ## Words -/

inductive Argument.Role where
  | flag (f : Flag)
  | separator
  | help
  | version
  | option
  | plain
  deriving DecidableEq, Repr

/-- What a word means in front of `--`.  A lone dash is a plain word. -/
def Argument.role (word : String) : Argument.Role :=
  if word = "--" then .separator
  else if word = Flag.skipPunctuation.word then .flag .skipPunctuation
  else if word = Flag.strict.word then .flag .strict
  else if word = "--help" || word.startsWith "-h" then .help
  else if word = "--version" || word.startsWith "-V" then .version
  else if word.startsWith "-" && word != "-" then .option
  else .plain

inductive Subcommand where
  | tokenize
  | console
  | help
  deriving DecidableEq, Repr

def Subcommand.ofWord? : String → Option Subcommand
  | "tokenize" => some .tokenize
  | "console" | "c" => some .console
  | "help" => some .help
  | _ => none

namespace Arguments

/-- Takes a file name where at most one may stand. -/
def addPath (path? : Option String) (word : String) : Except UsageFault (Option String) :=
  if word.isEmpty then .error .emptyPath
  else if path?.isSome then .error (.surplusWord word)
  else .ok (some word)

/-! ## Levels -/

/-- The level of `tokenize`, which needs a file name. -/
def tokenizeLevel (top here : Flags) (path? : Option String) :
    List String → Except UsageFault Request
  | [] =>
      match path? with
      | some path => .ok (.run ⟨.file path, [top, here]⟩)
      | none => .error .missingPath
  | word :: words =>
      match Argument.role word with
      | .flag f => do tokenizeLevel top (← here.add f) path? words
      | .separator => do
          match ← words.foldlM addPath path? with
          | some path => .ok (.run ⟨.file path, [top, here]⟩)
          | none => .error .missingPath
      | .help => .ok .help
      | .version | .option => .error (.unknownOption word)
      | .plain => do tokenizeLevel top here (← addPath path? word) words

/-- The level of `console`, which takes flags only. -/
def consoleLevel (top here : Flags) : List String → Except UsageFault Request
  | [] => .ok (.run ⟨.console, [top, here]⟩)
  | word :: words =>
      match Argument.role word with
      | .flag f => do consoleLevel top (← here.add f) words
      | .separator =>
          match words with
          | [] => .ok (.run ⟨.console, [top, here]⟩)
          | surplus :: _ => .error (.surplusWord surplus)
      | .help => .ok .help
      | .version | .option => .error (.unknownOption word)
      | .plain => .error (.surplusWord word)

/-- The level of `help`, which takes at most the name of a subcommand. -/
def helpLevel : List String → Except UsageFault Request
  | [] => .ok .help
  | word :: words =>
      match Subcommand.ofWord? word, words with
      | some _, [] => .ok .help
      | some _, surplus :: _ => .error (.unknownSubcommand surplus)
      | none, _ => .error (.unknownSubcommand word)

/-- The request of a command line without a subcommand. -/
def withoutSubcommand (top : Flags) : Option String → Request
  | some path => .run ⟨.file path, [top]⟩
  | none => .run ⟨.console, [top]⟩

/-- The top level. -/
def topLevel (top : Flags) (path? : Option String) : List String → Except UsageFault Request
  | [] => .ok (withoutSubcommand top path?)
  | word :: words =>
      match Argument.role word with
      | .flag f => do topLevel (← top.add f) path? words
      | .separator => do return withoutSubcommand top (← words.foldlM addPath path?)
      | .help => .ok .help
      | .version => .ok .version
      | .option => .error (.unknownOption word)
      | .plain =>
          match Subcommand.ofWord? word with
          | some .tokenize => tokenizeLevel top .empty none words
          | some .console => consoleLevel top .empty words
          | some .help => helpLevel words
          | none => do topLevel top (← addPath path? word) words

def parse (words : List String) : Except UsageFault Request :=
  topLevel .empty none words

end Arguments

/-! ## What a run is to do -/

namespace Invocation

/-- The name of the environment variable that can stand in for the flag. -/
def variableName : String := "TEAMLEX_SKIP_PUNCTUATION"

def strict (i : Invocation) : Bool := i.levels.any Flags.strict

/-- The punctuation policy, from the flags and the variable's value if it is set. -/
def policy (i : Invocation) (value? : Option String) : Except UsageFault Policy :=
  let flagged := if i.levels.any Flags.skipPunctuation then Policy.skip else .refuse
  if i.levels.all Flags.skipPunctuation then .ok .skip
  else
    match value? with
    | none => .ok flagged
    | some "true" => .ok .skip
    | some "false" => .ok flagged
    | some value => .error (.badVariable value)

end Invocation

end TeamScript
