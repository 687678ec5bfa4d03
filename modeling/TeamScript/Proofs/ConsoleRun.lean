/-
# TeamScript.Proofs.ConsoleRun -- a source at the console and the same source in a file

A run reads its source from the console or from a file, and for the rest does the
same.  The two ways of reading do not yield the same text: the console changes how
lines end.  But that changes no token.

With the same flags, `console` and `tokenize` differ in their input only
(`Plan.ofWords_same_flags`).  So they have the same exit status and print the same
tokens, wherever they stand.  Only the end token may be on another line: behind a
last line that lacks its line feed.
-/
import TeamScript.Proofs.ConsoleText
import TeamScript.Proofs.Listing

namespace TeamScript

set_option autoImplicit false

/-! ## The same flags -/

namespace Arguments

theorem role_word (f : Flag) : Argument.role f.word = .flag f := by
  cases f <;> decide +kernel

/-- The words of some flags. -/
def flagWords (flags : List Flag) : List String := flags.map Flag.word

/-- A level of the command line that takes one flag in front takes any number of them. -/
theorem level_flags {α : Type} {level : Flags → List String → Except UsageFault α}
    (one : ∀ here f words,
      level here (f.word :: words) = (here.add f).bind fun here => level here words)
    (here : Flags) (flags : List Flag) (words : List String) :
    level here (flagWords flags ++ words) =
      (flags.foldlM Flags.add here).bind fun here => level here words := by
  induction flags generalizing here with
  | nil => rfl
  | cons f flags ih =>
      rw [List.foldlM_cons]
      refine (one here f _).trans ?_
      cases here.add f with
      | error fault => rfl
      | ok here => exact ih here

theorem topLevel_flags (top : Flags) (flags : List Flag) (words : List String) :
    topLevel top none (flagWords flags ++ words) =
      (flags.foldlM Flags.add top).bind fun top => topLevel top none words := by
  apply @level_flags _ (topLevel · none)
  intro top f words
  simp only [topLevel, role_word]
  rfl

theorem consoleLevel_flags (top here : Flags) (flags : List Flag) :
    consoleLevel top here (flagWords flags) =
      (flags.foldlM Flags.add here).map fun here => .run ⟨.console, [top, here]⟩ := by
  have taken := @level_flags _ (consoleLevel top)
    (fun here f words => by simp only [consoleLevel, role_word]; rfl) here flags []
  rw [List.append_nil] at taken
  rw [taken]
  cases flags.foldlM Flags.add here <;> rfl

theorem tokenizeLevel_flags (top here : Flags) (path : String) (flags : List Flag) :
    tokenizeLevel top here (some path) (flagWords flags) =
      (flags.foldlM Flags.add here).map fun here => .run ⟨.file path, [top, here]⟩ := by
  have taken := @level_flags _ (tokenizeLevel top · (some path))
    (fun here f words => by simp only [tokenizeLevel, role_word]; rfl) here flags []
  rw [List.append_nil] at taken
  rw [taken]
  cases flags.foldlM Flags.add here <;> rfl

/-- The levels of a command line with these flags in front of its subcommand and behind it. -/
def levels (top here : List Flag) : Except UsageFault (List Flags) :=
  (top.foldlM Flags.add .empty).bind fun top =>
    (here.foldlM Flags.add .empty).map fun here => [top, here]

theorem parse_console (top here : List Flag) :
    parse (flagWords top ++ "console" :: flagWords here) =
      (levels top here).map fun levels => .run ⟨.console, levels⟩ := by
  have word : Argument.role "console" = .plain := by decide +kernel
  rw [parse, topLevel_flags, levels]
  cases top.foldlM Flags.add .empty with
  | error fault => rfl
  | ok top =>
      have command : topLevel top none ("console" :: flagWords here) =
          consoleLevel top .empty (flagWords here) := by
        simp only [topLevel, word]
        rfl
      refine command.trans ?_
      rw [consoleLevel_flags]
      cases here.foldlM Flags.add .empty <;> rfl

theorem parse_tokenize (top here : List Flag) {path : String} (plain : Argument.role path = .plain)
    (nonempty : path.isEmpty = false) :
    parse (flagWords top ++ "tokenize" :: path :: flagWords here) =
      (levels top here).map fun levels => .run ⟨.file path, levels⟩ := by
  have word : Argument.role "tokenize" = .plain := by decide +kernel
  rw [parse, topLevel_flags, levels]
  cases top.foldlM Flags.add .empty with
  | error fault => rfl
  | ok top =>
      have command : topLevel top none ("tokenize" :: path :: flagWords here) =
          tokenizeLevel top .empty (some path) (flagWords here) := by
        simp only [topLevel, word, Subcommand.ofWord?, tokenizeLevel, plain, addPath, nonempty]
        rfl
      refine command.trans ?_
      rw [tokenizeLevel_flags]
      cases here.foldlM Flags.add .empty <;> rfl

end Arguments

/-- With the same flags in the same places, `tokenize` reads its file as `console` reads the
console. -/
theorem Plan.ofWords_same_flags (top here : List Flag) {value? : Option String} {path : String}
    {policy : Policy} {strict : Bool} (plain : Argument.role path = .plain)
    (nonempty : path.isEmpty = false)
    (console : ofWords (Arguments.flagWords top ++ "console" :: Arguments.flagWords here) value? =
      .read .console policy strict) :
    ofWords (Arguments.flagWords top ++ "tokenize" :: path :: Arguments.flagWords here) value? =
      .read (.file path) policy strict := by
  rw [ofWords, Arguments.parse_console] at console
  rw [ofWords, Arguments.parse_tokenize top here plain nonempty]
  cases found : Arguments.levels top here with
  | error fault =>
      rw [found] at console
      cases console
  | ok levels =>
      rw [found] at console
      simp only [Except.map] at console ⊢
      have same : (Invocation.mk (.file path) levels).policy value? =
        (Invocation.mk .console levels).policy value? := rfl
      rw [same]
      split at console
      · cases console
      · cases console
        rfl

/-! ## The same tokens -/

/-- A text has the same tokens when it is typed.  Only behind a last line that lacks its line feed
the end token moves to the next line. -/
theorem tokenize_typed (policy : Policy) (text : List Char) :
    ∃ tokens place, (∀ t ∈ tokens, t.isEnding = false) ∧
      tokenize policy text = tokens ++ [.ending place] ∧
      tokenize policy (endLine (dropReturns text)) = tokens ++
        [.ending (if text = [] ∨ text.getLast? = some '\n' then place
          else ⟨text.count '\n' + 2, 1⟩)] := by
  obtain ⟨tokens, whole, found, moved⟩ := tokenize_add_feed policy (dropReturns text)
  refine ⟨tokens, _, whole, (tokenize_dropReturns policy text).symm.trans found, ?_⟩
  by_cases ended : text = [] ∨ text.getLast? = some '\n'
  · have same : endLine (dropReturns text) = dropReturns text := by
      refine if_pos (ended.imp ?_ fun last => (getLast?_dropReturns text).trans last)
      rintro rfl
      rfl
    rw [same, if_pos ended, found]
  · obtain ⟨nonempty, feed⟩ := not_or.1 ended
    have added : endLine (dropReturns text) = dropReturns text ++ ['\n'] := by
      refine if_neg (not_or.2 ⟨fun empty => nonempty ?_, ?_⟩)
      · rw [← List.getLast?_eq_none_iff, ← getLast?_dropReturns, empty]
        rfl
      · rwa [getLast?_dropReturns]
    have below : Location.behind (dropReturns text ++ ['\n']) = ⟨text.count '\n' + 2, 1⟩ := by
      rw [Location.behind_append_singleton, Location.next, if_pos rfl, Location.behind,
        count_dropReturns, Nat.add_comm 1]
    rw [added, if_neg ended, moved, below]

/-! ## Reports -/

/-- The lines of a report on a text whose last token is `.ending place`. -/
theorem Report.outputLines_of_stream {policy : Policy} {text : List Char} {tokens : List Token}
    {place : Location} (stream : tokenize policy text = tokens ++ [.ending place])
    (strict : Bool) :
    outputLines (ofText policy strict text).output = "=== TOKENS ===" :: tokens.map Token.render ++
      ["EOF('<EOF>')@" ++ toString place.line ++ ":" ++ toString place.column, ""] := by
  rw [outputLines_ofText, stream, ← Token.render_ending]
  simp

/-- The exit status depends on whether there are error tokens. -/
theorem Report.exitStatus_ofText {policy : Policy} {strict : Bool} {a b : List Char}
    (same : errorCount (tokenize policy a) = errorCount (tokenize policy b)) :
    (ofText policy strict a).exitStatus = (ofText policy strict b).exitStatus := by
  unfold ofText
  dsimp only
  rw [same]
  split <;> rfl

theorem errorCount_append_ending (tokens : List Token) (location : Location) :
    errorCount (tokens ++ [.ending location]) = errorCount tokens := by
  simp [errorCount, Token.isError, Token.ending]

/-! ## Runs -/

namespace Setting

variable {c f : Setting} {path : String} {policy : Policy} {strict : Bool}

/-- A run on the console's text is a run on this text, but for the prompt. -/
theorem run_console (console : Plan.ofWords c.words c.value? = .read .console policy strict) :
    c.run = (Report.ofSource policy strict
      ((Console.read c.console).mapError fun fault => .console fault.message)).prompting
        Console.prompt := by
  rw [run, console]

theorem run_file {names : List String} {content : Bytes} {text : List Char}
    (file : Plan.ofWords f.words f.value? = .read (.file path) policy strict)
    (holds : f.directory.resolve path = .ok (.inside names (.file content)))
    (found : content.text? = some text) : f.run = Report.ofText policy strict text := by
  have read : f.directory.read path = .ok text := by
    rw [Directory.read, holds]
    simp [found]
  rw [run, file]
  simp [read, Except.mapError, Report.ofSource]

/-- What a run shows of the text that was typed. -/
theorem run_typed (console : Plan.ofWords c.words c.value? = .read .console policy strict)
    {text : List Char} (found : (Console.typed c.console).text? = some text) :
    c.run = (Report.ofText policy strict (endLine (dropReturns text))).prompting
      Console.prompt := by
  rw [run_console console, Console.read_eq, found]
  rfl

/-- A console run depends on what was typed in front of the closing line and on nothing behind
it, so whatever stands below that line may be replaced; without a closing line everything was
typed.  If what was typed is no text, nothing is printed.  If it is one, a run on a file that holds
it, with the same policy and strictness, has the same exit status and prints the same lines; only
if the last line lacks its line feed, the end token is listed on the line below it. -/
theorem run_console_eq_run_file
    (console : Plan.ofWords c.words c.value? = .read .console policy strict) :
    ((∀ raw ∈ Console.rawLines c.console, Console.closes raw = false) →
        Console.typed c.console = c.console) ∧
      (∀ other, Console.typed other = Console.typed c.console →
        ({ c with console := other } : Setting).run = c.run) ∧
      (∀ above line below, (above = [] ∨ above.getLast? = some 10) → 10 ∉ line →
        (Console.stripReturn line).text? = some "END".toList →
        c.console = above ++ (line ++ 10 :: below) →
          Console.typed c.console = Console.typed above ∧
            ∀ other, ({ c with
              console := above ++ (line ++ 10 :: other) } : Setting).run = c.run) ∧
      ((Console.typed c.console).text? = none → c.run.output = "" ∧ c.run.exitStatus = 74) ∧
      ∀ {f : Setting} {path : String} {names : List String} {text : List Char},
        Plan.ofWords f.words f.value? = .read (.file path) policy strict →
        f.directory.resolve path = .ok (.inside names (.file (Console.typed c.console))) →
        (Console.typed c.console).text? = some text →
          c.run.exitStatus = f.run.exitStatus ∧
            ∃ tokens place, (∀ t ∈ tokens, t.isEnding = false) ∧
              tokenize policy text = tokens ++ [.ending place] ∧
              outputLines f.run.output = "=== TOKENS ===" :: tokens.map Token.render ++
                ["EOF('<EOF>')@" ++ toString place.line ++ ":" ++ toString place.column, ""] ∧
              ((Console.typed c.console = [] ∨ (Console.typed c.console).getLast? = some 10) →
                outputLines c.run.output = "=== TOKENS ===" :: tokens.map Token.render ++
                  ["EOF('<EOF>')@" ++ toString place.line ++ ":" ++ toString place.column, ""]) ∧
              (Console.typed c.console ≠ [] → (Console.typed c.console).getLast? ≠ some 10 →
                outputLines c.run.output = "=== TOKENS ===" :: tokens.map Token.render ++
                  ["EOF('<EOF>')@" ++ toString ((Console.typed c.console).count 10 + 2) ++ ":1",
                    ""]) := by
  have feed : (10 : UInt8) = Console.lineFeed := rfl
  have depends (other : Bytes) (same : Console.typed other = Console.typed c.console) :
      ({ c with console := other } : Setting).run = c.run := by
    rw [run_console (c := { c with console := other }) console, run_console console,
      Console.read_eq, Console.read_eq, same]
  refine ⟨Console.typed_eq_self, depends, ?_, fun none_ => ?_,
    fun {f path names text} file holds found => ?_⟩
  · intro above line below whole within last console_eq
    have typed (other : Bytes) :
        Console.typed (above ++ (line ++ 10 :: other)) = Console.typed above :=
      Console.typed_append_closing whole within last other
    refine ⟨console_eq ▸ typed below, fun other => depends _ ?_⟩
    rw [console_eq, typed, typed]
  · rw [run_console console, Console.read_eq, none_]
    exact ⟨rfl, rfl⟩
  · obtain ⟨tokens, place, whole, stream, moved⟩ := tokenize_typed policy text
    have filed := run_file file holds found
    have shown := run_typed console found
    have typed := Bytes.text?_eq_some_iff.1 found
    have lines := Report.outputLines_of_stream moved strict
    have output : c.run.output =
        (Report.ofText policy strict (endLine (dropReturns text))).output := by
      rw [shown]
      rfl
    rw [feed]
    simp only [typed, ne_eq, Bytes.ofText_eq_nil_iff, Console.feed_single.getLast?_ofText_iff,
      Console.feed_single.count_ofText]
    refine ⟨?_, tokens, place, whole, stream, filed ▸ Report.outputLines_of_stream stream strict,
      fun ended => ?_, fun nonempty last => ?_⟩
    · rw [shown, filed]
      refine Report.exitStatus_ofText ?_
      rw [stream, moved, errorCount_append_ending, errorCount_append_ending]
    · rw [output, lines, if_pos ended]
    · have column : ":" ++ toString 1 = ":1" := by decide
      rw [output, lines, if_neg (not_or.2 ⟨nonempty, last⟩), @String.append_assoc _ ":" _, column]

/-- A strict run on a line with a fault, typed in front of a closing line and a byte that encodes
nothing, and one on the same fault without a line feed behind it. -/
theorem run_console_eq_run_file_bang :
    let atConsole (bytes : Bytes) : Setting := ⟨["console", "--strict"], none, ⟨[], []⟩, bytes⟩
    let inFile (bytes : Bytes) : Setting :=
      ⟨["tokenize", "a", "--strict"], none, ⟨[], [(["a"], bytes)]⟩, []⟩
    (Plan.ofWords ["console", "--strict"] none = .read .console .refuse true ∧
      Plan.ofWords ["tokenize", "a", "--strict"] none = .read (.file "a") .refuse true) ∧
    (Console.typed [33, 13, 10, 69, 78, 68, 13, 10, 255] = [33, 13, 10] ∧
      outputLines (inFile [33, 13, 10]).run.output =
        ["=== TOKENS ===", "ERROR('!')@1:1", "EOF('<EOF>')@2:1", ""] ∧
      outputLines (atConsole [33, 13, 10, 69, 78, 68, 13, 10, 255]).run.output =
        ["=== TOKENS ===", "ERROR('!')@1:1", "EOF('<EOF>')@2:1", ""] ∧
      (atConsole [33, 13, 10, 69, 78, 68, 13, 10, 255]).run.exitStatus =
        (inFile [33, 13, 10]).run.exitStatus ∧
      (atConsole [33, 13, 10, 69, 78, 68, 13, 10]).run =
        (atConsole [33, 13, 10, 69, 78, 68, 13, 10, 255]).run) ∧
    Console.typed [33] = [33] ∧
      outputLines (inFile [33]).run.output =
        ["=== TOKENS ===", "ERROR('!')@1:1", "EOF('<EOF>')@1:2", ""] ∧
      outputLines (atConsole [33]).run.output =
        ["=== TOKENS ===", "ERROR('!')@1:1", "EOF('<EOF>')@2:1", ""] ∧
      (atConsole [33]).run.exitStatus = (inFile [33]).run.exitStatus := by
  intro atConsole inFile
  have console : Plan.ofWords ["console", "--strict"] none = .read .console .refuse true := by
    rw [Plan.ofWords]
    have parsed := Arguments.parse_console [] [.strict]
    exact parsed ▸ rfl
  have file : Plan.ofWords ["tokenize", "a", "--strict"] none =
      .read (.file "a") .refuse true :=
    Plan.ofWords_same_flags [] [.strict] (by decide +kernel) (by decide +kernel) console
  have holds (bytes : Bytes) :
      (inFile bytes).directory.resolve "a" = .ok (.inside ["a"] (.file bytes)) := by
    have names : "a".splitOn "/" = ["a"] := by
      rw [String.splitOn, if_neg (by decide), String.splitOnAux, if_neg (by decide),
        if_neg (by decide), String.splitOnAux, if_pos (by decide)]
      decide +kernel
    rw [Directory.resolve, if_neg (by decide +kernel), if_neg (by decide +kernel), names]
    rfl
  -- the tokens that the theorem speaks of are those in front of the end
  have split {text : List Char} {tokens other : List Token} {place here : Location}
      (stream : tokenize .refuse text = tokens ++ [.ending place])
      (evaluated : tokenize .refuse text = other ++ [.ending here]) :
      tokens = other ∧ place = here := by
    obtain ⟨same, last⟩ := List.append_inj' (stream.symm.trans evaluated) rfl
    cases last
    exact ⟨same, rfl⟩
  have ended : Console.typed [33, 13, 10, 69, 78, 68, 13, 10, 255] = [33, 13, 10] := by
    decide +kernel
  have open_ : Console.typed [33] = [33] := by decide +kernel
  have encodesLine : Bytes.text? [33, 13, 10] = some ['!', '\r', '\n'] := by decide +kernel
  have encodesBang : Bytes.text? [33] = some ['!'] := by decide +kernel
  refine ⟨⟨console, file⟩, ?_, ?_⟩
  · obtain ⟨-, -, below, -, agree⟩ := run_console_eq_run_file
      (c := atConsole [33, 13, 10, 69, 78, 68, 13, 10, 255]) console
    rw [show (atConsole _).console = _ from rfl, ended] at agree
    obtain ⟨exitStatus, tokens, place, -, stream, filed, shown, -⟩ :=
      agree file (holds _) encodesLine
    obtain ⟨rfl, rfl⟩ := @split _ _ [⟨.error, "!", ⟨1, 1⟩⟩] _ ⟨2, 1⟩ stream (by decide +kernel)
    have replaced := below [33, 13, 10] [69, 78, 68, 13] [255] (.inr rfl) (by decide)
      (by decide +kernel) rfl
    exact ⟨ended, filed, shown (.inr rfl), exitStatus, replaced.2 []⟩
  · obtain ⟨-, -, -, -, agree⟩ := run_console_eq_run_file (c := atConsole [33]) console
    rw [show (atConsole _).console = _ from rfl, open_] at agree
    obtain ⟨exitStatus, tokens, place, -, stream, filed, -, moved⟩ :=
      agree file (holds _) encodesBang
    obtain ⟨rfl, rfl⟩ := @split _ _ [⟨.error, "!", ⟨1, 1⟩⟩] _ ⟨1, 2⟩ stream (by decide +kernel)
    exact ⟨open_, filed, moved (by decide) (by decide), exitStatus⟩

end Setting

end TeamScript
