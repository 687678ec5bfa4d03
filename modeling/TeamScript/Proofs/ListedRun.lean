/-
# TeamScript.Proofs.ListedRun -- what the output of a run tells

A run that has a text to read lists the tokens of that text, whether the text is
in a file or typed (`Setting.Reads.outputLines_eq`).  The listing can be read, so
equal outputs list the same tokens (`Setting.Reads.tokenize_eq`).  A run that finds no
text lists nothing and gives the reason (`Setting.run_without_text`).

`Setting.run_lists_tokens` says what this makes of the output and the exit status
of a run.
-/
import TeamScript.Proofs.ConsoleRun

namespace TeamScript

set_option autoImplicit false

/-! ## Runs that read a text -/

namespace Report

variable {policy : Policy} {text : List Char}

/-- A strict run fails if there are error tokens. -/
theorem ofText_of_faulty (faulty : 0 < errorCount (tokenize policy text)) :
    ofText policy true text =
      failed (listing (tokenize policy text))
        (.errorTokens (errorCount (tokenize policy text))) := by
  simp [ofText, faulty]

theorem ofText_of_correct (correct : ¬ 0 < errorCount (tokenize policy text)) :
    ofText policy true text = ⟨0, listing (tokenize policy text), ""⟩ := by
  simp [ofText, correct]

end Report

namespace Setting

/-- The run has a text to read, under this policy and strictly or not. -/
inductive Reads (s : Setting) (policy : Policy) (strict : Bool) (text : List Char) : Prop
  | file {path : String} (plan : Plan.ofWords s.words s.value? = .read (.file path) policy strict)
      (found : s.directory.read path = .ok text) : Reads s policy strict text
  | console (plan : Plan.ofWords s.words s.value? = .read .console policy strict)
      (found : Console.read s.console = .ok text) : Reads s policy strict text

variable {s : Setting} {policy : Policy} {strict : Bool} {text : List Char}

/-- Such a run is the report on its text, behind the prompt of the console. -/
theorem Reads.run_eq (reads : s.Reads policy strict text) :
    ∃ prompt ∈ ["", Console.prompt],
      s.run = (Report.ofText policy strict text).prompting prompt := by
  cases reads with
  | file plan found =>
      refine ⟨"", by simp, ?_⟩
      rw [run, plan]
      simp [found, Except.mapError, Report.ofSource, Report.prompting]
  | console plan found =>
      refine ⟨Console.prompt, by simp, ?_⟩
      rw [run_console plan, found]
      rfl

theorem Reads.outputLines_eq (reads : s.Reads policy strict text) :
    outputLines s.run.output =
      "=== TOKENS ===" :: (tokenize policy text).map Token.render ++ [""] := by
  obtain ⟨prompt, -, same⟩ := reads.run_eq
  rw [same]
  exact Report.outputLines_ofText policy strict text

/-- Equal outputs list the same tokens. -/
theorem Reads.tokenize_eq {other : Setting} {policy' : Policy} {strict' : Bool}
    {text' : List Char} (reads : s.Reads policy strict text)
    (reads' : other.Reads policy' strict' text') (same : s.run.output = other.run.output) :
    tokenize policy text = tokenize policy' text' := by
  have lines := congrArg outputLines same
  rw [reads.outputLines_eq, reads'.outputLines_eq] at lines
  have renderings := List.append_cancel_right (List.cons.inj lines).2
  have injective : Function.Injective Token.render := fun _ _ => Token.render_inj
  exact (List.map_injective_iff.2 injective) renderings

/-- A run that is to read a text and has none prints nothing, fails, and tells last why there is
no text. -/
theorem run_without_text {input : Input}
    (plan : Plan.ofWords s.words s.value? = .read input policy strict)
    (missing : ∀ text, ¬ s.Reads policy strict text) :
    s.run.output = "" ∧ (s.run.exitStatus = 66 ∨ s.run.exitStatus = 74) ∧
      ∃ (front : String) (fault : ReadFault),
        s.run.errors = front ++ fault.message ++ "\n" := by
  obtain ⟨failure, fault, prompt, cause, same⟩ : ∃ (failure : Failure) (fault : ReadFault)
      (prompt : String), failure.cause? = some fault.message ∧
        s.run = (Report.failed "" failure).prompting prompt := by
    cases input with
    | file path =>
        cases found : s.directory.read path with
        | ok text => exact absurd (.file plan found) (missing text)
        | error fault =>
            refine ⟨.file path fault.message, fault, "", rfl, ?_⟩
            rw [run, plan]
            simp [found, Except.mapError, Report.ofSource, Report.prompting]
    | console =>
        cases found : Console.read s.console with
        | ok text => exact absurd (.console plan found) (missing text)
        | error fault =>
            refine ⟨.console fault.message, fault, Console.prompt, rfl, ?_⟩
            rw [run_console plan, found]
            rfl
  obtain ⟨front, message⟩ := Failure.message_of_cause? cause
  rw [same]
  refine ⟨rfl, Failure.exitStatus_of_cause? cause, prompt ++ front, fault, ?_⟩
  show prompt ++ (failure.message ++ "\n") = _
  rw [message]
  simp only [String.append_assoc]

/-- A token can be told from its written form, and no lexeme holds a line feed.  So a run that has
a text lists the header and every token on a line of its own, and equal outputs list equal streams.
As many lines begin like an error as there are error tokens; a strict run fails if there are any and
tells how many, and any other run succeeds. -/
theorem run_lists_tokens :
    (∀ a b : Token, a.render = b.render → a = b) ∧
      (∀ policy text, ∀ t ∈ tokenize policy text, '\n' ∉ t.lexeme.toList) ∧
      ∀ {s : Setting} {policy : Policy} {strict : Bool} {text : List Char},
        s.Reads policy strict text →
          outputLines s.run.output =
            "=== TOKENS ===" :: (tokenize policy text).map Token.render ++ [""] ∧
          (∀ {other : Setting} {policy' : Policy} {strict' : Bool} {text' : List Char},
            other.Reads policy' strict' text' → s.run.output = other.run.output →
              tokenize policy text = tokenize policy' text') ∧
          (outputLines s.run.output).countP opensError = errorCount (tokenize policy text) ∧
          (strict = true →
            (s.run.exitStatus = 65 ↔ ∃ line ∈ outputLines s.run.output, opensError line = true) ∧
              (s.run.exitStatus = 0 ∨ s.run.exitStatus = 65 ∧ ∃ prompt ∈ ["", Console.prompt],
                s.run.errors = prompt ++ "Lexing produced " ++
                  toString ((outputLines s.run.output).countP opensError) ++
                    " error token(s)\n")) ∧
          (strict = false → s.run.exitStatus = 0) := by
  refine ⟨fun _ _ => Token.render_inj, fun _ _ _ => feed_not_mem_lexeme, ?_⟩
  intro s policy strict text reads
  have counted : (outputLines s.run.output).countP opensError =
      errorCount (tokenize policy text) := by
    rw [reads.outputLines_eq]
    exact countP_opensError _
  have some_ : (∃ line ∈ outputLines s.run.output, opensError line = true) ↔
      0 < errorCount (tokenize policy text) := by
    rw [← counted]
    exact List.countP_pos_iff.symm
  obtain ⟨prompt, known, same⟩ := reads.run_eq
  refine ⟨reads.outputLines_eq, reads.tokenize_eq, counted, fun isStrict => ?_, fun lenient => ?_⟩
  · rw [some_, counted, same, isStrict]
    by_cases faulty : 0 < errorCount (tokenize policy text)
    · rw [Report.ofText_of_faulty faulty]
      refine ⟨⟨fun _ => faulty, fun _ => rfl⟩, .inr ⟨rfl, prompt, known, ?_⟩⟩
      show prompt ++ ("Lexing produced " ++ toString _ ++ " error token(s)" ++ "\n") = _
      simp only [String.append_assoc]
      rfl
    · rw [Report.ofText_of_correct faulty]
      exact ⟨⟨nofun, fun some_ => absurd some_ faulty⟩, .inl rfl⟩
  · rw [same, lenient]
    rfl

/-- A string that looks like the end of a listed token, and a fault behind it. -/
theorem run_lists_tokens_bang :
    (⟨["console", "--strict"], none, ⟨[], []⟩,
        [36, 39, 41, 64, 49, 58, 49, 36, 33, 10]⟩ : Setting).Reads .refuse true
          "$')@1:1$!\n".toList ∧
      outputLines (⟨["console", "--strict"], none, ⟨[], []⟩,
          [36, 39, 41, 64, 49, 58, 49, 36, 33, 10]⟩ : Setting).run.output =
        ["=== TOKENS ===", "STRING('')@1:1')@1:1", "ERROR('!')@1:9", "EOF('<EOF>')@2:1", ""] ∧
      (⟨["console", "--strict"], none, ⟨[], []⟩,
          [36, 39, 41, 64, 49, 58, 49, 36, 33, 10]⟩ : Setting).run.exitStatus = 65 := by
  have plan : Plan.ofWords ["console", "--strict"] none = .read .console .refuse true := by
    rw [Plan.ofWords]
    have parsed := Arguments.parse_console [] [.strict]
    exact parsed ▸ rfl
  have reads : (⟨["console", "--strict"], none, ⟨[], []⟩,
      [36, 39, 41, 64, 49, 58, 49, 36, 33, 10]⟩ : Setting).Reads .refuse true
        "$')@1:1$!\n".toList := .console plan (by decide +kernel)
  have stream : (tokenize .refuse "$')@1:1$!\n".toList).map Token.render =
      ["STRING('')@1:1')@1:1", "ERROR('!')@1:9", "EOF('<EOF>')@2:1"] := by decide +kernel
  obtain ⟨-, -, lists⟩ := run_lists_tokens
  obtain ⟨lines, -, -, strictly, -⟩ := lists reads
  rw [stream] at lines
  refine ⟨reads, lines, (strictly rfl).1.2 ⟨"ERROR('!')@1:9", ?_, by decide⟩⟩
  rw [lines]
  decide

end Setting

end TeamScript
