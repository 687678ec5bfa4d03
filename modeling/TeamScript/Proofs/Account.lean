/-
# TeamScript.Proofs.Account -- the log tells what the stream does

What the log writes down about a token can be told from the token and the text
it was read from (`Token.block`): a team code that did not begin a name, the
fault from which the reader recovered, and the token itself.  Which fault that
is the token's lexeme tells.

`Lexer.entries_step` says so of one step and `Lexer.entries_steps` of a whole
run.  There is nothing else in the log but its first and its last entry, so gaps
leave no trace (`logAt_trace_entries`).
-/
import TeamScript.Proofs.Grammar.Notice
import TeamScript.Proofs.Lexicon
import TeamScript.Proofs.Listing
import TeamScript.Proofs.Quoted

namespace TeamScript

set_option autoImplicit false

/-! ## Events in writing -/

/-- An event as it is written. -/
structure Entry where
  heading : String
  message : String
  fields : List (String × FieldValue)
  deriving DecidableEq, Repr

def Event.entry (event : Event) : Entry := ⟨event.heading, event.message, event.fields⟩

/-! ## The entries of a token -/

namespace Token

/-- The fault that the token reports. -/
def fault? (t : Token) : Option Fault :=
  if t.kind = .error then Fault.ofMessage? t.lexeme else none

/-- The fault of the token from which the log tells a recovery. -/
def recovered? (t : Token) (span : List Char) : Option Fault :=
  t.fault?.filter fun f => !f.isSilent span

/-- An entry that is about the token and names its location first. -/
def remark (t : Token) (heading message : String) (detail : List (String × FieldValue)) : Entry :=
  ⟨heading, message, ("start", .text t.location.render) :: detail⟩

/-- The entries of the token, which was read from `span`. -/
def block (t : Token) (span : List Char) : List Entry :=
  (t.kind.bareCode? span).toList.map (fun code =>
      t.remark "TRACE" "team prefix without a body, rescanning as number"
        [("prefix", .text code)]) ++
    (t.recovered? span).toList.map (fun f => t.remark "DEBUG" f.category (f.quotes span)) ++
    [⟨"TRACE", "scanned", [("token", .text t.render)]⟩]

theorem fault?_of_possible {policy : Policy} {f : Fault} (possible : f.Possible policy)
    (location : Location) : (f.token location).fault? = some f :=
  Fault.ofMessage?_message possible

theorem fault?_of_correct {t : Token} (correct : t.kind ≠ .error) : t.fault? = none := by
  rw [fault?, if_neg correct]

end Token

/-! ## Silence -/

namespace Fault

theorem prefix_headed (heading text : String) : heading.toList <+: (heading ++ text).toList := by
  rw [String.toList_append]
  exact List.prefix_append _ _

/-- A message that begins with another heading is not the message of a silent fault. -/
theorem loud_of_heading {heading : String}
    (longer : ¬ "malformed float: ".toList <+: heading.toList)
    (shorter : ¬ heading.toList <+: "malformed float: ".toList)
    (other : ¬ heading.toList <+: "unterminated string".toList) (text : String) :
    ¬ "malformed float: ".toList <+: (heading ++ text).toList ∧
      heading ++ text ≠ "unterminated string" := by
  constructor
  · rw [String.toList_append]
    exact not_prefix_append longer shorter text.toList
  · intro same
    have front := prefix_headed heading text
    rw [same] at front
    exact other front

/-- A fault passes in silence if it is digits and a dot with nothing else, or a string without
line feed. -/
theorem isSilent_iff {f : Fault} {span : List Char} :
    f.isSilent span = true ↔
      "malformed float: ".toList <+: f.message.toList ∧ span.getLast? = some '.' ∨
        f.message = "unterminated string" ∧ '\n' ∉ span := by
  have loud (never : f.isSilent span = false)
      (other : ¬ "malformed float: ".toList <+: f.message.toList ∧
        f.message ≠ "unterminated string") :
      f.isSilent span = true ↔
        "malformed float: ".toList <+: f.message.toList ∧ span.getLast? = some '.' ∨
          f.message = "unterminated string" ∧ '\n' ∉ span := by
    rw [never]
    refine iff_of_false (by decide) ?_
    rintro (⟨front, -⟩ | ⟨same, -⟩)
    · exact other.1 front
    · exact other.2 same
  cases f with
  | emptyFraction text =>
      have front := prefix_headed "malformed float: " text
      have other : (emptyFraction text).message ≠ "unterminated string" := by
        intro same
        have inside : "malformed float: ".toList <+: "unterminated string".toList := by
          rw [← same]
          exact front
        exact absurd inside (by decide)
      rw [isSilent, beq_iff_eq]
      exact ⟨fun last => .inl ⟨front, last⟩,
        fun silent => silent.elim And.right fun cut => absurd cut.1 other⟩
  | openString =>
      have other : ¬ "malformed float: ".toList <+: openString.message.toList := by decide
      have told : openString.message = "unterminated string" := rfl
      rw [or_iff_right fun headed => other headed.1, and_iff_right told]
      simp [isSilent]
  | unknownCharacter c =>
      have single : (unknownCharacter c).message.toList = [c] := String.toList_singleton c
      refine loud rfl ⟨fun front => ?_, fun same => ?_⟩
      · rw [single] at front
        have short : 17 ≤ 1 := front.length_le
        omega
      · rw [same] at single
        have short : 19 = 1 := congrArg List.length single
        omega
  | unknownWord word => exact loud rfl (loud_of_heading (by decide) (by decide) (by decide) word)
  | doubleDot text => exact loud rfl (loud_of_heading (by decide) (by decide) (by decide) text)
  | badExponent text => exact loud rfl (loud_of_heading (by decide) (by decide) (by decide) text)
  | _ => exact loud rfl (by decide)

end Fault

/-! ## One step -/

/-- The notices about a piece of text are written as its token says. -/
theorem Noted.entries {policy : Policy} {outcome : Except Fault Lexeme} {span : List Char}
    {notices : List Notice} {ahead : Option Char} (noted : Noted outcome span notices)
    (stands : (Chunk.token span outcome).Stands policy ahead) (start : Location) :
    notices.map (Event.entry ∘ Event.noticed start) =
      ((Chunk.tokenOf outcome start).recovered? span).toList.map fun f =>
        (Chunk.tokenOf outcome start).remark "DEBUG" f.category (f.quotes span) := by
  cases noted with
  | @correct l _ =>
      have none_ : (Chunk.tokenOf (.ok l) start).fault? = none := by
        apply Token.fault?_of_correct
        cases l <;> simp [Chunk.tokenOf, Lexeme.kind]
      rw [Token.recovered?, none_]
      rfl
  | @silent f _ silent =>
      have told : (Chunk.tokenOf (.error f) start).fault? = some f :=
        Token.fault?_of_possible stands.possible start
      rw [Token.recovered?, told]
      simp [Option.filter, silent]
  | @recovered f _ notice loud severity message detail =>
      have told : (Chunk.tokenOf (.error f) start).fault? = some f :=
        Token.fault?_of_possible stands.possible start
      have written : (Event.noticed start notice).entry =
          (Chunk.tokenOf (.error f) start).remark "DEBUG" f.category (f.quotes span) := by
        simp only [Event.entry, Event.heading, Event.severity, Event.message, Event.fields,
          severity, message, detail]
        rfl
      rw [Token.recovered?, told]
      simp [Option.filter, loud, written]

namespace Lexer

/-- What a step reads is the piece that stands behind the gaps. -/
theorem read_of_seek (l : Lexer) {here : Lexer} {r : Reading} (found : l.seek = (here, some r)) :
    ∃ c more, Piece.read l.policy c more = .token r := by
  match ahead : l.rest with
  | [] =>
      rw [seek_of_nil ahead] at found
      cases found
  | c :: more =>
      match piece : Piece.read l.policy c more with
      | .gap span rest =>
          rw [seek_of_gap ahead piece] at found
          exact read_of_seek (l.pass span rest) found
      | .token other =>
          rw [seek_of_token ahead piece] at found
          cases found
          exact ⟨c, more, piece⟩
termination_by l.rest.length
decreasing_by
  have shorter := Piece.read_rest_length_lt l.policy c more
  rw [piece] at shorter
  rw [ahead]
  exact shorter

/-- The events of a step are the entries of its token. -/
theorem entries_step (l : Lexer) :
    l.step.events.map Event.entry = l.step.token.block l.step.span := by
  unfold step
  match found : l.seek with
  | (here, none) => rfl
  | (here, some r) =>
      obtain ⟨c, more, read⟩ := read_of_seek l found
      have stands := Piece.read_stands l.policy c more
      rw [read] at stands
      obtain ⟨notices, noted, noticed⟩ := Piece.read_accounted read
      have about := noted.entries stands here.location
      have located := Chunk.tokenOf_location r.outcome here.location
      have kind : (r.token .start).kind = (Chunk.tokenOf r.outcome here.location).kind := by
        unfold Reading.token
        cases r.outcome <;> rfl
      have token : r.token here.location = Chunk.tokenOf r.outcome here.location := rfl
      have coded (code : String) : (Event.noticed here.location (.bareTeamCode code)).entry =
          (Chunk.tokenOf r.outcome here.location).remark "TRACE"
            "team prefix without a body, rescanning as number" [("prefix", .text code)] := by
        rw [Token.remark, located]
        rfl
      dsimp only [Step.events]
      rw [token, located, noticed, kind, List.map_append, List.map_append, List.map_append,
        List.map_map, List.map_map, List.map_map, about, Token.block]
      simp only [Function.comp_def, coded]
      rfl

/-- The events of a run are the entries of its tokens. -/
theorem entries_steps (l : Lexer) :
    (l.steps.flatMap Step.events).map Event.entry =
      l.steps.flatMap fun s => s.token.block s.span := by
  have front := entries_step l
  match more : l.step.token.isEnding with
  | true =>
      rw [steps_of_ending more]
      simpa using front
  | false =>
      have others := entries_steps l.step.next
      rw [steps_of_more more, List.flatMap_cons, List.flatMap_cons, List.map_append, front, others]
termination_by l.rest.length
decreasing_by exact step_rest_length_lt l more

end Lexer

/-! ## When there is an entry -/

/-- A bare code is one of the three, in front of a text that is no name. -/
theorem Kind.bareCode?_eq_some_iff {kind : Kind} {span : List Char} {code : String} :
    kind.bareCode? span = some code ↔
      kind ≠ .name ∧ code ∈ ["134", "104", "199"] ∧ code.toList <+: span := by
  unfold bareCode?
  by_cases name : kind = .name
  · simp [name]
  · rw [if_neg name]
    constructor
    · intro found
      have front := List.find?_some found
      exact ⟨name, List.mem_of_find?_eq_some found, List.isPrefixOf_iff_prefix.1 front⟩
    · rintro ⟨-, known, front⟩
      obtain ⟨rest, rfl⟩ := front
      exact Name.code?_append known rest

namespace Token

/-- An error token reports the fault that its lexeme tells. -/
theorem exists_fault_of_lexicon {policy : Policy} {t : Token}
    (entry : Lexicon policy t.kind t.lexeme) (isError : t.kind = .error) :
    ∃ f, t.fault? = some f ∧ t = f.token t.location := by
  obtain ⟨f, possible, same⟩ := exists_possible_of_lexicon entry isError
  have told := fault?_of_possible possible t.location
  rw [← same] at told
  exact ⟨f, told, same⟩

/-- The log tells of a recovery unless the fault passes in silence. -/
theorem recovered?_isSome_iff {policy : Policy} {t : Token} {span : List Char}
    (entry : Lexicon policy t.kind t.lexeme) :
    (t.recovered? span).isSome ↔ t.kind = .error ∧
      ¬ ("malformed float: ".toList <+: t.lexeme.toList ∧ span.getLast? = some '.') ∧
      ¬ (t.lexeme = "unterminated string" ∧ '\n' ∉ span) := by
  by_cases isError : t.kind = .error
  · obtain ⟨f, told, same⟩ := exists_fault_of_lexicon entry isError
    have lexeme : t.lexeme = f.message := congrArg Token.lexeme same
    have silence := @Fault.isSilent_iff f span
    rw [← lexeme] at silence
    rw [← not_or, ← silence, and_iff_right isError, recovered?, told]
    cases silent : f.isSilent span <;> simp [Option.filter, silent]
  · rw [recovered?, fault?_of_correct isError]
    simp [isError]

theorem eq_token_of_recovered? {policy : Policy} {t : Token} {span : List Char} {f : Fault}
    (entry : Lexicon policy t.kind t.lexeme) (told : t.recovered? span = some f) :
    t = f.token t.location := by
  have found : t.fault? = some f := (Option.filter_eq_some_iff.1 told).1
  by_cases isError : t.kind = .error
  · obtain ⟨g, told', same⟩ := exists_fault_of_lexicon entry isError
    rw [told'] at found
    cases found
    exact same
  · rw [fault?_of_correct isError] at found
    cases found

end Token

/-! ## The whole log -/

/-- The most detailed log shows everything. -/
theorem logAt_trace (policy : Policy) (text : List Char) :
    logAt .trace policy text = log policy text := by
  apply List.filter_eq_self.2
  intro event _
  cases event.severity <;> rfl

/-- The log of a run at its most detailed, written out.  The steps of the run lay out the text, so
the block of a token is told from the token and the text that it was read from.  Locations, tokens
and characters can be read back from the fields that are about them. -/
theorem logAt_trace_entries (policy : Policy) (text : List Char) :
    let steps := (Lexer.ofText policy text).steps
    let stream := tokenize policy text
    (steps.map Step.token = stream ∧ Layout policy [] steps text) ∧
      (logAt .trace policy text).map Event.entry =
        ⟨"SPAN", "tokenize_with", [("chars", .count text.length)]⟩ ::
          (steps.flatMap (fun s => s.token.block s.span) ++
            [⟨"DEBUG", "tokenized", [("tokens", .count stream.length),
              ("errors", .count (stream.countP fun t => t.kind == .error))]⟩]) ∧
      (∀ s ∈ steps,
        (∀ code, s.token.kind.bareCode? s.span = some code ↔
          s.token.kind ≠ .name ∧ code ∈ ["134", "104", "199"] ∧ code.toList <+: s.span) ∧
        ((s.token.recovered? s.span).isSome ↔ s.token.kind = .error ∧
          ¬ ("malformed float: ".toList <+: s.token.lexeme.toList ∧ s.span.getLast? = some '.') ∧
          ¬ (s.token.lexeme = "unterminated string" ∧ '\n' ∉ s.span)) ∧
        ∀ f, s.token.recovered? s.span = some f → s.token = f.token s.token.location) ∧
      ((∀ l : Location, l.render = toString l.line ++ ":" ++ toString l.column) ∧
        ∀ a b : Location, a.render = b.render → a = b) ∧
      ((∀ t : Token, ∃ label, (t.kind, label) ∈ [(Kind.name, "IDENTIFIER"), (.keyword, "KEYWORD"),
            (.integer, "INTEGER"), (.number, "NUMBER"), (.string, "STRING"),
            (.operator, "OPERATOR"), (.error, "ERROR"), (.ending, "EOF")] ∧
          t.render = label ++ "('" ++ t.lexeme ++ "')@" ++ t.location.render) ∧
        ∀ a b : Token, a.render = b.render → a = b) ∧
      (∀ (c : Char) (quoted : String), quoteChar c = quoted ↔
        ∃ inside, Escaped c inside ∧ quoted.toList = '\'' :: (inside ++ ['\''])) ∧
      (∀ a b : Char, quoteChar a = quoteChar b → a = b) ∧
      ∀ c : Char, 0x20 ≤ c.toNat → c.toNat ≤ 0x7e → c ∉ ['\'', '\\'] →
        quoteChar c = String.ofList ['\'', c, '\''] := by
  intro steps stream
  obtain ⟨chunks, row, whole⟩ := Chunk.exists_row policy text
  refine ⟨⟨rfl, ?_⟩, ?_, fun s member => ?_, ⟨fun _ => rfl, fun _ _ => Location.render_inj⟩,
    ⟨Token.render_eq, fun _ _ => Token.render_inj⟩, fun _ _ => quoteChar_eq_iff,
    fun _ _ => quoteChar_inj, fun _ => quoteChar_of_ascii⟩
  · have ahead : (Lexer.ofText policy text).rest = Chunk.text chunks := whole.symm
    have layout := Lexer.layout_of_row (l := .ofText policy text) row ahead
      (Lexer.behind_ofText policy text)
    rwa [whole] at layout
  · rw [logAt_trace, log, List.map_cons, List.map_append, Lexer.entries_steps]
    have counted : steps.length = stream.length := (List.length_map Step.token).symm
    rw [counted]
    rfl
  · have inside : s.token ∈ Chunk.tokens .start chunks := by
      rw [← tokenize_of_row row, whole]
      exact List.mem_map_of_mem member
    have entry := row.lexicon inside
    exact ⟨fun _ => Kind.bareCode?_eq_some_iff, Token.recovered?_isSome_iff entry,
      fun _ => Token.eq_token_of_recovered? entry⟩

end TeamScript
