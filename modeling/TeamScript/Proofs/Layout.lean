/-
# TeamScript.Proofs.Layout -- every character has its place

Reading loses no character, takes none twice and misplaces none, whatever the
text.  `Layout` describes a text as gaps and the spans of its steps in turn: in
front of every token a gap, then the text from which the token was read, and the
last gap behind the last token.  Each token is located where its span begins.

`Shows` says what a token tells about its span.  Most lexemes are the span, or
the span behind a heading; a string's is the span without its signs.  Only the
two faults inside strings and the open comment keep the span to themselves, and
of those one begins with a dollar sign and stays on two lines, the other begins
with the opener and reaches to the end of the text.

`tokenize_layout`: every text is laid out by the steps of its stream.  A gap may
be empty but no span is, so the tokens stand one behind the other and the end token
behind all of them (`tokenize_ascends`).
-/
import TeamScript.Proofs.Order
import TeamScript.Proofs.Row

namespace TeamScript

set_option autoImplicit false

/-! ## Tokens and their spans -/

/-- `Shows kind lexeme span rest`: a token of this kind and lexeme was read from `span`,
and `rest` is the whole text behind it. -/
inductive Shows : Kind → String → List Char → List Char → Prop
  | verbatim {kind : Kind} {span rest : List Char}
      (known : kind ∈ [.name, .keyword, .integer, .number, .operator]) :
      Shows kind (String.ofList span) span rest
  | string {content rest : List Char} :
      Shows .string (String.ofList content) ('$' :: (content ++ ['$'])) rest
  | character {c : Char} {rest : List Char} : Shows .error (String.ofList [c]) [c] rest
  | headed {heading : String} {span rest : List Char}
      (known : heading ∈
        ["unknown word: ", "malformed number: ", "malformed float: ", "bad exponent: "]) :
      Shows .error (heading ++ String.ofList span) span rest
  | brokenString {message : String} {body rest : List Char}
      (known : message ∈ ["string contains forbidden \\n", "unterminated string"])
      (feeds : body.count '\n' ≤ 1) : Shows .error message ('$' :: body) rest
  | openComment {body : List Char} :
      Shows .error "unterminated comment" ('/' :: '*' :: body) []

namespace StringLiteral

theorem Clean.count_feed {content : List Char} (clean : Clean content) :
    content.count '\n' = 0 :=
  List.count_eq_zero.2 clean.feed

theorem Skips.count_feed {skipped : List Char} {ahead : Option Char}
    (skips : Skips skipped ahead) : skipped.count '\n' = 0 := by
  rw [List.count_eq_zero]
  intro feed
  cases skips with
  | closed within =>
      rcases List.mem_append.1 feed with inside | sign
      · exact (within _ inside).2 rfl
      · simp at sign
  | open_ within _ => exact (within _ feed).2 rfl

theorem Spells.shows {span : List Char} {outcome : Except Fault Lexeme} {ahead : Option Char}
    (spells : Spells span outcome ahead) (location : Location) (rest : List Char) :
    Shows (Chunk.tokenOf outcome location).kind (Chunk.tokenOf outcome location).lexeme span
      rest := by
  cases spells with
  | closed clean => exact .string
  | cut clean =>
      exact @Shows.brokenString "unterminated string" _ rest (by decide)
        (by simp [clean.count_feed])
  | broken clean skips =>
      exact @Shows.brokenString "unterminated string" _ rest (by decide)
        (by simp [clean.count_feed, skips.count_feed])
  | escape clean skips =>
      exact @Shows.brokenString "string contains forbidden \\n" _ rest (by decide)
        (by simp [clean.count_feed, skips.count_feed])

end StringLiteral

theorem Numeral.Spells.shows {span : List Char} {outcome : Except Fault Lexeme}
    {ahead : Option Char} (spells : Numeral.Spells span outcome ahead) (location : Location)
    (rest : List Char) :
    Shows (Chunk.tokenOf outcome location).kind (Chunk.tokenOf outcome location).lexeme span
      rest := by
  cases spells with
  | @bare shape _ _ _ _ _ =>
      cases shape with
      | whole => exact @Shows.verbatim .integer _ rest (by decide)
      | fractional => exact @Shows.verbatim .number _ rest (by decide)
      | dangling => exact .headed (by decide)
  | scaled _ _ _ _ _ => exact @Shows.verbatim .number _ rest (by decide)
  | unscaled _ _ _ _ _ => exact .headed (by decide)
  | dangling _ _ _ => exact .headed (by decide)
  | doubleDot _ _ => exact .headed (by decide)
  | dotExponent _ _ => exact .headed (by decide)
  | loneDot _ _ => exact .character

/-- The token of a chunk shows the span of the chunk. -/
theorem Chunk.Stands.shows {policy : Policy} {span rest : List Char}
    {outcome : Except Fault Lexeme} (stands : (Chunk.token span outcome).Stands policy rest.head?)
    (location : Location) :
    Shows (Chunk.tokenOf outcome location).kind (Chunk.tokenOf outcome location).lexeme span
      rest := by
  generalize next : rest.head? = ahead at stands
  cases stands with
  | slash _ _ => exact @Shows.verbatim .operator ['/'] rest (by decide)
  | openComment _ =>
      obtain rfl := List.head?_eq_none_iff.1 next
      exact .openComment
  | string spells => exact spells.shows location rest
  | name spells =>
      cases spells with
      | name _ _ _ _ => exact @Shows.verbatim .name _ rest (by decide)
  | numeral spells _ => exact spells.shows location rest
  | word spells =>
      cases spells with
      | keyword word _ =>
          have shown := @Shows.verbatim .keyword word.word.toList rest (by decide)
          rwa [String.ofList_toList] at shown
      | unknown _ _ _ _ => exact .headed (by decide)
  | operator spells =>
      cases spells with
      | pair _ => exact @Shows.verbatim .operator _ rest (by decide)
      | @single c _ _ _ _ => exact @Shows.verbatim .operator [c] rest (by decide)
      | bang _ => exact .character
  | unknown _ => exact .character

/-! ## Texts laid out by steps -/

/-- `Layout policy before steps text`: behind the text `before`, the text divides into gaps
and the spans of the steps, and each step tells what it passes over and where. -/
inductive Layout (policy : Policy) : List Char → List Step → List Char → Prop
  | ending {before gap : List Char} {s : Step} (last : LastGap policy gap)
      (token : s.token = .ending (Location.behind (before ++ gap))) (empty : s.span = [])
      (reached : s.next.offset = (before ++ gap).length) : Layout policy before [s] gap
  | token {before gap rest : List Char} {s : Step} {steps : List Step}
      (complete : Gap policy gap) (nonempty : s.span ≠ [])
      (shows : Shows s.token.kind s.token.lexeme s.span rest)
      (located : s.token.location = Location.behind (before ++ gap))
      (reached : s.next.offset = (before ++ gap ++ s.span).length)
      (later : Layout policy (before ++ gap ++ s.span) steps rest) :
      Layout policy before (s :: steps) (gap ++ s.span ++ rest)

namespace Lexer

open Chunk

/-- The steps of a lexer lay out the text it has left. -/
theorem layout_of_row {l : Lexer} {chunks : List Chunk} {before : List Char}
    (row : Row l.policy chunks none) (ahead : l.rest = text chunks) (behind : l.Behind before) :
    Layout l.policy before l.steps (text chunks) := by
  rcases gaps_or_token chunks with ⟨gaps, rfl⟩ | ⟨gaps, span, outcome, later, rfl⟩
  · have stepped := step_of_gaps row ahead
    have passed := behind.pass gaps.flatten []
    rw [steps_of_ending (by rw [stepped]; rfl), stepped, text_map_gap]
    exact .ending (lastGap_of_row row) (congrArg Token.ending passed.location) rfl passed.offset
  · obtain ⟨token, consumed, next⟩ := step_of_token row ahead
    obtain ⟨gapRow, stands, -⟩ := row_append.1 row
    have passed := behind.pass gaps.flatten []
    have passedToken := behind.pass (gaps.flatten ++ span) (text later)
    rw [← next, ← consumed, ← List.append_assoc] at passedToken
    have whole : text (gaps.map gap ++ .token span outcome :: later) =
        gaps.flatten ++ l.step.span ++ text later := by
      simp [consumed, Chunk.span]
    have more : l.step.token.isEnding = false := by rw [token]; exact isEnding_tokenOf _ _
    rw [Option.or_none] at stands
    obtain ⟨c, body, front⟩ := List.exists_cons_of_ne_nil stands.span_ne_nil
    rw [steps_of_more more, whole]
    refine .token ⟨gaps, rfl, pieces_of_row (c := c) ?_⟩ ?_ ?_ ?_ passedToken.offset ?_
    · rw [text_cons, front] at gapRow
      exact gapRow
    · rw [consumed]
      exact stands.span_ne_nil
    · rw [token, consumed]
      exact stands.shows _
    · rw [token, tokenOf_location]
      exact passed.location
    · have samePolicy : l.step.next.policy = l.policy := by rw [next]; rfl
      obtain ⟨restRow, restAhead⟩ := row_of_step row ahead
      have others := layout_of_row restRow restAhead passedToken
      rwa [samePolicy] at others
termination_by chunks.length

end Lexer

/-- The steps of the stream lay out the whole text, and their tokens are the stream. -/
theorem tokenize_layout (policy : Policy) (text : List Char) :
    tokenize policy text = (Lexer.ofText policy text).steps.map Step.token ∧
      Layout policy [] (Lexer.ofText policy text).steps text := by
  refine ⟨rfl, ?_⟩
  obtain ⟨chunks, row, rfl⟩ := Chunk.exists_row policy text
  exact Lexer.layout_of_row (l := .ofText policy _) row rfl (Lexer.behind_ofText _ _)

/-! ## One token behind the other -/

namespace Layout

open Location

variable {policy : Policy} {before text : List Char} {steps : List Step}

/-- No token of a layout stands in front of the text or behind it. -/
theorem between (layout : Layout policy before steps text) : ∀ s ∈ steps,
    behind before ≤ s.token.location ∧ s.token.location ≤ behind (before ++ text) := by
  induction layout with
  | ending _ token _ _ =>
      intro s member
      obtain rfl := List.mem_singleton.1 member
      rw [token]
      exact ⟨behind_le_append _ _, le_refl _⟩
  | token _ _ _ located _ _ ih =>
      simp only [List.append_assoc] at located ih ⊢
      refine List.forall_mem_cons.2 ⟨?_, fun s member => ?_⟩
      · rw [located, ← List.append_assoc]
        exact ⟨behind_le_append _ _, behind_le_append _ _⟩
      · obtain ⟨after, front⟩ := ih s member
        exact ⟨le_trans (behind_le_append _ _) after, front⟩

/-- Each token of a layout stands in front of all later ones. -/
theorem ascends (layout : Layout policy before steps text) :
    steps.Pairwise fun s t => s.token.location < t.token.location := by
  induction layout with
  | ending _ _ _ _ => exact List.pairwise_singleton ..
  | token _ nonempty _ located _ later ih =>
      refine List.pairwise_cons.2 ⟨fun t member => ?_, ih⟩
      rw [located]
      exact lt_of_lt_of_le (behind_lt_append _ nonempty) (later.between t member).1

/-- The end token of a layout stands behind its text. -/
theorem ends (layout : Layout policy before steps text) :
    ∃ s ∈ steps, s.token.location = behind (before ++ text) := by
  induction layout with
  | ending _ token _ _ => exact ⟨_, List.mem_singleton_self _, by rw [token]; rfl⟩
  | token _ _ _ _ _ _ ih =>
      obtain ⟨s, member, located⟩ := ih
      exact ⟨s, List.mem_cons_of_mem _ member, by rw [located]; simp⟩

end Layout

/-- The tokens of a text stand in ascending order, and none behind the end of the text, where
the end token is. -/
theorem tokenize_ascends (policy : Policy) (text : List Char) :
    let locations := (tokenize policy text).map Token.location
    (∀ o ∈ Location.comparisons locations, o = .lt) ∧ Location.sorted locations = locations ∧
      Location.greatest? locations = some (.behind text) := by
  intro locations
  obtain ⟨stream, layout⟩ := tokenize_layout policy text
  have ascending : locations.Pairwise (· < ·) := by
    simp only [locations, stream, List.pairwise_map]
    exact layout.ascends
  refine ⟨Location.comparisons_lt_iff.2 ascending,
    Location.sorted_eq_iff.2 ⟨.refl _, ascending.imp .inl⟩,
    Location.greatest?_eq_some_iff.2 ?_⟩
  simp only [locations, stream, List.map_map, List.mem_map, Function.comp_apply]
  refine ⟨layout.ends, ?_⟩
  rintro _ ⟨s, member, rfl⟩
  exact (layout.between s member).2

end TeamScript
