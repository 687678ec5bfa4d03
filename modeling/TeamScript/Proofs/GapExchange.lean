/-
# TeamScript.Proofs.GapExchange -- one gap is as good as another

Between two tokens of a text any gap may be exchanged for any other one that is
not empty, and the tokens stay what they are; those in front of the gap stay
where they are, too.  This holds around faults as well, save that a fault inside
a string must not stand in front of the gap, and that no comment may follow a
slash.

The proof exchanges the gap in the row of chunks that makes up the text:

* `Lexer.split_of_steps`: where the steps of a stream are cut, the row is cut;
* `Chunk.Row.separated`: the chunks in front of a gap stand in front of any gap.
-/
import TeamScript.Proofs.Grammar.Separator
import TeamScript.Proofs.Row

namespace TeamScript

set_option autoImplicit false

/-- Kind and lexeme: what a token is, wherever it is. -/
def Token.sign (t : Token) : Kind × String := (t.kind, t.lexeme)

namespace Chunk

variable {policy : Policy}

/-! ## The tokens around a gap -/

/-- The tokens on both sides of a gap. -/
theorem tokens_around (location : Location) (front : List Chunk) (gaps : List (List Char))
    (tail : List Chunk) :
    tokens location (front ++ (gaps.map gap ++ tail)) =
      reports location front ++ tokens (location.after (text front ++ gaps.flatten)) tail := by
  rw [tokens_append, tokens_gaps, ← Location.after_append]

theorem sign_tokenOf (outcome : Except Fault Lexeme) (a b : Location) :
    (tokenOf outcome a).sign = (tokenOf outcome b).sign := by
  cases outcome <;> rfl

/-- What the tokens of a row are does not depend on where the row begins. -/
theorem signs_tokens (a b : Location) (chunks : List Chunk) :
    (tokens a chunks).map Token.sign = (tokens b chunks).map Token.sign := by
  induction chunks generalizing a b with
  | nil => rfl
  | cons chunk chunks ih =>
      cases chunk with
      | gap span => exact ih _ _
      | token span outcome =>
          rw [tokens, tokens, List.map_cons, List.map_cons, sign_tokenOf outcome a b, ih]

/-! ## A row in front of another character -/

theorem head?_text_token (gaps : List (List Char)) {span : List Char}
    {outcome : Except Fault Lexeme} (nonempty : (token span outcome).span ≠ [])
    (rest : List Chunk) :
    ∃ c, (text (gaps.map gap ++ .token span outcome :: rest)).head?.or none = some c := by
  rw [Option.or_none, ← Option.isSome_iff_exists, List.isSome_head?]
  intro empty
  rw [text_append, text_cons] at empty
  exact nonempty (List.append_eq_nil_iff.1 (List.append_eq_nil_iff.1 empty).2).1

/-- A token at the end of a part of a row stands in front of a separator, too. -/
theorem Row.separated {chunks : List Chunk} {span : List Char} {outcome : Except Fault Lexeme}
    {c d : Char} (row : Row policy (chunks ++ [.token span outcome]) (some c))
    (apart : d ∈ separators) (whole : ∀ fault, outcome = .error fault → span.head? ≠ some '$')
    (slash : outcome = .ok (.operator "/") → d ≠ '/') :
    Row policy (chunks ++ [.token span outcome]) (some d) := by
  obtain ⟨-, stands, -⟩ := row_append.1 row
  have standing : (Chunk.token span outcome).Stands policy (some c) := stands
  have separated : (Chunk.token span outcome).Stands policy (some d) :=
    standing.separated apart (fun spells => spells.in_front whole _) (by simp) slash
  have same : text [.token span outcome] = (Chunk.token span outcome).span ++ [] := rfl
  exact row.replace_last ⟨separated, trivial⟩ same

end Chunk

namespace Lexer

open Chunk

/-! ## Cutting a stream -/

/-- The offset behind the steps of the lexer. -/
def reached (l : Lexer) (steps : List Step) : Nat :=
  (steps.getLast?.map fun s => s.next.offset).getD l.offset

/-- The first chunks in front of the lexer are what the steps pass over, and the last one
of them is the token of the last step. -/
structure Reads (l : Lexer) (front : List Chunk) (steps : List Step) : Prop where
  tokens : steps.map Step.token = reports l.location front
  reached : l.reached steps = l.offset + (text front).length
  first : steps = [] → front = []
  last : ∀ t, steps.getLast? = some t → ∃ chunks outcome location,
    front = chunks ++ [.token t.span outcome] ∧ t.token = tokenOf outcome location

theorem reads_nil (l : Lexer) : l.Reads [] [] :=
  ⟨rfl, rfl, fun _ => rfl, by simp⟩

theorem reached_cons (l : Lexer) (s : Step) (steps : List Step) :
    l.reached (s :: steps) = s.next.reached steps := by
  cases steps <;> rfl

variable {l : Lexer}

/-- One more step passes over the gaps in front of the first token and over that token. -/
theorem Reads.cons {gaps : List (List Char)} {outcome : Except Fault Lexeme}
    {front : List Chunk} {steps : List Step} {rest : List Char}
    (token : l.step.token = tokenOf outcome (l.location.after gaps.flatten))
    (next : l.step.next = l.pass (gaps.flatten ++ l.step.span) rest)
    (reads : l.step.next.Reads front steps) :
    l.Reads (gaps.map gap ++ .token l.step.span outcome :: front) (l.step :: steps) := by
  refine ⟨?_, ?_, by simp, ?_⟩
  · rw [List.map_cons, reads.tokens, reports_gaps, reports, token, next, ← Location.after_append]
    rfl
  · have offset : l.step.next.offset = l.offset + (gaps.flatten ++ l.step.span).length := by
      rw [next]
      rfl
    rw [reached_cons, reads.reached, offset, text_append, text_map_gap, text_cons]
    simp only [Chunk.span, List.length_append]
    omega
  · intro t final
    cases steps with
    | nil =>
        cases final
        rw [reads.first rfl]
        exact ⟨gaps.map gap, outcome, _, rfl, token⟩
    | cons s steps =>
        obtain ⟨chunks, last, location, rfl, same⟩ := reads.last t final
        exact ⟨gaps.map gap ++ .token l.step.span outcome :: chunks, last, location, by simp, same⟩

/-- What the steps pass over stands in front of a separator, too. -/
theorem Reads.separated {policy : Policy} {front : List Chunk} {steps : List Step} {c d : Char}
    (reads : l.Reads front steps) (row : Row policy front (some c)) (apart : d ∈ separators)
    (whole : ∀ t, steps.getLast? = some t → t.token.isError = true → t.span.head? ≠ some '$')
    (slash : ∀ t, steps.getLast? = some t → t.token.kind = .operator → t.token.lexeme = "/" →
      d ≠ '/') : Row policy front (some d) := by
  cases final : steps.getLast? with
  | none =>
      rw [reads.first (List.getLast?_eq_none_iff.1 final)]
      trivial
  | some t =>
      obtain ⟨chunks, outcome, location, rfl, same⟩ := reads.last t final
      apply row.separated apart
      · intro fault bad
        exact whole t final (by rw [same, bad]; rfl)
      · intro operator
        subst operator
        exact slash t final (by rw [same]; rfl) (by rw [same]; rfl)

/-- Where the steps of a stream are cut in front of a token, the row of chunks is cut. -/
theorem split_of_steps {chunks : List Chunk} (row : Row l.policy chunks none)
    (ahead : l.rest = text chunks) {before later : List Step} {found : Step}
    (split : l.steps = before ++ found :: later) (more : found.token.isEnding = false) :
    ∃ (front : List Chunk) (gaps : List (List Char)) (outcome : Except Fault Lexeme)
      (rest : List Chunk),
      chunks = front ++ (gaps.map gap ++ .token found.span outcome :: rest) ∧
        l.Reads front before ∧
        found.next.offset = l.offset + (text front ++ gaps.flatten ++ found.span).length := by
  induction before generalizing l chunks with
  | nil =>
      rcases gaps_or_token chunks with ⟨gaps, rfl⟩ | ⟨gaps, span, outcome, rest, rfl⟩
      · -- only the end token is left
        have stepped := step_of_gaps row ahead
        rw [steps_of_ending (by rw [stepped]; rfl), stepped] at split
        cases split
        cases more
      · obtain ⟨token, consumed, next⟩ := step_of_token row ahead
        rw [steps_of_more (by rw [token]; exact isEnding_tokenOf _ _)] at split
        obtain ⟨rfl, -⟩ := List.cons.inj split
        refine ⟨[], gaps, outcome, rest, by rw [consumed]; rfl, reads_nil l, ?_⟩
        rw [next, consumed]
        rfl
  | cons s before ih =>
      rcases gaps_or_token chunks with ⟨gaps, rfl⟩ | ⟨gaps, span, outcome, rest, rfl⟩
      · have stepped := step_of_gaps row ahead
        rw [steps_of_ending (by rw [stepped]; rfl)] at split
        simp at split
      · obtain ⟨token, consumed, next⟩ := step_of_token row ahead
        rw [steps_of_more (by rw [token]; exact isEnding_tokenOf _ _)] at split
        obtain ⟨rfl, others⟩ := List.cons.inj split
        obtain ⟨restRow, restAhead⟩ := row_of_step row ahead
        obtain ⟨front, inner, last, behind, rfl, reads, begins⟩ := ih restRow restAhead others
        rw [← consumed] at next
        refine ⟨gaps.map gap ++ .token l.step.span outcome :: front, inner, last, behind, ?_,
          reads.cons token next, ?_⟩
        · rw [consumed]
          simp
        · rw [begins, next]
          simp [Lexer.pass, Chunk.span]
          omega

end Lexer

/-! ## Exchanging the gap -/

/-- In the text `x ++ g ++ y` the steps `before` end where `x` ends, and the token found next
begins where `y` begins; so `g` is the gap between them. -/
structure Cut (policy : Policy) (x g y : List Char) (before : List Step) (found : Step)
    (later : List Step) : Prop where
  steps : (Lexer.ofText policy (x ++ g ++ y)).steps = before ++ found :: later
  reached : (Lexer.ofText policy (x ++ g ++ y)).reached before = x.length
  more : found.token.isEnding = false
  begins : found.next.offset = (x ++ g ++ found.span).length

/-- The row of a text that is cut. -/
theorem Cut.row {policy : Policy} {x g y : List Char} {before later : List Step} {found : Step}
    (cut : Cut policy x g y before found later) :
    ∃ (front : List Chunk) (gaps : List (List Char)) (outcome : Except Fault Lexeme)
      (rest : List Chunk),
      Chunk.Row policy (front ++ (gaps.map .gap ++ .token found.span outcome :: rest)) none ∧
        (Lexer.ofText policy (x ++ g ++ y)).Reads front before ∧ Chunk.text front = x ∧
        gaps.flatten = g ∧ Chunk.text (.token found.span outcome :: rest) = y := by
  obtain ⟨chunks, row, whole⟩ := Chunk.exists_row policy (x ++ g ++ y)
  obtain ⟨front, gaps, outcome, rest, rfl, reads, begins⟩ :=
    Lexer.split_of_steps (l := .ofText policy _) row whole.symm cut.steps cut.more
  have frontLength : (Chunk.text front).length = x.length := by
    have reached := cut.reached
    rw [reads.reached] at reached
    simpa [Lexer.ofText] using reached
  have gapLength : gaps.flatten.length = g.length := by
    have reached := cut.begins
    rw [begins] at reached
    simp only [Lexer.ofText, List.length_append] at reached
    omega
  rw [Chunk.text_append, Chunk.text_append, Chunk.text_map_gap, List.append_assoc] at whole
  obtain ⟨front_eq, behind⟩ := List.append_inj whole frontLength
  obtain ⟨gap_eq, tail_eq⟩ := List.append_inj behind gapLength
  exact ⟨front, gaps, outcome, rest, row, reads, front_eq, gap_eq, tail_eq⟩

/-- A gap between two tokens may be exchanged for any that is not empty: the tokens stay the
same, and those in front of the gap stay in their places.  The token in front of the gap must
not be a fault inside a string, and if it is a slash no comment may follow it. -/
theorem tokenize_exchange_gap {policy : Policy} {x g y : List Char} {before later : List Step}
    {found : Step} (cut : Cut policy x g y before found later) {other : List Char}
    (gap : Gap policy other) (nonempty : other ≠ [])
    (whole : ∀ t, before.getLast? = some t → t.token.isError = true → t.span.head? ≠ some '$')
    (slash : ∀ t, before.getLast? = some t → t.token.kind = .operator → t.token.lexeme = "/" →
      other.head? ≠ some '/') :
    (tokenize policy (x ++ other ++ y)).map Token.sign =
        (tokenize policy (x ++ g ++ y)).map Token.sign ∧
      before.map Step.token <+: tokenize policy (x ++ other ++ y) := by
  obtain ⟨front, gaps, outcome, rest, row, reads, rfl, rfl, rfl⟩ := cut.row
  obtain ⟨frontRow, behindRow⟩ := Chunk.row_append.1 row
  obtain ⟨-, tailRow⟩ := Chunk.row_append.1 behindRow
  obtain ⟨pieces, rfl, inside⟩ := gap
  have exchanged : Chunk.Row policy
      (front ++ (pieces.map .gap ++ .token found.span outcome :: rest)) none := by
    refine Chunk.row_append.2
      ⟨?_, Chunk.row_append.2 ⟨Chunk.row_of_pieces inside _, tailRow⟩⟩
    obtain ⟨c, old⟩ := Chunk.head?_text_token gaps tailRow.1.span_ne_nil rest
    obtain ⟨d, new, apart⟩ := separator_of_pieces inside nonempty
    rw [old] at frontRow
    rw [Chunk.text_append, Chunk.text_map_gap, List.head?_append, new]
    apply reads.separated frontRow apart whole
    intro t final kind lexeme isSlash
    rw [isSlash] at new
    exact slash t final kind lexeme new
  have exchanged_text : Chunk.text front ++ pieces.flatten ++
      Chunk.text (.token found.span outcome :: rest) =
        Chunk.text (front ++ (pieces.map .gap ++ .token found.span outcome :: rest)) := by
    simp
  have text_eq : Chunk.text front ++ gaps.flatten ++
      Chunk.text (.token found.span outcome :: rest) =
        Chunk.text (front ++ (gaps.map .gap ++ .token found.span outcome :: rest)) := by
    simp
  rw [exchanged_text, tokenize_of_row exchanged, text_eq, tokenize_of_row row,
    Chunk.tokens_around _ front pieces, Chunk.tokens_around _ front gaps]
  constructor
  · rw [List.map_append, List.map_append]
    exact congrArg _ (Chunk.signs_tokens _ _ _)
  · rw [reads.tokens]
    exact List.prefix_append _ _

/-- Two slashes on two lines, and with a semicolon and a comment between them instead. -/
theorem tokenize_exchange_slashes :
    Gap .skip ";/**/".toList ∧
      (tokenize .skip ("1/".toList ++ ";/**/".toList ++ "/2".toList)).map Token.sign =
        (tokenize .skip ("1/".toList ++ "\n".toList ++ "/2".toList)).map Token.sign ∧
      [⟨.integer, "1", ⟨1, 1⟩⟩, ⟨.operator, "/", ⟨1, 2⟩⟩] <+:
        tokenize .skip ("1/".toList ++ ";/**/".toList ++ "/2".toList) := by
  let one := (Lexer.ofText .skip ("1/".toList ++ "\n".toList ++ "/2".toList)).step
  let slash := one.next.step
  let found := slash.next.step
  have cut : Cut .skip "1/".toList "\n".toList "/2".toList [one, slash] found found.next.steps := by
    refine ⟨?_, by decide +kernel, by decide +kernel, by decide +kernel⟩
    rw [Lexer.steps_of_more (by decide +kernel), Lexer.steps_of_more (by decide +kernel),
      Lexer.steps_of_more (by decide +kernel)]
    rfl
  have gap : Gap .skip ";/**/".toList := by
    refine ⟨[[';'], ['/', '*', '*', '/']], by decide, ?_⟩
    simp only [List.mem_cons, List.not_mem_nil, or_false]
    rintro piece (rfl | rfl)
    · exact .punctuation rfl (by decide)
    · exact .block ⟨['*', '/'], rfl, .close 0⟩
  have exchanged := tokenize_exchange_gap cut gap (by decide)
    (fun t last => by cases last; decide +kernel) (fun t last _ _ => by decide)
  have tokens : [one, slash].map Step.token =
      [⟨.integer, "1", ⟨1, 1⟩⟩, ⟨.operator, "/", ⟨1, 2⟩⟩] := by decide +kernel
  rw [tokens] at exchanged
  exact ⟨gap, exchanged⟩

end TeamScript
