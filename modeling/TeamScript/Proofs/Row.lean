/-
# TeamScript.Proofs.Row -- a text as a row of chunks

Chunks stand in a row if each of them may stand in front of what follows it
(`Row`).  Every text is the text of such a row (`exists_row`) and of no other
(`ofText_text`), and the row tells everything about how the text is read:

* `step_of_gaps`, `step_of_token`: a step passes over the gaps in front of the
  first token and over that token, or over the gaps at the end of the text;
* `steps_of_row`, `tokenize_of_row`: the tokens of the stream are those of the
  row, each at the location behind the text before it.

So to say how a text is read it is enough to give a row for it, and two texts
are compared by their rows.
-/
import TeamScript.Lexer
import TeamScript.Proofs.Grammar.Chunk
import TeamScript.Proofs.Place

namespace TeamScript

set_option autoImplicit false

namespace Chunk

variable {policy : Policy}

/-! ## Rows -/

/-- The text that the chunks make up. -/
def text (chunks : List Chunk) : List Char := chunks.flatMap span

@[simp] theorem text_nil : text [] = [] := rfl

@[simp] theorem text_cons (chunk : Chunk) (chunks : List Chunk) :
    text (chunk :: chunks) = chunk.span ++ text chunks := rfl

@[simp] theorem text_append (a b : List Chunk) : text (a ++ b) = text a ++ text b :=
  List.flatMap_append

@[simp] theorem text_map_gap (gaps : List (List Char)) : text (gaps.map gap) = gaps.flatten := by
  induction gaps with
  | nil => rfl
  | cons span gaps ih => simp [ih, Chunk.span]

/-- Each chunk may stand in front of what follows it, the last one in front of `ahead`. -/
def Row (policy : Policy) : List Chunk → Option Char → Prop
  | [], _ => True
  | chunk :: chunks, ahead =>
      chunk.Stands policy ((text chunks).head?.or ahead) ∧ Row policy chunks ahead

theorem row_append {a b : List Chunk} {ahead : Option Char} :
    Row policy (a ++ b) ahead ↔
      Row policy a ((text b).head?.or ahead) ∧ Row policy b ahead := by
  induction a with
  | nil => simp [Row]
  | cons chunk a ih =>
      simp only [List.cons_append, Row, ih, text_append, List.head?_append, Option.or_assoc,
        and_assoc]

/-- The chunks into which a text falls, one reading behind the other. -/
def ofText (policy : Policy) : List Char → List Chunk
  | [] => []
  | c :: more => (Piece.read policy c more).chunk :: ofText policy (Piece.read policy c more).rest
termination_by whole => whole.length
decreasing_by exact Piece.read_rest_length_lt policy c more

theorem row_ofText (policy : Policy) (whole : List Char) :
    Row policy (ofText policy whole) none ∧ text (ofText policy whole) = whole := by
  induction whole using ofText.induct policy with
  | case1 =>
      rw [ofText]
      exact ⟨trivial, rfl⟩
  | case2 c more ih =>
      obtain ⟨row, rest⟩ := ih
      rw [ofText]
      refine ⟨⟨?_, row⟩, ?_⟩
      · rw [rest, Option.or_none]
        exact Piece.read_stands policy c more
      · rw [text_cons, rest, Piece.chunk_span]
        exact Piece.read_splits policy c more

/-- Every text is the text of a row. -/
theorem exists_row (policy : Policy) (whole : List Char) :
    ∃ chunks, Row policy chunks none ∧ text chunks = whole :=
  ⟨ofText policy whole, row_ofText policy whole⟩

theorem Stands.span_ne_nil {chunk : Chunk} {ahead : Option Char}
    (stands : chunk.Stands policy ahead) : chunk.span ≠ [] := by
  cases stands with
  | gap piece =>
      cases piece with
      | block block =>
          obtain ⟨body, rfl, -⟩ := block
          simp [Chunk.span]
      | _ => simp [Chunk.span]
  | string spells => obtain ⟨body, rfl⟩ := spells.first; simp [Chunk.span]
  | name spells => obtain ⟨c, more, rfl, -⟩ := spells.first; simp [Chunk.span]
  | numeral spells _ => obtain ⟨c, more, rfl, -⟩ := spells.first; simp [Chunk.span]
  | word spells => obtain ⟨c, more, rfl, -⟩ := spells.first; simp [Chunk.span]
  | operator spells => obtain ⟨c, more, rfl, -⟩ := spells.first; simp [Chunk.span]
  | _ => simp [Chunk.span]

theorem Row.stands_of_mem {chunks : List Chunk} {ahead : Option Char}
    (row : Row policy chunks ahead) {chunk : Chunk} (member : chunk ∈ chunks) :
    ∃ next, chunk.Stands policy next := by
  induction chunks with
  | nil => cases member
  | cons first chunks ih =>
      rcases List.mem_cons.1 member with rfl | later
      · exact ⟨_, row.1⟩
      · exact ih row.2 later

theorem eq_nil_of_text {chunks : List Chunk} {ahead : Option Char}
    (row : Row policy chunks ahead) (empty : text chunks = []) : chunks = [] := by
  cases chunks with
  | nil => rfl
  | cons chunk chunks => exact absurd (List.append_eq_nil_iff.1 empty).1 row.1.span_ne_nil

/-- The last chunk of a row may be replaced by chunks whose text begins with its text. -/
theorem Row.replace_last {earlier closed : List Chunk} {last : Chunk} {ahead next : Option Char}
    {more : List Char} (row : Row policy (earlier ++ [last]) ahead)
    (closedRow : Row policy closed next) (closedText : text closed = last.span ++ more) :
    Row policy (earlier ++ closed) next := by
  obtain ⟨earlierRow, stands, -⟩ := row_append.1 row
  obtain ⟨c, front, first⟩ := List.exists_cons_of_ne_nil stands.span_ne_nil
  refine row_append.2 ⟨?_, closedRow⟩
  rw [text_cons, first] at earlierRow
  rw [closedText, first]
  exact earlierRow

/-- The first chunk of a row is read where the row begins. -/
theorem Row.read {chunk : Chunk} {chunks : List Chunk} (row : Row policy (chunk :: chunks) none) :
    ∃ c more, text (chunk :: chunks) = c :: more ∧
      (Piece.read policy c more).Yields chunk (text chunks) := by
  obtain ⟨stands, -⟩ := row
  rw [Option.or_none] at stands
  obtain ⟨c, more, front⟩ := List.exists_cons_of_ne_nil stands.span_ne_nil
  have whole : text (chunk :: chunks) = c :: (more ++ text chunks) := by
    rw [text_cons, front, List.cons_append]
  exact ⟨c, _, whole, Piece.read_of_stands stands whole.symm⟩

/-- A text falls into chunks in one way only. -/
theorem ofText_text {chunks : List Chunk} (row : Row policy chunks none) :
    ofText policy (text chunks) = chunks := by
  induction chunks with
  | nil => rw [text_nil, ofText]
  | cons chunk chunks ih =>
      obtain ⟨c, more, front, yields⟩ := row.read
      rw [front, ofText, yields.chunk_eq, yields.rest_eq, ih row.2]

/-- In front of the first token of a row there are only gaps. -/
theorem gaps_or_token (chunks : List Chunk) :
    (∃ gaps : List (List Char), chunks = gaps.map gap) ∨
      ∃ (gaps : List (List Char)) (span : List Char) (outcome : Except Fault Lexeme)
        (later : List Chunk), chunks = gaps.map gap ++ token span outcome :: later := by
  induction chunks with
  | nil => exact .inl ⟨[], rfl⟩
  | cons chunk chunks ih =>
      cases chunk with
      | token span outcome => exact .inr ⟨[], span, outcome, chunks, rfl⟩
      | gap front =>
          rcases ih with ⟨gaps, rfl⟩ | ⟨gaps, span, outcome, later, rfl⟩
          · exact .inl ⟨front :: gaps, rfl⟩
          · exact .inr ⟨front :: gaps, span, outcome, later, rfl⟩

/-! ## Gaps in a row -/

/-- The pieces of a gap stand in front of anything. -/
theorem row_of_pieces {pieces : List (List Char)}
    (inside : ∀ piece ∈ pieces, GapPiece policy piece) (ahead : Option Char) :
    Row policy (pieces.map gap) ahead := by
  induction pieces with
  | nil => trivial
  | cons piece pieces ih =>
      obtain ⟨first, others⟩ := List.forall_mem_cons.1 inside
      exact ⟨.gap first, ih others⟩

/-- In front of a character every piece of a gap is complete. -/
theorem pieces_of_row {pieces : List (List Char)} {c : Char}
    (row : Row policy (pieces.map gap) (some c)) : ∀ piece ∈ pieces, GapPiece policy piece := by
  induction pieces with
  | nil => simp
  | cons piece pieces ih =>
      obtain ⟨stands, row⟩ := row
      refine List.forall_mem_cons.2 ⟨?_, ih row⟩
      generalize next : ((text (pieces.map gap)).head?.or (some c)) = ahead at stands
      cases stands with
      | gap complete => exact complete
      | lastLine _ => simp at next

/-- At the end of a text the last piece of a gap may be a line comment without line feed. -/
theorem lastGap_of_row {pieces : List (List Char)} (row : Row policy (pieces.map gap) none) :
    LastGap policy pieces.flatten := by
  induction pieces with
  | nil => exact .complete gap_nil
  | cons piece pieces ih =>
      obtain ⟨stands, row⟩ := row
      rw [Option.or_none] at stands
      rw [List.flatten_cons]
      generalize next : (text (pieces.map gap)).head? = ahead at stands
      cases stands with
      | gap complete =>
          generalize pieces.flatten = rest at ih
          cases ih row with
          | complete gap => exact .complete (gap.cons complete)
          | lastLine gap within =>
              rw [← List.append_assoc]
              exact .lastLine (gap.cons complete) within
      | lastLine within =>
          rw [List.head?_eq_none_iff, text_map_gap] at next
          rw [next, List.append_nil]
          exact .lastLine gap_nil within

/-! ## The tokens of a row -/

/-- The token that the outcome makes at `location`. -/
def tokenOf (outcome : Except Fault Lexeme) (location : Location) : Token :=
  match outcome with
  | .ok lexeme => ⟨lexeme.kind, lexeme.text, location⟩
  | .error fault => fault.token location

@[simp] theorem tokenOf_location (outcome : Except Fault Lexeme) (location : Location) :
    (tokenOf outcome location).location = location := by
  cases outcome <;> rfl

/-- The tokens of a row that begins at `location`, and the end token behind it. -/
def tokens (location : Location) : List Chunk → List Token
  | [] => [.ending location]
  | .gap span :: chunks => tokens (location.after span) chunks
  | .token span outcome :: chunks =>
      tokenOf outcome location :: tokens (location.after span) chunks

/-- A token of a row is the end token or was made from one of the chunks. -/
theorem mem_tokens {location : Location} {chunks : List Chunk} {t : Token}
    (member : t ∈ tokens location chunks) :
    (∃ place, t = .ending place) ∨
      ∃ span outcome place, token span outcome ∈ chunks ∧ t = tokenOf outcome place := by
  induction chunks generalizing location with
  | nil => exact .inl ⟨location, List.mem_singleton.1 member⟩
  | cons chunk chunks ih =>
      have later {place : Location} (member : t ∈ tokens place chunks) :
          (∃ place, t = .ending place) ∨ ∃ span outcome place,
            token span outcome ∈ chunk :: chunks ∧ t = tokenOf outcome place := by
        rcases ih member with ending | ⟨span, outcome, place, inside, same⟩
        · exact .inl ending
        · exact .inr ⟨span, outcome, place, List.mem_cons_of_mem _ inside, same⟩
      cases chunk with
      | gap span => exact later member
      | token span outcome =>
          rcases List.mem_cons.1 member with rfl | member
          · exact .inr ⟨span, outcome, location, List.mem_cons_self, rfl⟩
          · exact later member

theorem tokens_gaps (location : Location) (gaps : List (List Char)) (later : List Chunk) :
    tokens location (gaps.map gap ++ later) = tokens (location.after gaps.flatten) later := by
  induction gaps generalizing location with
  | nil => rfl
  | cons span gaps ih => simp [tokens, ih, Location.after_append]

/-! ## The tokens of a part of a row -/

/-- The tokens of a part of a row that begins at `location`. -/
def reports (location : Location) : List Chunk → List Token
  | [] => []
  | .gap span :: chunks => reports (location.after span) chunks
  | .token span outcome :: chunks =>
      tokenOf outcome location :: reports (location.after span) chunks

theorem tokens_append (location : Location) (a b : List Chunk) :
    tokens location (a ++ b) = reports location a ++ tokens (location.after (text a)) b := by
  induction a generalizing location with
  | nil => rfl
  | cons chunk a ih =>
      cases chunk <;> simp [tokens, reports, ih, Chunk.span, Location.after_append]

theorem reports_append (location : Location) (a b : List Chunk) :
    reports location (a ++ b) = reports location a ++ reports (location.after (text a)) b := by
  induction a generalizing location with
  | nil => rfl
  | cons chunk a ih =>
      cases chunk <;> simp [reports, ih, Chunk.span, Location.after_append]

/-- Behind the tokens of a whole row there is the end token. -/
theorem tokens_eq_reports (location : Location) (chunks : List Chunk) :
    tokens location chunks =
      reports location chunks ++ [.ending (location.after (text chunks))] := by
  have split := tokens_append location chunks []
  rwa [List.append_nil] at split

theorem reports_gaps (location : Location) (gaps : List (List Char)) (later : List Chunk) :
    reports location (gaps.map gap ++ later) = reports (location.after gaps.flatten) later := by
  induction gaps generalizing location with
  | nil => rfl
  | cons span gaps ih => simp [reports, ih, Location.after_append]

end Chunk

/-! ## Reading a row -/

namespace Lexer

open Chunk

theorem pass_nil (l : Lexer) : l.pass [] l.rest = l := rfl

theorem pass_pass (l : Lexer) (a b middle rest : List Char) :
    (l.pass a middle).pass b rest = l.pass (a ++ b) rest := by
  simp [pass, Location.after_append, Nat.add_assoc]

/-- The lexer stands behind the text `before`. -/
structure Behind (l : Lexer) (before : List Char) : Prop where
  offset : l.offset = before.length
  location : l.location = Location.behind before

theorem behind_ofText (policy : Policy) (text : List Char) : (ofText policy text).Behind [] :=
  ⟨rfl, rfl⟩

theorem Behind.pass {l : Lexer} {before : List Char} (behind : l.Behind before)
    (span rest : List Char) : (l.pass span rest).Behind (before ++ span) := by
  constructor
  · rw [Lexer.pass, behind.offset, List.length_append]
  · rw [Lexer.pass, behind.location, Location.behind_after]

variable {l : Lexer}

theorem seek_gaps {gaps : List (List Char)} {later : List Chunk}
    (row : Row l.policy (gaps.map gap ++ later) none)
    (ahead : l.rest = text (gaps.map gap ++ later)) :
    l.seek = (l.pass gaps.flatten (text later)).seek := by
  induction gaps generalizing l with
  | nil =>
      have same : l.rest = text later := ahead
      rw [List.flatten_nil, ← same, pass_nil]
  | cons span gaps ih =>
      rw [List.map_cons, List.cons_append] at row ahead
      obtain ⟨c, more, front, yields⟩ := row.read
      have sought := ih (l := l.pass span (text (gaps.map gap ++ later))) row.2 rfl
      rw [seek_of_gap (ahead.trans front) yields.eq_gap, sought, pass_pass, List.flatten_cons]

/-- At the end of the gaps behind the last token there is only the end token. -/
theorem step_of_gaps {gaps : List (List Char)} (row : Row l.policy (gaps.map gap) none)
    (ahead : l.rest = text (gaps.map gap)) :
    l.step = ⟨.ending (l.location.after gaps.flatten), [], [], l.pass gaps.flatten []⟩ := by
  have sought := @seek_gaps l gaps [] (by simpa using row) (by simpa using ahead)
  rw [step, sought, seek_of_nil rfl]
  rfl

/-- A step passes over the gaps in front of the first token and over that token. -/
theorem step_of_token {gaps : List (List Char)} {span : List Char}
    {outcome : Except Fault Lexeme} {later : List Chunk}
    (row : Row l.policy (gaps.map gap ++ token span outcome :: later) none)
    (ahead : l.rest = text (gaps.map gap ++ token span outcome :: later)) :
    l.step.token = tokenOf outcome (l.location.after gaps.flatten) ∧ l.step.span = span ∧
      l.step.next = l.pass (gaps.flatten ++ span) (text later) := by
  have sought := seek_gaps row ahead
  obtain ⟨c, more, front, yields⟩ := Row.read (row_append.1 row).2
  obtain ⟨r, found, rfl, rfl, rest⟩ := yields.eq_token
  have reached := seek_of_token (l := l.pass gaps.flatten (text (token _ _ :: later))) front found
  rw [step, sought, reached]
  refine ⟨rfl, rfl, ?_⟩
  rw [← rest]
  exact pass_pass _ _ _ _ _

/-- Behind the first token the lexer has the rest of the row in front of it. -/
theorem row_of_step {gaps : List (List Char)} {span : List Char}
    {outcome : Except Fault Lexeme} {later : List Chunk}
    (row : Row l.policy (gaps.map gap ++ token span outcome :: later) none)
    (ahead : l.rest = text (gaps.map gap ++ token span outcome :: later)) :
    Row l.step.next.policy later none ∧ l.step.next.rest = text later := by
  obtain ⟨-, -, next⟩ := step_of_token row ahead
  rw [next]
  exact ⟨(row_append.1 row).2.2, rfl⟩

/-- A step passes over a part of the text that is left. -/
theorem step_passes (l : Lexer) :
    ∃ consumed, l.rest = consumed ++ l.step.next.rest ∧
      l.step.next = l.pass consumed l.step.next.rest := by
  obtain ⟨chunks, row, ahead⟩ := exists_row l.policy l.rest
  rcases gaps_or_token chunks with ⟨gaps, rfl⟩ | ⟨gaps, span, outcome, later, rfl⟩
  · have stepped := step_of_gaps row ahead.symm
    refine ⟨gaps.flatten, ?_, ?_⟩
    · rw [stepped, ← ahead, text_map_gap]
      exact (List.append_nil _).symm
    · rw [stepped]
      rfl
  · obtain ⟨-, -, next⟩ := step_of_token row ahead.symm
    refine ⟨gaps.flatten ++ span, ?_, ?_⟩
    · rw [next, ← ahead, text_append, text_map_gap, text_cons, List.append_assoc]
      rfl
    · rw [next]
      rfl

theorem isEnding_tokenOf (outcome : Except Fault Lexeme) (location : Location) :
    (tokenOf outcome location).isEnding = false := by
  cases outcome with
  | error fault => rfl
  | ok lexeme => cases lexeme <;> rfl

theorem steps_of_ending (ending : l.step.token.isEnding = true) : l.steps = [l.step] := by
  rw [steps]
  simp [ending]

theorem steps_of_more (more : l.step.token.isEnding = false) :
    l.steps = l.step :: l.step.next.steps := by
  rw [steps]
  simp [more]

/-- The tokens of the stream are those of the row. -/
theorem steps_of_row {l : Lexer} {chunks : List Chunk} (row : Row l.policy chunks none)
    (ahead : l.rest = text chunks) : l.steps.map Step.token = tokens l.location chunks := by
  rcases gaps_or_token chunks with ⟨gaps, rfl⟩ | ⟨gaps, span, outcome, later, rfl⟩
  · have stepped := step_of_gaps row ahead
    rw [steps_of_ending (by rw [stepped]; rfl), stepped]
    have located := tokens_gaps l.location gaps []
    rw [List.append_nil] at located
    rw [located]
    rfl
  · obtain ⟨token, -, next⟩ := step_of_token row ahead
    obtain ⟨rest, behind⟩ := row_of_step row ahead
    have others := steps_of_row rest behind
    rw [steps_of_more (by rw [token]; exact isEnding_tokenOf _ _), List.map_cons, token, others,
      tokens_gaps, next]
    simp [tokens, pass, Location.after_append]
termination_by chunks.length

end Lexer

/-- The stream of a text is read off a row of chunks that makes up the text. -/
theorem tokenize_of_row {policy : Policy} {chunks : List Chunk}
    (row : Chunk.Row policy chunks none) :
    tokenize policy (Chunk.text chunks) = Chunk.tokens .start chunks :=
  Lexer.steps_of_row (l := .ofText policy (Chunk.text chunks)) row rfl

end TeamScript
