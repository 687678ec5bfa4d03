/-
# TeamScript.Proofs.Grammar.Chunk -- the whole lexical grammar, faults included

A `Chunk` is a piece of a text without the rest behind it: a piece of a gap, or
the text of a token with what it turned out to be.  `Chunk.Stands policy chunk
ahead` lists every chunk there is, each with its condition on the one character
behind it.  It is the grammar of all texts, not only of correct ones.

* `Piece.read_stands`: what stands at the front of a text is a chunk;
* `Piece.read_of_stands`: a chunk in front of the rest of a text is what is read
  there.

So a text falls into chunks in exactly one way.
-/
import TeamScript.Piece
import TeamScript.Proofs.Grammar.Comment
import TeamScript.Proofs.Grammar.Name
import TeamScript.Proofs.Grammar.Numeral
import TeamScript.Proofs.Grammar.StringLiteral

namespace TeamScript

set_option autoImplicit false

/-! ## Gaps -/

/-- One piece of a gap: a blank, a skipped punctuation character, or a complete
comment. -/
inductive GapPiece (policy : Policy) : List Char → Prop
  | blank {c : Char} (blank : isBlank c = true) : GapPiece policy [c]
  | punctuation {c : Char} (skips : policy = .skip)
      (known : c ∈ ['(', ')', '\x7b', '\x7d', '[', ']', ',', ';', ':']) : GapPiece policy [c]
  | line {text : List Char} (within : '\n' ∉ text) :
      GapPiece policy ('/' :: '/' :: (text ++ ['\n']))
  | block {text : List Char} (block : Comment.Block text) : GapPiece policy text

theorem Policy.skips_iff {policy : Policy} {c : Char} :
    policy.skips c = true ↔
      policy = .skip ∧ c ∈ ['(', ')', '\x7b', '\x7d', '[', ']', ',', ';', ':'] := by
  cases policy with
  | refuse => simp [skips]
  | skip =>
      rw [skips, isPunctuation, List.contains_iff_mem, punctuation]
      simp

theorem GapPiece.of_skips {policy : Policy} {c : Char} (skips : policy.skips c = true) :
    GapPiece policy [c] :=
  .punctuation (Policy.skips_iff.1 skips).1 (Policy.skips_iff.1 skips).2

/-- A gap: any number of pieces, one behind the other. -/
def Gap (policy : Policy) (text : List Char) : Prop :=
  ∃ pieces : List (List Char), pieces.flatten = text ∧ ∀ piece ∈ pieces, GapPiece policy piece

theorem gap_nil {policy : Policy} : Gap policy [] := ⟨[], rfl, by simp⟩

theorem Gap.cons {policy : Policy} {span rest : List Char} (gap : Gap policy rest)
    (piece : GapPiece policy span) : Gap policy (span ++ rest) := by
  obtain ⟨pieces, rfl, inside⟩ := gap
  exact ⟨span :: pieces, rfl, List.forall_mem_cons.2 ⟨piece, inside⟩⟩

/-- A gap at the end of a text, where the last line comment may lack its line feed. -/
inductive LastGap (policy : Policy) : List Char → Prop
  | complete {text : List Char} (gap : Gap policy text) : LastGap policy text
  | lastLine {text line : List Char} (gap : Gap policy text) (within : '\n' ∉ line) :
      LastGap policy (text ++ '/' :: '/' :: line)

/-! ## Chunks -/

/-- The character begins a piece of some kind. -/
def Policy.knows (policy : Policy) (c : Char) : Bool :=
  isBlank c || c == '/' || c == '$' || isDigit c || isLetter c || c == '.' || isOperatorStart c ||
    policy.skips c

inductive Chunk where
  | gap (span : List Char)
  | token (span : List Char) (outcome : Except Fault Lexeme)

namespace Chunk

def span : Chunk → List Char
  | gap span => span
  | token span _ => span

/-- The chunk is in the grammar, and `ahead` may stand behind it. -/
inductive Stands (policy : Policy) : Chunk → Option Char → Prop
  | gap {span : List Char} {ahead : Option Char} (piece : GapPiece policy span) :
      Stands policy (.gap span) ahead
  | lastLine {text : List Char} (within : '\n' ∉ text) :
      Stands policy (.gap ('/' :: '/' :: text)) none
  | slash {ahead : Option Char} (slash : ahead ≠ some '/') (star : ahead ≠ some '*') :
      Stands policy (.token ['/'] (.ok (.operator "/"))) ahead
  | openComment {text : List Char} (unclosed : ∀ body, body <+: text → ¬ Comment.Body body) :
      Stands policy (.token ('/' :: '*' :: text) (.error .openComment)) none
  | string {span : List Char} {outcome : Except Fault Lexeme} {ahead : Option Char}
      (spells : StringLiteral.Spells span outcome ahead) : Stands policy (.token span outcome) ahead
  | name {span : List Char} {outcome : Except Fault Lexeme} {ahead : Option Char}
      (spells : Name.Spells span outcome ahead) : Stands policy (.token span outcome) ahead
  | numeral {span : List Char} {outcome : Except Fault Lexeme} {ahead : Option Char}
      (spells : Numeral.Spells span outcome ahead) (unnamed : ¬ Name.Opens (span ++ ahead.toList)) :
      Stands policy (.token span outcome) ahead
  | word {span : List Char} {outcome : Except Fault Lexeme} {ahead : Option Char}
      (spells : Word.Spells span outcome ahead) : Stands policy (.token span outcome) ahead
  | operator {span : List Char} {outcome : Except Fault Lexeme} {ahead : Option Char}
      (spells : Operator.Spells span outcome ahead) : Stands policy (.token span outcome) ahead
  | unknown {c : Char} {ahead : Option Char} (unknown : policy.knows c = false) :
      Stands policy (.token [c] (.error (.unknownCharacter c))) ahead

end Chunk

/-- The piece without the rest of the text. -/
def Piece.chunk : Piece → Chunk
  | .gap span _ => .gap span
  | .token reading => .token reading.span reading.outcome

@[simp] theorem Piece.chunk_span (p : Piece) : p.chunk.span = p.span := by
  cases p <;> rfl

/-! ## The first character decides -/

namespace Piece

variable {policy : Policy} {c : Char}

theorem read_blank (blank : isBlank c = true) (more : List Char) :
    read policy c more = .gap [c] more := by
  rw [read, if_pos blank]

theorem read_slash (more : List Char) : read policy '/' more = Comment.read ('/' :: more) := rfl

theorem read_dollar (more : List Char) :
    read policy '$' more = .token (StringLiteral.read ('$' :: more)) := rfl

theorem read_dot (more : List Char) :
    read policy '.' more = .token (Numeral.read ('.' :: more)) := rfl

theorem read_digit (digit : isDigit c = true) (more : List Char) :
    read policy c more = .token (readNameOrNumeral (c :: more)) := by
  have blank : isBlank c = false := isBlank_of_class digit (by decide)
  have slash : c ≠ '/' := ne_of_class digit (by decide)
  have dollar : c ≠ '$' := ne_of_class digit (by decide)
  simp [read, blank, slash, dollar, digit]

theorem read_letter (letter : isLetter c = true) (more : List Char) :
    read policy c more = .token (Word.read (c :: more)) := by
  have blank : isBlank c = false := isBlank_of_class letter (by decide)
  have slash : c ≠ '/' := ne_of_class letter (by decide)
  have dollar : c ≠ '$' := ne_of_class letter (by decide)
  simp [read, blank, slash, dollar, isDigit_of_isLetter letter, letter]

theorem read_operator (first : isOperatorStart c = true) (more : List Char) :
    read policy c more = .token (Operator.read (c :: more)) := by
  simp only [isOperatorStart, Bool.or_eq_true, beq_iff_eq, or_assoc] at first
  rcases first with rfl | rfl | rfl | rfl | rfl | rfl | rfl <;> rfl

theorem read_punctuation (skips : policy.skips c = true) (more : List Char) :
    read policy c more = .gap [c] more := by
  obtain ⟨rfl, known⟩ := Policy.skips_iff.1 skips
  simp only [List.mem_cons, List.not_mem_nil, or_false] at known
  rcases known with rfl | rfl | rfl | rfl | rfl | rfl | rfl | rfl | rfl <;> rfl

theorem read_unknown (unknown : policy.knows c = false) (more : List Char) :
    read policy c more =
      .token (.faulty [c] more (.unknownCharacter c) (some (.unknownCharacter c))) := by
  simp only [Policy.knows, Bool.or_eq_false_iff, beq_eq_false_iff_ne] at unknown
  simp [read, unknown]

/-! ## What is read is a chunk -/

/-- The piece is a chunk of the grammar, in front of the rest it left. -/
def Stands (policy : Policy) (p : Piece) : Prop :=
  p.chunk.Stands policy p.rest.head?

theorem line_stands (policy : Policy) (text : List Char) :
    Chunk.Stands policy (.gap ('/' :: '/' :: Comment.line text)) (Comment.afterLine text).head? := by
  have within : '\n' ∉ text.takeWhile (· != '\n') := by
    intro member
    simpa using of_mem_takeWhile _ member
  have stops := stops_dropWhile (· != '\n') text
  rw [Comment.line, Comment.afterLine]
  cases behind : text.dropWhile (· != '\n') with
  | nil => simpa using Chunk.Stands.lastLine within
  | cons c rest =>
      obtain rfl : c = '\n' := by simpa [behind] using stops
      exact .gap (.line within)

theorem comment_stands (policy : Policy) (more : List Char) :
    (Comment.read ('/' :: more)).Stands policy := by
  unfold Comment.read
  simp only [List.take_succ_cons, List.take_zero, List.drop_succ_cons, List.drop_zero]
  split
  · exact line_stands policy _
  · rename_i text
    split
    · rename_i found
      exact .gap (.block ⟨_, rfl, Comment.body_of_blockEnd found⟩)
    · rename_i none_
      exact .openComment (Comment.blockEnd_eq_none_iff.1 none_)
  · rename_i slash star
    refine .slash (fun next => ?_) (fun next => ?_)
    · obtain ⟨text, front⟩ := List.head?_eq_some_iff.1 next
      exact slash text front
    · obtain ⟨text, front⟩ := List.head?_eq_some_iff.1 next
      exact star text front

/-- A text read as a numeral opens no name, and what is read shows it. -/
theorem numeral_stands (policy : Policy) {text : List Char}
    (spells : (Numeral.read text).Follows Numeral.Spells) (unnamed : ¬ Name.Opens text) :
    (Piece.token (Numeral.read text)).Stands policy := by
  refine .numeral spells fun opens => unnamed ?_
  have whole : (Numeral.read text).span ++ (Numeral.read text).rest = text :=
    Numeral.read_splits text
  rw [← whole]
  exact (Name.opens_append_iff spells.stops_digit).2 opens

theorem readNameOrNumeral_stands (policy : Policy) {c : Char} (digit : isDigit c = true)
    (more : List Char) : (Piece.token (readNameOrNumeral (c :: more))).Stands policy := by
  unfold readNameOrNumeral
  split
  · rename_i found
    exact .name (Name.read?_follows found)
  · rename_i none_
    have stands := numeral_stands policy (Numeral.read_follows (.inl digit) more)
      (Name.read?_eq_none_iff.1 none_)
    split <;> exact stands

theorem read_stands (policy : Policy) (c : Char) (more : List Char) :
    (read policy c more).Stands policy := by
  unfold read
  split
  · rename_i blank
    exact .gap (.blank blank)
  split
  · rename_i slash
    subst slash
    exact comment_stands policy more
  split
  · rename_i dollar
    subst dollar
    exact .string (StringLiteral.read_follows more)
  split
  · rename_i digit
    exact readNameOrNumeral_stands policy digit more
  split
  · rename_i letter
    exact .word (Word.read_follows letter more)
  split
  · rename_i dot
    subst dot
    exact numeral_stands policy (Numeral.read_follows (.inr rfl) more)
      (@Name.not_opens_of_dot [] (by simp) more)
  split
  · rename_i first
    exact .operator (Operator.read_follows first more)
  split
  · rename_i skips
    exact .gap (.of_skips skips)
  · exact .unknown (by simp_all [Policy.knows])

/-! ## A chunk is what is read -/

/-- What is read is the chunk, in front of `rest`. -/
structure Yields (p : Piece) (chunk : Chunk) (rest : List Char) : Prop where
  chunk_eq : p.chunk = chunk
  rest_eq : p.rest = rest

theorem yields_gap (span rest : List Char) : (Piece.gap span rest).Yields (.gap span) rest :=
  ⟨rfl, rfl⟩

theorem Yields.eq_gap {p : Piece} {span rest : List Char} (yields : p.Yields (.gap span) rest) :
    p = .gap span rest := by
  obtain ⟨same, behind⟩ := yields
  cases p with
  | gap _ _ =>
      cases same
      cases behind
      rfl
  | token _ => cases same

theorem Yields.eq_token {p : Piece} {span rest : List Char} {outcome : Except Fault Lexeme}
    (yields : p.Yields (.token span outcome) rest) :
    ∃ r, p = .token r ∧ r.Yields span outcome rest := by
  obtain ⟨same, behind⟩ := yields
  cases p with
  | gap _ _ => cases same
  | token r =>
      obtain ⟨rfl, rfl⟩ := Chunk.token.inj same
      exact ⟨r, rfl, rfl, rfl, behind⟩

theorem yields_token {r : Reading} {span rest : List Char} {outcome : Except Fault Lexeme}
    (yields : r.Yields span outcome rest) : (Piece.token r).Yields (.token span outcome) rest :=
  ⟨by rw [chunk, yields.span_eq, yields.outcome_eq], yields.rest_eq⟩

/-- The notice about a bare team code changes nothing about the numeral. -/
theorem readNameOrNumeral_yields {text span rest : List Char} {outcome : Except Fault Lexeme}
    (unnamed : Name.read? text = none) (yields : (Numeral.read text).Yields span outcome rest) :
    (readNameOrNumeral text).Yields span outcome rest := by
  rw [readNameOrNumeral, unnamed]
  dsimp only
  split
  · exact yields.noting _
  · exact yields

theorem gap_yields {policy : Policy} {span rest more : List Char} {c : Char}
    (piece : GapPiece policy span) (whole : c :: more = span ++ rest) :
    (read policy c more).Yields (.gap span) rest := by
  cases piece with
  | blank blank =>
      obtain ⟨rfl, rfl⟩ := List.cons.inj whole
      rw [read_blank blank]
      exact yields_gap _ _
  | punctuation skips known =>
      obtain ⟨rfl, rfl⟩ := List.cons.inj whole
      rw [read_punctuation (Policy.skips_iff.2 ⟨skips, known⟩)]
      exact yields_gap _ _
  | @line text within =>
      have front : '/' :: '/' :: (text ++ ['\n']) ++ rest = '/' :: '/' :: (text ++ '\n' :: rest) := by
        simp
      obtain ⟨rfl, rfl⟩ := List.cons.inj (whole.trans front)
      obtain ⟨line, behind⟩ := Comment.line_of_feed within rest
      rw [read_slash, Comment.read_line, line, behind]
      exact yields_gap _ _
  | block block =>
      obtain ⟨body, rfl, closed⟩ := block
      obtain ⟨rfl, rfl⟩ := List.cons.inj whole
      rw [read_slash, List.append_eq, List.cons_append, Comment.read_body closed]
      exact yields_gap _ _

/-- A chunk in front of the rest of a text is what is read there. -/
theorem read_of_stands {policy : Policy} {chunk : Chunk} {rest more : List Char} {c : Char}
    (stands : chunk.Stands policy rest.head?) (whole : c :: more = chunk.span ++ rest) :
    (read policy c more).Yields chunk rest := by
  generalize behind : rest.head? = ahead at stands
  cases stands with
  | gap piece => exact gap_yields piece whole
  | @lastLine text within =>
      obtain rfl : rest = [] := by simpa using behind
      obtain ⟨rfl, rfl⟩ := List.cons.inj (whole.trans (List.append_nil _))
      obtain ⟨line, left⟩ := Comment.line_of_not_mem within
      rw [read_slash, Comment.read_line, line, left]
      exact yields_gap _ _
  | slash slash star =>
      subst behind
      obtain ⟨rfl, rfl⟩ := List.cons.inj whole
      rw [read_slash, Comment.read_slash slash star]
      exact yields_token (Reading.yields_plain _ _ _)
  | openComment unclosed =>
      obtain rfl : rest = [] := by simpa using behind
      obtain ⟨rfl, rfl⟩ := List.cons.inj (whole.trans (List.append_nil _))
      rw [read_slash, Comment.read_unclosed unclosed]
      exact yields_token (Reading.yields_faulty _ _ _ _)
  | string spells =>
      subst behind
      obtain ⟨body, rfl⟩ := spells.first
      obtain ⟨rfl, rfl⟩ := List.cons.inj whole
      rw [read_dollar]
      exact yields_token (StringLiteral.read_yields spells)
  | @name span outcome _ spells =>
      subst behind
      obtain ⟨d, body, rfl, digit⟩ := spells.first
      obtain ⟨rfl, rfl⟩ := List.cons.inj whole
      obtain ⟨r, found, yields⟩ := Name.read?_yields spells
      rw [read_digit digit, List.append_eq, ← List.cons_append, readNameOrNumeral, found]
      exact yields_token yields
  | numeral spells unnamed =>
      subst behind
      have yields := Numeral.read_yields spells
      rw [← Name.opens_append_iff spells.stops_digit] at unnamed
      obtain ⟨d, body, rfl, digit | rfl⟩ := spells.first
      · obtain ⟨rfl, rfl⟩ := List.cons.inj whole
        rw [read_digit digit]
        exact yields_token (readNameOrNumeral_yields (Name.read?_eq_none_iff.2 unnamed) yields)
      · obtain ⟨rfl, rfl⟩ := List.cons.inj whole
        rw [read_dot]
        exact yields_token yields
  | word spells =>
      subst behind
      obtain ⟨d, body, rfl, letter⟩ := spells.first
      obtain ⟨rfl, rfl⟩ := List.cons.inj whole
      rw [read_letter letter]
      exact yields_token (Word.read_yields spells)
  | operator spells =>
      subst behind
      obtain ⟨d, body, rfl, first⟩ := spells.first
      obtain ⟨rfl, rfl⟩ := List.cons.inj whole
      rw [read_operator first]
      exact yields_token (Operator.read_yields spells)
  | unknown unknown =>
      obtain ⟨rfl, rfl⟩ := List.cons.inj whole
      rw [read_unknown unknown]
      exact yields_token (Reading.yields_faulty _ _ _ _)

end Piece

end TeamScript
