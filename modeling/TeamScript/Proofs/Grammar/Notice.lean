/-
# TeamScript.Proofs.Grammar.Notice -- what the readers say about what they read

A reader has nothing to say about a correct piece of text, and about a fault it
says one thing: what it recovered from, quoting the faulty text (`Noted`).  Two
faults pass in silence.  Both are cut short where nothing had to be recovered:
digits and a dot with nothing else, and a string that the end of the text ends.

Besides, the attempt at a name may leave a word about its team code.  It does so
exactly if the code is there and no name is (`Reading.Accounted`), and whether
the code is there can be told by the text of the token alone (`Name.code?_span`).
-/
import Mathlib.Data.List.Basic
import Mathlib.Data.List.Find
import TeamScript.Log
import TeamScript.Proofs.Grammar.Chunk

namespace TeamScript

set_option autoImplicit false

/-! ## What there is to say -/

namespace Fault

/-- The log passes over the fault, whose text is `span`. -/
def isSilent (span : List Char) : Fault → Bool
  | emptyFraction _ => span.getLast? == some '.'
  | openString => !span.contains '\n'
  | _ => false

/-- What the log says about the recovery from the fault. -/
def category : Fault → String
  | unknownCharacter _ => "unknown character"
  | unknownWord _ => "unknown word"
  | doubleDot _ => "number with two dots"
  | emptyFraction _ => "exponent after a dot without fraction"
  | badExponent _ => "exponent without digits"
  | loneBang => "bang without '='"
  | loneDot => "bare dot"
  | forbiddenEscape => "string contains a forbidden escape"
  | openString => "string interrupted by a newline"
  | openComment => "block comment runs into end of input"

/-- How the log quotes the text of the fault. -/
def quotes (span : List Char) : Fault → List (String × FieldValue)
  | unknownCharacter _ => span.map fun c => ("c", .text (quoteChar c))
  | unknownWord _ => [("word", .text (String.ofList span))]
  | doubleDot _ | emptyFraction _ | badExponent _ => [("span", .text (String.ofList span))]
  | loneBang | loneDot | forbiddenEscape | openString | openComment => []

end Fault

/-- The notices about a piece of text. -/
inductive Noted : Except Fault Lexeme → List Char → List Notice → Prop
  | correct {l : Lexeme} {span : List Char} : Noted (.ok l) span []
  | silent {f : Fault} {span : List Char} (silent : f.isSilent span = true) :
      Noted (.error f) span []
  | recovered {f : Fault} {span : List Char} {notice : Notice} (loud : f.isSilent span = false)
      (severity : notice.severity = .debug) (message : notice.message = f.category)
      (detail : notice.detail = f.quotes span) : Noted (.error f) span [notice]

/-- The reading's notices are those about its text. -/
def Reading.Noted (r : Reading) : Prop := TeamScript.Noted r.outcome r.span r.notices

theorem noted_plain (span rest : List Char) (l : Lexeme) : (Reading.plain span rest l).Noted :=
  .correct

/-! ## Numerals -/

namespace Numeral

theorem Exponent.Formed.dot_not_mem {e : Exponent} (formed : e.Formed) : '.' ∉ e.text := by
  have noMark : '.' ≠ e.mark := (ne_of_class formed.mark (by decide)).symm
  have noSign : '.' ∉ e.sign := by
    rcases formed.sign with none_ | ⟨c, isSign, one⟩
    · simp [none_]
    · rw [one, List.mem_singleton]
      exact (ne_of_class isSign (by decide)).symm
  have noDigit : '.' ∉ e.digits := by
    intro member
    cases formed.digits '.' member
  simp [Exponent.text, noMark, noSign, noDigit]

/-- An exponent behind a lone dot is worth a word. -/
theorem getLast?_append_text {e : Exponent} (formed : e.Formed) (mantissa : List Char) :
    (mantissa ++ e.text).getLast? ≠ some '.' := by
  rw [List.getLast?_append_of_ne_nil _ (by simp [Exponent.text])]
  intro last
  exact formed.dot_not_mem (List.mem_of_getLast? last)

theorem finish_noted {shape : Mantissa} {mantissa : List Char} (text : List Char)
    (dot : shape = .dangling → mantissa.getLast? = some '.') :
    (finish shape mantissa text).Noted := by
  unfold finish
  cases found : exponent? text with
  | none =>
      cases shape with
      | whole => exact noted_plain _ _ _
      | fractional => exact noted_plain _ _ _
      | dangling => exact .silent (by simp [Fault.isSilent, Reading.faulty, dot rfl])
  | some er =>
      obtain ⟨e, rest⟩ := er
      obtain ⟨formed, -⟩ := exponent?_formed found
      have complete : Reading.Noted
          (if e.digits.isEmpty then
            let span := mantissa ++ e.text ++ letter rest
            Reading.faulty span (rest.drop (letter rest).length)
              (.badExponent (String.ofList span))
              (some (.exponentWithoutDigits (String.ofList span)))
          else
            let span := mantissa ++ e.text
            .plain span rest (.number (String.ofList span))) := by
        split
        · exact .recovered rfl rfl rfl rfl
        · exact noted_plain _ _ _
      cases shape with
      | whole => exact complete
      | fractional => exact complete
      | dangling =>
          have loud := getLast?_append_text formed mantissa
          exact .recovered (by simpa [Fault.isSilent, Reading.faulty] using loud) rfl rfl rfl

theorem readWhole_noted (whole text : List Char) : (readWhole whole text).Noted := by
  unfold readWhole
  split
  · exact .recovered rfl rfl rfl rfl
  · rename_i more _
    apply finish_noted
    intro dangling
    have empty : digits more = [] := by
      by_cases none_ : (digits more).isEmpty = true
      · simpa using none_
      · rw [if_neg none_] at dangling
        cases dangling
    simp [empty]
  · apply finish_noted
    intro dangling
    cases dangling

theorem readDot_noted (text : List Char) : (readDot text).Noted := by
  unfold readDot
  split
  · split
    · exact .recovered rfl rfl rfl rfl
    · exact .recovered rfl rfl rfl rfl
  · apply finish_noted
    intro dangling
    cases dangling

theorem read_noted (c : Char) (more : List Char) : (read (c :: more)).Noted := by
  rw [read]
  split
  · exact readDot_noted more
  split
  · exact readWhole_noted _ _
  · exact .recovered rfl rfl rfl rfl

theorem Spells.kind_ne_name {span : List Char} {l : Lexeme} {ahead : Option Char}
    (spells : Spells span (.ok l) ahead) : l.kind ≠ .name := by
  generalize same : (Except.ok l : Except Fault Lexeme) = outcome at spells
  cases spells with
  | @bare shape _ _ _ _ _ =>
      cases shape with
      | whole => cases same; simp [Lexeme.kind]
      | fractional => cases same; simp [Lexeme.kind]
      | dangling => cases same
  | scaled _ _ _ _ _ => cases same; simp [Lexeme.kind]
  | _ => cases same

end Numeral

/-! ## The other readers -/

theorem StringLiteral.read_noted (body : List Char) : (read ('$' :: body)).Noted := by
  rcases ends_iff.1 (ends_afterContent body) with
    nil | ⟨more, front⟩ | ⟨more, front⟩ | ⟨more, front⟩
  · rw [read_of_nil nil]
    have line : '\n' ∉ '$' :: content body := by simp [(clean_content body).feed]
    exact .silent (by simpa [Fault.isSilent, Reading.faulty] using line)
  · rw [read_of_dollar front]
    exact noted_plain _ _ _
  · rw [read_of_feed front]
    exact .recovered (by simp [Fault.isSilent, Reading.faulty]) rfl rfl rfl
  · rw [read_of_escape front]
    exact .recovered rfl rfl rfl rfl

theorem Word.read_noted (text : List Char) : (read text).Noted := by
  unfold read
  dsimp only
  split
  · exact noted_plain _ _ _
  · exact .recovered rfl rfl rfl rfl

theorem Operator.readSingle_noted (c : Char) (rest : List Char) : (readSingle c rest).Noted := by
  unfold readSingle
  split
  · exact .recovered rfl rfl rfl rfl
  · exact noted_plain _ _ _

theorem Operator.read_noted (c : Char) (more : List Char) : (read (c :: more)).Noted := by
  cases more with
  | nil => exact readSingle_noted c []
  | cons d rest =>
      rw [read]
      split
      · exact noted_plain _ _ _
      · exact readSingle_noted c (d :: rest)

theorem Comment.read_noted {text : List Char} {r : Reading} (found : read text = .token r) :
    r.Noted := by
  unfold read at found
  dsimp only at found
  split at found
  · cases found
  · split at found
    · cases found
    · cases found
      exact .recovered rfl rfl rfl rfl
  · cases found
    exact noted_plain _ _ _

/-! ## Team codes -/

namespace Name

/-- A text that begins with no digit begins with no team code. -/
theorem code?_of_not_digit {c : Char} (digit : isDigit c = false) (more : List Char) :
    code? (c :: more) = none := by
  cases found : code? (c :: more) with
  | none => rfl
  | some code =>
      have front := append_drop_of_code? found
      obtain ⟨d, others, first⟩ := List.exists_cons_of_ne_nil (code_ne_nil found)
      have digits := isDigit_of_mem_code (List.mem_of_find?_eq_some found)
      rw [first, List.cons_append] at front
      obtain ⟨rfl, -⟩ := List.cons.inj front
      have isDigit := digits d (by simp [first])
      rw [digit] at isDigit
      cases isDigit

/-- A team code at the front of a text is at the front of a piece of it, if the piece holds the
text's digits. -/
theorem code_prefix_of_stops {code : String} {span rest : List Char} (known : code ∈ teamCodes)
    (stops : (∀ c ∈ span, isDigit c = true) → Stops isDigit rest.head?)
    (front : code.toList <+: span ++ rest) : code.toList <+: span := by
  have digits := isDigit_of_mem_code known
  rcases List.prefix_or_prefix_of_prefix front (List.prefix_append span rest) with inside | longer
  · exact inside
  · obtain ⟨more, whole⟩ := longer
    cases more with
    | nil =>
        rw [List.append_nil] at whole
        simp [whole]
    | cons d more =>
        -- the code would go on behind the piece
        rw [← whole] at front digits
        obtain ⟨others, next⟩ := (List.prefix_append_right_inj span).1 front
        have stop := stops fun c member => digits c (List.mem_append_left _ member)
        have digit := digits d (by simp)
        simp [← next, digit] at stop

theorem code?_span {span rest : List Char}
    (stops : (∀ c ∈ span, isDigit c = true) → Stops isDigit rest.head?) :
    code? span = code? (span ++ rest) := by
  apply List.find?_congr
  intro code known
  rw [Bool.eq_iff_iff, List.isPrefixOf_iff_prefix, List.isPrefixOf_iff_prefix]
  exact ⟨fun inside => inside.trans (List.prefix_append span rest),
    code_prefix_of_stops known stops⟩

/-- Where no name is read, any team code is bare. -/
theorem bareCode?_of_none {text : List Char} (none_ : read? text = none) :
    bareCode? text = code? text := by
  rw [read?, Option.map_eq_none_iff, Option.filter_eq_none_iff] at none_
  rw [bareCode?]
  cases found : code? text with
  | none => rfl
  | some code => simp [none_ code found]

end Name

/-- The team code with which a text begins that is of this kind and no name. -/
def Kind.bareCode? (kind : Kind) (span : List Char) : Option String :=
  if kind = .name then none else Name.code? span

namespace Reading

/-- The notices are the one about a bare team code, if there is one, and those about the text
itself. -/
def Accounted (r : Reading) : Prop :=
  ∃ notices, TeamScript.Noted r.outcome r.span notices ∧
    r.notices =
      ((r.token .start).kind.bareCode? r.span).toList.map .bareTeamCode ++ notices

theorem Noted.accounted {r : Reading} (noted : r.Noted) {c : Char} {more : List Char}
    (digit : isDigit c = false) (span : r.span = c :: more) : r.Accounted := by
  refine ⟨r.notices, noted, ?_⟩
  rw [span, Kind.bareCode?, Name.code?_of_not_digit digit, ite_self]
  rfl

end Reading

namespace Piece

/-- Where no name is read, the numeral tells the bare team code. -/
theorem bareCode?_numeral {c : Char} {more : List Char} (digit : isDigit c = true)
    (none_ : Name.read? (c :: more) = none) :
    ((Numeral.read (c :: more)).token .start).kind.bareCode? (Numeral.read (c :: more)).span =
      Name.bareCode? (c :: more) := by
  have spells := Numeral.read_follows (.inl digit) more
  have whole : (Numeral.read (c :: more)).span ++ (Numeral.read (c :: more)).rest = c :: more :=
    Numeral.read_splits (c :: more)
  have kind : ((Numeral.read (c :: more)).token .start).kind ≠ .name := by
    rw [Reading.Follows] at spells
    rw [Reading.token]
    generalize (Numeral.read (c :: more)).outcome = outcome at spells
    cases outcome with
    | ok l => exact spells.kind_ne_name
    | error fault => simp [Fault.token]
  rw [Kind.bareCode?, if_neg kind, Name.code?_span spells.stops_digit, whole,
    Name.bareCode?_of_none none_]

theorem readNameOrNumeral_accounted {c : Char} (digit : isDigit c = true) (more : List Char) :
    (readNameOrNumeral (c :: more)).Accounted := by
  unfold readNameOrNumeral
  split
  · rename_i name found
    simp only [Name.read?, Option.map_eq_some_iff] at found
    obtain ⟨code, -, rfl⟩ := found
    exact ⟨[], .correct, rfl⟩
  · rename_i none_
    have noted := Numeral.read_noted c more
    have code := bareCode?_numeral digit none_
    generalize Numeral.read (c :: more) = r at noted code
    cases bare : Name.bareCode? (c :: more) with
    | none =>
        rw [bare] at code
        exact ⟨r.notices, noted, by rw [code]; rfl⟩
    | some known =>
        rw [bare] at code
        have sameToken : (r.noting (.bareTeamCode known)).token .start = r.token .start := rfl
        exact ⟨r.notices, noted, by rw [sameToken, Reading.noting_span, code]; rfl⟩

/-- The log accounts for every token that is read. -/
theorem read_accounted {policy : Policy} {c : Char} {more : List Char} {r : Reading}
    (found : read policy c more = .token r) : r.Accounted := by
  have whole : r.span ++ r.rest = c :: more := by
    have splits := read_splits policy c more
    rwa [found] at splits
  have nonempty : r.span ≠ [] := by
    have consumed := read_span_ne_nil policy c more
    rwa [found] at consumed
  obtain ⟨d, body, span⟩ := List.exists_cons_of_ne_nil nonempty
  obtain rfl : d = c := by
    rw [span, List.cons_append] at whole
    exact (List.cons.inj whole).1
  by_cases digit : isDigit d = true
  · rw [read_digit digit] at found
    cases found
    exact readNameOrNumeral_accounted digit more
  · have noDigit : isDigit d = false := by simpa using digit
    refine Reading.Noted.accounted ?_ noDigit span
    unfold read at found
    split at found
    · cases found
    split at found
    · exact Comment.read_noted found
    split at found
    · rename_i dollar
      subst dollar
      cases found
      exact StringLiteral.read_noted more
    split at found
    · cases found
      exact Word.read_noted _
    split at found
    · cases found
      exact Numeral.read_noted d more
    split at found
    · cases found
      exact Operator.read_noted d more
    split at found
    · cases found
    · cases found
      exact .recovered rfl rfl rfl rfl

end Piece

end TeamScript
