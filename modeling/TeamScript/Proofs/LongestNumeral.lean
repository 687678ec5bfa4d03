/-
# TeamScript.Proofs.LongestNumeral -- numerals as longest matches

The numeric literals are a small language of their own (`Numeral.Literal`), and
the reader of numerals takes the longest one in front of the text, whatever it
makes of the characters on its way there.  There is one condition: the character
behind the literal must not be a dot or a mark that would have gone on with it
(`Numeral.Accepts`).  Where it is, and where no literal stands in front, the text
is faulty in one of five ways, and each of them is a longest match too
(`Numeral.Malformed`).

Nothing here is computed.  That a longest match ends where the reader stops
follows from what one more character would make of it (`Longest.stops`), so the
matches are forms of the grammar (`Accepts.spells`, `Malformed.spells`).  One of
them there always is, because among the matches that there are one is the
longest (`exists_longest`, `accepts_or_malformed`).
-/
import TeamScript.Cursor.Scan
import TeamScript.Proofs.Grammar.Numeral

namespace TeamScript

set_option autoImplicit false

namespace Numeral

/-! ## The languages at the front of a text -/

/-- The literal is the longest in front of the text, and the character behind it is neither a dot
behind digits alone nor a mark where there is no exponent. -/
structure Accepts (text literal : List Char) : Prop where
  longest : Longest Literal text literal
  dot : (∀ c ∈ literal, isDigit c = true) → text[literal.length]? ≠ some '.'
  mark : Unscaled literal → text[literal.length]? ≠ some 'e' ∧ text[literal.length]? ≠ some 'E'

/-- The faulty texts, with the part that the fault takes up and its message. -/
inductive Malformed (text : List Char) : List Char → String → Prop
  | loneDot {more : List Char} (front : text = '.' :: more)
      (other : ∀ c, more.head? = some c → isDigit c = false ∧ c ≠ 'e' ∧ c ≠ 'E') :
      Malformed text ['.'] "."
  | dotExponent {span : List Char} (longest : Longest DotTail text span) :
      Malformed text span ("bad exponent: " ++ String.ofList span)
  | doubleDot {span : List Char} (longest : Longest DoubleDot text span) :
      Malformed text span ("malformed number: " ++ String.ofList span)
  | emptyFraction {mantissa more tail : List Char} (spells : Mantissa.dangling.Spells mantissa)
      (front : text = mantissa ++ more)
      (other : ∀ c, more.head? = some c → isDigit c = false ∧ c ≠ '.')
      (longest : Longest (fun part => part = [] ∨ Tail part) more tail) :
      Malformed text (mantissa ++ tail) ("malformed float: " ++ String.ofList (mantissa ++ tail))
  | badExponent {literal mark letter behind : List Char} (longest : Longest Literal text literal)
      (unscaled : Unscaled literal) (split : text = literal ++ (mark ++ behind))
      (marked : Longest Mark (mark ++ behind) mark)
      (one : Longest OneLetter behind letter) :
      Malformed text (literal ++ mark ++ letter)
        ("bad exponent: " ++ String.ofList (literal ++ mark ++ letter))

/-! ## One more character -/

theorem forall_mem_append_singleton {run : List Char} {c : Char}
    (digits : ∀ d ∈ run, isDigit d = true) (digit : isDigit c = true) :
    ∀ d ∈ run ++ [c], isDigit d = true :=
  List.forall_mem_append.2 ⟨digits, by simpa using digit⟩

theorem Tail.add_digit {tail : List Char} (isTail : Tail tail) {c : Char}
    (digit : isDigit c = true) : Power (tail ++ [c]) := by
  obtain ⟨marked, digits⟩ := isTail
  rw [List.append_assoc]
  exact .mk marked (by simp) (forall_mem_append_singleton digits digit)

theorem Exponent.Formed.add_sign {e : Exponent} (formed : e.Formed) (unsigned : e.sign = [])
    (bare : e.digits = []) {c : Char} (sign : isSign c = true) : Mark (e.text ++ [c]) := by
  rw [Exponent.text, unsigned, bare]
  exact mark_iff.2 ⟨formed.mark, .inr ⟨c, sign, rfl⟩⟩

theorem Unscaled.add_digit {text : List Char} (unscaled : Unscaled text) {c : Char}
    (digit : isDigit c = true) : Unscaled (text ++ [c]) := by
  cases unscaled with
  | whole spells =>
      cases spells with
      | whole nonempty digits =>
          exact .whole (.whole (by simp) (forall_mem_append_singleton digits digit))
  | fractional spells =>
      cases spells with
      | fractional digits nonempty fractionDigits =>
          rw [List.append_assoc, List.cons_append]
          exact .fractional
            (.fractional digits (by simp) (forall_mem_append_singleton fractionDigits digit))

theorem Literal.add_digit {text : List Char} (literal : Literal text) {c : Char}
    (digit : isDigit c = true) : Literal (text ++ [c]) := by
  cases literal with
  | unscaled unscaled => exact .unscaled (unscaled.add_digit digit)
  | scaled unscaled scaled =>
      rw [List.append_assoc]
      exact .scaled unscaled (scaled.tail.add_digit digit)

/-- An exponent that is matched as far as it goes has ended. -/
theorem Exponent.Formed.ends_of_longest {p : List Char → Prop} {front rest : List Char}
    {e : Exponent} (formed : e.Formed)
    (longest : Longest p (front ++ e.text ++ rest) (front ++ e.text))
    (goesOn : ∀ tail, Tail tail → p (front ++ tail)) : e.Ends rest.head? := by
  constructor
  · apply longest.stops
    intro c digit
    rw [List.append_assoc]
    exact goesOn _ (formed.tail.add_digit digit).tail
  · intro unsigned bare
    apply longest.stops
    intro c sign
    rw [List.append_assoc]
    exact goesOn _ (formed.add_sign unsigned bare sign).tail

/-! ## Matches are forms -/

/-- What a literal is. -/
def lexeme (literal : List Char) : Lexeme :=
  if literal.all isDigit then .integer (String.ofList literal) else .number (String.ofList literal)

theorem lexeme_of_digits {run : List Char} (digits : ∀ c ∈ run, isDigit c = true) :
    lexeme run = .integer (String.ofList run) := by
  rw [lexeme, if_pos (List.all_eq_true.2 digits)]

theorem lexeme_of_mem {literal : List Char} {c : Char} (member : c ∈ literal)
    (other : isDigit c = false) : lexeme literal = .number (String.ofList literal) := by
  rw [lexeme, if_neg]
  intro digits
  rw [List.all_eq_true.1 digits c member] at other
  cases other

theorem getElem?_length (part rest : List Char) : (part ++ rest)[part.length]? = rest.head? := by
  rw [List.getElem?_append_right (Nat.le_refl _), Nat.sub_self, List.head?_eq_getElem?]

theorem stops_mark {ahead : Option Char} (other : ahead ≠ some 'e' ∧ ahead ≠ some 'E') :
    Stops isExponentMark ahead := by
  cases ahead with
  | none => exact stops_none _
  | some c =>
      rw [stops_some, ← Bool.not_eq_true]
      simp only [isExponentMark, Bool.or_eq_true, beq_iff_eq]
      rintro (rfl | rfl)
      · exact other.1 rfl
      · exact other.2 rfl

/-- A literal that is accepted is a form of the grammar. -/
theorem Accepts.spells {literal rest : List Char} (accepts : Accepts (literal ++ rest) literal) :
    Spells literal (.ok (lexeme literal)) rest.head? := by
  obtain ⟨longest, dot, mark⟩ := accepts
  rw [getElem?_length] at dot mark
  have digit : Stops isDigit rest.head? :=
    longest.stops fun c digit => longest.holds.add_digit digit
  cases longest.holds with
  | unscaled unscaled =>
      have noMark := stops_mark (mark unscaled)
      cases unscaled with
      | whole spells =>
          have digits : ∀ c ∈ literal, isDigit c = true := by
            cases spells with
            | whole _ digits => exact digits
          rw [lexeme_of_digits digits]
          have noDot := stops_singleton (dot digits)
          exact .bare spells (stops_or.2 ⟨digit, noDot⟩) noMark
      | fractional spells =>
          have isDot : '.' ∈ literal := by
            cases spells with
            | fractional _ _ _ => simp
          rw [lexeme_of_mem isDot rfl]
          exact .bare spells digit noMark
  | @scaled text _ unscaled scaled =>
      obtain ⟨e, formed, power, rfl⟩ := scaled.exists_exponent
      have marked : isDigit e.mark = false :=
        isDigit_of_isLetter (isLetter_of_isExponentMark formed.mark)
      rw [lexeme_of_mem (c := e.mark) (by simp [Exponent.text]) marked]
      obtain ⟨shape, complete, spells⟩ := unscaled.exists_shape
      exact .scaled spells complete formed power digit

/-- A mark behind the longest literal has ended if neither a digit, with which the literal would be
longer, nor another sign follows. -/
theorem Exponent.Formed.ends_of_marked {e : Exponent} {literal rest : List Char}
    (formed : e.Formed) (longest : Longest Literal (literal ++ (e.text ++ rest)) literal)
    (unscaled : Unscaled literal) (marked : Longest Mark (e.text ++ rest) e.text) :
    e.Ends rest.head? := by
  constructor
  · intro c next
    obtain ⟨more, rfl⟩ := List.head?_eq_some_iff.1 next
    cases digit : isDigit c with
    | false => rfl
    | true =>
        have split : e.text ++ c :: more = e.text ++ [c] ++ more := by simp
        rw [split] at longest
        have beyond := longest.not_more (by simp)
        exact absurd (.scaled unscaled (formed.tail.add_digit digit)) beyond
  · intro unsigned bare
    apply marked.stops
    intro c sign
    exact formed.add_sign unsigned bare sign

/-- At most one letter, as far as there is one, is what an exponent takes along. -/
theorem extra_of_longest {e : Exponent} {letter rest : List Char}
    (one : Longest OneLetter (letter ++ rest) letter)
    (ends : letter = [] → e.Ends rest.head?) : Extra e letter rest.head? := by
  obtain ⟨short, letters⟩ := one.holds
  match letter with
  | [] =>
      refine .none (ends rfl) ?_
      apply one.stops
      intro c isLetter
      exact ⟨Nat.le_refl 1, by simpa using isLetter⟩
  | [c] => exact .letter (letters c (by simp))
  | _ :: _ :: _ => simp at short

/-- A fault is a form of the grammar. -/
theorem Malformed.spells {text span : List Char} {message : String}
    (malformed : Malformed text span message) :
    ∃ fault rest, text = span ++ rest ∧ fault.message = message ∧
      Spells span (.error fault) rest.head? := by
  cases malformed with
  | @loneDot more front other =>
      have digit : Stops isDigit more.head? := fun c next => (other c next).1
      have mark : Stops isExponentMark more.head? := by
        apply stops_mark
        exact ⟨fun next => (other 'e' next).2.1 rfl, fun next => (other 'E' next).2.2 rfl⟩
      exact ⟨.loneDot, more, front, rfl, .loneDot digit mark⟩
  | dotExponent longest =>
      obtain ⟨rest, whole⟩ := longest.front
      obtain ⟨_, tail, rfl⟩ := longest.holds
      obtain ⟨e, formed, rfl⟩ := tail.exists_exponent
      rw [← whole] at longest
      have ends : e.Ends rest.head? :=
        @Exponent.Formed.ends_of_longest _ ['.'] rest e formed longest
          fun tail isTail => ⟨tail, isTail, rfl⟩
      exact ⟨.badExponent _, rest, whole.symm, rfl, .dotExponent formed ends⟩
  | doubleDot longest =>
      obtain ⟨rest, whole⟩ := longest.front
      obtain ⟨run, more, nonempty, digits, moreDigits, rfl⟩ := longest.holds
      rw [← whole] at longest
      have stops : Stops isDigit rest.head? := by
        apply longest.stops
        intro c digit
        exact ⟨run, more ++ [c], nonempty, digits, forall_mem_append_singleton moreDigits digit,
          by simp⟩
      exact ⟨.doubleDot _, rest, whole.symm, rfl, .doubleDot longest.holds stops⟩
  | @emptyFraction mantissa more tail spells front other longest =>
      obtain ⟨rest, whole⟩ := longest.front
      have split : text = mantissa ++ tail ++ rest := by simp [front, whole]
      refine ⟨.emptyFraction _, rest, split, rfl, ?_⟩
      rw [← whole] at longest
      rcases longest.holds with rfl | isTail
      · -- no mark stands behind the dot, because with one the tail would not be empty
        have same : rest = more := whole
        rw [← same] at other
        have digit : Stops isDigit rest.head? := fun c next => (other c next).1
        have dot : Stops (· == '.') rest.head? := stops_singleton fun next => (other '.' next).2 rfl
        have mark : Stops isExponentMark rest.head? :=
          longest.stops fun c mark => .inr (mark_singleton mark).tail
        rw [List.append_nil]
        exact .bare spells (stops_or.2 ⟨digit, dot⟩) mark
      · obtain ⟨e, formed, rfl⟩ := isTail.exists_exponent
        have ends : e.Ends rest.head? :=
          @Exponent.Formed.ends_of_longest _ [] rest e formed longest fun tail => .inr
        exact .dangling spells formed ends
  | @badExponent literal mark letter behind longest unscaled split marked one =>
      obtain ⟨rest, whole⟩ := one.front
      obtain ⟨e, formed, bare, same⟩ := @Mark.exists_exponent _ [] marked.holds (by simp)
      rw [List.append_nil] at same
      subst same
      subst whole
      rw [split] at longest
      have ends : letter = [] → e.Ends rest.head? := by
        rintro rfl
        exact formed.ends_of_marked longest unscaled marked
      have extra := extra_of_longest one ends
      obtain ⟨shape, complete, spells⟩ := unscaled.exists_shape
      exact ⟨.badExponent _, rest, by simp [split], rfl,
        .unscaled spells complete formed bare extra⟩

/-- A text is accepted or faulty, but not both. -/
theorem Accepts.not_malformed {text literal span : List Char} {message : String}
    (accepts : Accepts text literal) : ¬ Malformed text span message := by
  intro malformed
  obtain ⟨rest, rfl⟩ := accepts.longest.front
  obtain ⟨fault, behind, whole, -, spells⟩ := malformed.spells
  have correct := read_yields accepts.spells
  have faulty := read_yields spells
  rw [← whole] at faulty
  have same := correct.outcome_eq.symm.trans faulty.outcome_eq
  cases same

/-! ## There always is a match -/

theorem Unscaled.ne_nil {text : List Char} (unscaled : Unscaled text) : text ≠ [] := by
  obtain ⟨shape, -, spells⟩ := unscaled.exists_shape
  cases spells with
  | whole nonempty _ => exact nonempty
  | _ => simp

theorem Literal.ne_nil {text : List Char} (literal : Literal text) : text ≠ [] := by
  cases literal with
  | unscaled unscaled => exact unscaled.ne_nil
  | scaled unscaled _ => simp [unscaled.ne_nil]

/-- A mark behind a literal without exponent. -/
theorem malformed_of_mark {literal later : List Char} {mark : Char}
    (longest : Longest Literal (literal ++ mark :: later) literal) (unscaled : Unscaled literal)
    (isMark : isExponentMark mark = true) :
    ∃ span message, Malformed (literal ++ mark :: later) span message := by
  have first : [mark] <+: mark :: later := ⟨later, rfl⟩
  obtain ⟨marked, markedLongest⟩ := exists_longest first (mark_singleton isMark)
  obtain ⟨behind, whole⟩ := markedLongest.front
  have none_ : OneLetter [] := ⟨Nat.zero_le 1, by simp⟩
  obtain ⟨letter, one⟩ := exists_longest (List.nil_prefix (l := behind)) none_
  rw [← whole] at markedLongest
  exact ⟨_, _, .badExponent longest unscaled (by rw [whole]) markedLongest one⟩

/-- A dot behind digits that are the longest literal. -/
theorem malformed_of_dot {run later : List Char}
    (longest : Longest Literal (run ++ '.' :: later) run) (digits : ∀ c ∈ run, isDigit c = true) :
    ∃ span message, Malformed (run ++ '.' :: later) span message := by
  have nonempty := longest.holds.ne_nil
  by_cases second : later.head? = some '.'
  · obtain ⟨more, rfl⟩ := List.head?_eq_some_iff.1 second
    have front : run ++ ['.', '.'] <+: run ++ '.' :: '.' :: more := ⟨more, by simp⟩
    have dots : DoubleDot (run ++ ['.', '.']) := ⟨run, [], nonempty, digits, by simp, rfl⟩
    obtain ⟨span, doubled⟩ := exists_longest front dots
    exact ⟨_, _, .doubleDot doubled⟩
  · have other : ∀ c, later.head? = some c → isDigit c = false ∧ c ≠ '.' := by
      intro c next
      obtain ⟨more, rfl⟩ := List.head?_eq_some_iff.1 next
      constructor
      · cases digit : isDigit c with
        | false => rfl
        | true =>
            -- with a digit behind the dot the literal would be longer
            have beyond := @Longest.not_more _ run more ['.', c] longest (by simp)
            have fraction : Unscaled (run ++ ['.', c]) :=
              .fractional (.fractional digits (by simp) (by simpa using digit))
            exact absurd (.unscaled fraction) beyond
      · rintro rfl
        exact second rfl
    obtain ⟨tail, ends⟩ := exists_longest (p := fun part => part = [] ∨ Tail part)
      (List.nil_prefix (l := later)) (.inl rfl)
    exact ⟨_, _, .emptyFraction (.dangling nonempty digits) (by simp) other ends⟩

/-- Without a literal in front there is a dot alone, or one with an exponent. -/
theorem malformed_of_no_literal {d : Char} {more : List Char} (first : isDigit d = true ∨ d = '.')
    (none_ : ∀ part, part <+: d :: more → ¬ Literal part) :
    ∃ span message, Malformed (d :: more) span message := by
  have dot : d = '.' := by
    rcases first with digit | dot
    · have alone : Literal [d] := .unscaled (.whole (.whole (by simp) (by simpa using digit)))
      exact absurd alone (none_ [d] ⟨more, rfl⟩)
    · exact dot
  subst dot
  have noDigit : Stops isDigit more.head? := by
    intro c next
    obtain ⟨later, rfl⟩ := List.head?_eq_some_iff.1 next
    cases digit : isDigit c with
    | false => rfl
    | true =>
        have fraction : Unscaled ([] ++ '.' :: [c]) :=
          .fractional (.fractional (by simp) (by simp) (by simpa using digit))
        exact absurd (.unscaled fraction) (none_ ['.', c] ⟨later, rfl⟩)
  by_cases marked : ∃ c, more.head? = some c ∧ isExponentMark c = true
  · obtain ⟨c, next, mark⟩ := marked
    obtain ⟨later, rfl⟩ := List.head?_eq_some_iff.1 next
    have front : ['.', c] <+: '.' :: c :: later := ⟨later, rfl⟩
    have dotted : DotTail ['.', c] := ⟨[c], (mark_singleton mark).tail, rfl⟩
    obtain ⟨span, longest⟩ := exists_longest front dotted
    exact ⟨_, _, .dotExponent longest⟩
  · refine ⟨_, _, .loneDot rfl fun c next => ⟨noDigit c next, ?_, ?_⟩⟩
    · rintro rfl
      exact marked ⟨'e', next, rfl⟩
    · rintro rfl
      exact marked ⟨'E', next, rfl⟩

theorem accepts_or_malformed {d : Char} {more : List Char} (first : isDigit d = true ∨ d = '.') :
    (∃ literal, Accepts (d :: more) literal) ∨
      ∃ span message, Malformed (d :: more) span message := by
  by_cases some_ : ∃ part, part <+: d :: more ∧ Literal part
  · obtain ⟨part, front, holds⟩ := some_
    obtain ⟨literal, longest⟩ := exists_longest front holds
    obtain ⟨rest, whole⟩ := longest.front
    -- the character behind the literal decides
    rw [← whole] at longest ⊢
    by_cases marked : Unscaled literal ∧ ∃ c, rest.head? = some c ∧ isExponentMark c = true
    · obtain ⟨unscaled, c, next, mark⟩ := marked
      obtain ⟨later, rfl⟩ := List.head?_eq_some_iff.1 next
      exact .inr (malformed_of_mark longest unscaled mark)
    by_cases dotted : (∀ c ∈ literal, isDigit c = true) ∧ rest.head? = some '.'
    · obtain ⟨digits, next⟩ := dotted
      obtain ⟨later, rfl⟩ := List.head?_eq_some_iff.1 next
      exact .inr (malformed_of_dot longest digits)
    · refine .inl ⟨literal, longest, ?_, ?_⟩
      · rw [getElem?_length]
        exact fun digits next => dotted ⟨digits, next⟩
      · rw [getElem?_length]
        exact fun unscaled => ⟨fun next => marked ⟨unscaled, 'e', next, rfl⟩,
          fun next => marked ⟨unscaled, 'E', next, rfl⟩⟩
  · refine .inr (malformed_of_no_literal first fun part front holds => ?_)
    exact some_ ⟨part, front, holds⟩

end Numeral

/-! ## The reader at a cursor -/

namespace Cursor

open Numeral

/-- What is read at a cursor is what stands there. -/
theorem scan_of_spells {c : Cursor} {span rest : List Char} {outcome : Except Fault Lexeme}
    (whole : c.rest = span ++ rest) (spells : Spells span outcome rest.head?)
    (start : Location) :
    c.scan start .numeral =
      (.token ((⟨span, rest, outcome, []⟩ : Reading).token start), c.pass span) := by
  have yields := Numeral.read_yields spells
  rw [← whole] at yields
  rw [scan, take, Reading.token, yields.outcome_eq, yields.span_eq]
  rfl

theorem scan_of_accepts {c : Cursor} {literal : List Char} (accepts : Accepts c.rest literal)
    (start : Location) :
    c.scan start .numeral =
      (.token ⟨if literal.all isDigit then .integer else .number, String.ofList literal, start⟩,
        c.pass literal) := by
  obtain ⟨rest, whole⟩ := accepts.longest.front
  rw [← whole] at accepts
  rw [scan_of_spells whole.symm accepts.spells start, lexeme]
  cases literal.all isDigit <;> rfl

theorem scan_of_malformed {c : Cursor} {span : List Char} {message : String}
    (malformed : Malformed c.rest span message) (start : Location) :
    c.scan start .numeral = (.token ⟨.error, message, start⟩, c.pass span) := by
  obtain ⟨fault, rest, whole, told, spells⟩ := malformed.spells
  rw [scan_of_spells whole spells start, ← told]
  rfl

/-- In front of a digit or a dot the reader of numerals takes the longest literal, if that is
accepted, and else the text of the fault that is there.  Behind a lone dot it stands one column
further. -/
theorem scan_numeral_longest {c : Cursor} (start : Location)
    (first : ∃ d, c.rest.head? = some d ∧ (isDigit d = true ∨ d = '.')) :
    (∃ t behind, c.scan start .numeral = (.token t, behind) ∧
      (t.kind ≠ .error ↔ ∃ literal, Accepts c.rest literal) ∧
      (t.kind = .error ↔ ∃ span message, Malformed c.rest span message)) ∧
    (∀ literal, Accepts c.rest literal →
      c.scan start .numeral =
        (.token ⟨if literal.all isDigit then .integer else .number, String.ofList literal, start⟩,
          c.pass literal) ∧
      c.rest = literal ++ (c.pass literal).rest) ∧
    (∀ span message, Malformed c.rest span message →
      c.scan start .numeral = (.token ⟨.error, message, start⟩, c.pass span) ∧
      c.rest = span ++ (c.pass span).rest) ∧
    ∀ more, c.rest = '.' :: more →
      (∀ d, more.head? = some d → isDigit d = false ∧ d ≠ 'e' ∧ d ≠ 'E') →
      ∃ behind, c.scan start .numeral = (.token ⟨.error, ".", start⟩, behind) ∧
        behind.rest = more ∧ behind.location = ⟨c.location.line, c.location.column + 1⟩ := by
  obtain ⟨d, next, first⟩ := first
  obtain ⟨more, ahead⟩ := List.head?_eq_some_iff.1 next
  refine ⟨?_, fun literal accepts => ⟨scan_of_accepts accepts start, ?_⟩,
    fun span message malformed => ⟨scan_of_malformed malformed start, ?_⟩, ?_⟩
  · have correct {literal : List Char} :
        (if literal.all isDigit = true then Kind.integer else Kind.number) ≠ Kind.error := by
      cases literal.all isDigit <;> simp
    rcases @accepts_or_malformed d more first with ⟨literal, accepts⟩ | ⟨span, message, malformed⟩
    · rw [← ahead] at accepts
      refine ⟨_, _, scan_of_accepts accepts start, ⟨fun _ => ⟨literal, accepts⟩, fun _ => correct⟩,
        ⟨fun isError => absurd isError correct, ?_⟩⟩
      rintro ⟨span, message, malformed⟩
      exact absurd malformed accepts.not_malformed
    · rw [← ahead] at malformed
      refine ⟨_, _, scan_of_malformed malformed start, ⟨fun correct => absurd rfl correct, ?_⟩,
        ⟨fun _ => ⟨span, message, malformed⟩, fun _ => rfl⟩⟩
      rintro ⟨literal, accepts⟩
      exact absurd malformed accepts.not_malformed
  · obtain ⟨rest, whole⟩ := accepts.longest.front
    rw [rest_pass whole.symm, whole]
  · obtain ⟨_, rest, whole, -⟩ := malformed.spells
    rw [rest_pass whole, whole]
  · intro later front other
    have scanned := scan_of_malformed (.loneDot front other) start
    exact ⟨_, scanned, @rest_pass c ['.'] later front, rfl⟩

/-- A fraction behind a letter, and a dot in front of a blank. -/
theorem scan_numeral_longest_fraction :
    Accepts (Cursor.mk "x.7".toList ⟨1, ⟨1, 2⟩⟩).rest ".7".toList ∧
      (Cursor.mk "x.7".toList ⟨1, ⟨1, 2⟩⟩).scan ⟨1, 2⟩ .numeral =
        (.token ⟨.number, ".7", ⟨1, 2⟩⟩, .mk "x.7".toList ⟨3, ⟨1, 4⟩⟩) ∧
      ∃ behind, (ofText ". 1".toList).scan .start .numeral =
          (.token ⟨.error, ".", ⟨1, 1⟩⟩, behind) ∧
        behind.rest = " 1".toList ∧ behind.location = ⟨1, 2⟩ := by
  have dot : ∃ d, (Cursor.mk "x.7".toList ⟨1, ⟨1, 2⟩⟩).rest.head? = some d ∧
      (isDigit d = true ∨ d = '.') := ⟨'.', rfl, .inr rfl⟩
  have accepts : Accepts (Cursor.mk "x.7".toList ⟨1, ⟨1, 2⟩⟩).rest ".7".toList := by
    refine ⟨⟨List.prefix_rfl, ?_, fun other inside _ => inside.length_le⟩, ?_, ?_⟩
    · have fraction : Mantissa.fractional.Spells ([] ++ '.' :: ['7']) :=
        .fractional (by simp) (by simp) (by simp [isDigit])
      exact .unscaled (.fractional fraction)
    · intro digits
      cases digits '.' (by decide)
    · intro _
      exact ⟨by decide, by decide⟩
  obtain ⟨-, accepted, -, -⟩ := scan_numeral_longest ⟨1, 2⟩ dot
  obtain ⟨-, -, -, alone⟩ := @scan_numeral_longest (ofText ". 1".toList) .start ⟨'.', rfl, .inr rfl⟩
  refine ⟨accepts, (accepted _ accepts).1, alone _ rfl ?_⟩
  intro d next
  cases next
  decide

end Cursor

end TeamScript
