/-
# TeamScript.Proofs.Grammar.Numeral -- the forms of a numeral

A text that begins with a digit or a dot is a mantissa, bare or with an
exponent, or one of three faults: two dots, a dot with an exponent, a lone dot.
What stands behind the text settles which: a mantissa ends where no digit and,
unless it has one that counts, no dot follows; an exponent ends where no digit
follows and, as long as it is only a mark, no sign.

`read_follows` and `read_yields` say that `read` answers with the forms and with
nothing else.  Between the two stands `read_eq_finish`: a mantissa that ends is
read as the mantissa it is.
-/
import TeamScript.Proofs.Grammar.Form
import TeamScript.Proofs.Grammar.Literal

namespace TeamScript.Numeral

set_option autoImplicit false

/-! ## Runs of digits -/

theorem digits_of_stops {run rest : List Char} (inside : ∀ c ∈ run, isDigit c = true)
    (stops : Stops isDigit rest.head?) :
    digits (run ++ rest) = run ∧ afterDigits (run ++ rest) = rest :=
  ⟨takeWhile_of_stops inside stops, dropWhile_of_stops inside stops⟩

theorem no_digits {rest : List Char} (stops : Stops isDigit rest.head?) :
    digits rest = [] ∧ afterDigits rest = rest := by
  simpa using @digits_of_stops [] rest (by simp) stops

theorem of_mem_digits {text : List Char} : ∀ c ∈ digits text, isDigit c = true :=
  of_mem_takeWhile

theorem stops_dot (text : List Char) : Stops isDigit ('.' :: text).head? :=
  (stops_some isDigit '.').2 rfl

theorem stops_afterDigits (text : List Char) : Stops isDigit (afterDigits text).head? :=
  stops_dropWhile _ _

/-! ## Exponents -/

namespace Exponent

/-- The exponent does not go on with `ahead`. -/
structure Ends (e : Exponent) (ahead : Option Char) : Prop where
  digit : Stops isDigit ahead
  sign : e.sign = [] → e.digits = [] → Stops isSign ahead

end Exponent

theorem isDigit_of_isSign {c : Char} (sign : isSign c = true) : isDigit c = false := by
  simp only [isSign, Bool.or_eq_true, beq_iff_eq] at sign
  rcases sign with rfl | rfl <;> decide

theorem isSign_of_isDigit {c : Char} (digit : isDigit c = true) : isSign c = false := by
  cases sign : isSign c with
  | false => rfl
  | true => rw [isDigit_of_isSign sign] at digit; cases digit

theorem exponent?_eq_none_iff {text : List Char} :
    exponent? text = none ↔ Stops isExponentMark text.head? := by
  cases text with
  | nil => simp [exponent?]
  | cons c text => cases mark : isExponentMark c <;> simp [exponent?, mark]

theorem exponent?_formed {text rest : List Char} {e : Exponent}
    (found : exponent? text = some (e, rest)) : e.Formed ∧ e.Ends rest.head? := by
  cases text with
  | nil => simp [exponent?] at found
  | cons c text =>
      simp only [exponent?] at found
      split at found
      · rename_i mark
        simp only [Option.some.injEq, Prod.mk.injEq] at found
        obtain ⟨rfl, rfl⟩ := found
        refine ⟨⟨mark_iff.2 ⟨mark, ?_⟩, of_mem_digits⟩, ⟨stops_afterDigits _, ?_⟩⟩
        · cases text with
          | nil => exact .inl rfl
          | cons d text => cases sign : isSign d <;> simp [Numeral.sign, sign]
        · -- nothing was consumed behind the mark, so what follows is what stood there
          intro unsigned none_
          dsimp only at unsigned none_
          have whole := digits_append (text.drop (Numeral.sign text).length)
          rw [none_, unsigned] at whole
          simp only [List.length_nil, List.drop_zero, List.nil_append] at whole
          rw [unsigned, List.length_nil, List.drop_zero, whole]
          cases text with
          | nil => simp
          | cons d text => simpa [Numeral.sign] using unsigned
      · simp at found

theorem exponent?_of_ends {e : Exponent} {rest : List Char} (formed : e.Formed)
    (ends : e.Ends rest.head?) : exponent? (e.text ++ rest) = some (e, rest) := by
  obtain ⟨mark, sign, digits⟩ := e
  have signed : Numeral.sign (sign ++ (digits ++ rest)) = sign := by
    rcases formed.sign with none_ | ⟨c, isSign, one⟩
    · dsimp only at none_
      subst none_
      cases digits with
      | cons c digits =>
          simp [Numeral.sign, isSign_of_isDigit (formed.digits c (by simp))]
      | nil =>
          have stops := ends.sign rfl rfl
          cases rest with
          | nil => rfl
          | cons c rest => simpa [Numeral.sign] using stops
    · dsimp only at one
      simp [one, Numeral.sign, isSign]
  obtain ⟨run, behind⟩ := digits_of_stops formed.digits ends.digit
  dsimp only at run behind
  have front : (⟨mark, sign, digits⟩ : Exponent).text ++ rest =
      mark :: (sign ++ (digits ++ rest)) := by simp [Exponent.text]
  have isMark : isExponentMark mark = true := formed.mark
  simp [front, exponent?, isMark, signed, run, behind]

/-- A letter behind an exponent, if it has one to take along. -/
inductive Extra (e : Exponent) : List Char → Option Char → Prop
  | letter {c : Char} {ahead : Option Char} (letter : isLetter c = true) : Extra e [c] ahead
  | none {ahead : Option Char} (ends : e.Ends ahead) (stops : Stops isLetter ahead) :
      Extra e [] ahead

theorem extra_letter {e : Exponent} {rest : List Char} (ends : e.Ends rest.head?) :
    Extra e (letter rest) (rest.drop (letter rest).length).head? := by
  cases rest with
  | nil => exact .none ends (by simp [letter])
  | cons c rest =>
      cases isLetter : isLetter c with
      | true =>
          simp only [letter, isLetter, if_true]
          exact .letter isLetter
      | false =>
          simp only [letter, isLetter, Bool.false_eq_true, if_false]
          exact .none ends (by simpa using isLetter)

theorem letter_of_extra {e : Exponent} {extra rest : List Char} (h : Extra e extra rest.head?) :
    letter (extra ++ rest) = extra ∧ (extra ++ rest).drop (letter (extra ++ rest)).length = rest := by
  cases h with
  | letter isLetter => simp [letter, isLetter]
  | none _ stops =>
      cases rest with
      | nil => simp [letter]
      | cons c rest =>
          have isLetter : isLetter c = false := by simpa using stops
          simp [letter, isLetter]

theorem ends_of_extra {e : Exponent} {extra rest : List Char} (h : Extra e extra rest.head?) :
    e.Ends (extra ++ rest).head? := by
  cases h with
  | @letter c _ isLetter =>
      have digit : isDigit c = false := isDigit_of_isLetter isLetter
      refine ⟨by simpa using digit, fun _ _ => ?_⟩
      simp only [List.cons_append, List.head?_cons, stops_some]
      cases sign : isSign c with
      | false => rfl
      | true =>
          simp only [isSign, Bool.or_eq_true, beq_iff_eq] at sign
          rcases sign with rfl | rfl <;> cases isLetter
  | none ends _ => exact ends

/-! ## Mantissas -/

namespace Mantissa

/-- The mantissa goes on with this character. -/
def continues : Mantissa → Char → Bool
  | fractional, c => isDigit c
  | whole, c | dangling, c => isDigit c || c == '.'

/-- What a mantissa without an exponent is. -/
def outcome (shape : Mantissa) (text : List Char) : Except Fault Lexeme :=
  match shape with
  | whole => .ok (.integer (String.ofList text))
  | fractional => .ok (.number (String.ofList text))
  | dangling => .error (.emptyFraction (String.ofList text))

theorem continues_of_isExponentMark {c : Char} (shape : Mantissa)
    (mark : isExponentMark c = true) : shape.continues c = false := by
  have digit := isDigit_of_isLetter (isLetter_of_isExponentMark mark)
  have dot : c ≠ '.' := ne_of_class mark (by decide)
  cases shape <;> simp [continues, digit, dot]

theorem stops_exponent {e : Exponent} (shape : Mantissa) (formed : e.Formed) (rest : List Char) :
    Stops shape.continues (e.text ++ rest).head? := by
  simpa [Exponent.text] using continues_of_isExponentMark shape formed.mark

end Mantissa

/-! ## The forms -/

/-- The forms of a text that begins with a digit or a dot. -/
inductive Spells : Form
  | bare {shape : Mantissa} {mantissa : List Char} {ahead : Option Char}
      (spells : shape.Spells mantissa) (stops : Stops shape.continues ahead)
      (mark : Stops isExponentMark ahead) : Spells mantissa (shape.outcome mantissa) ahead
  | scaled {shape : Mantissa} {mantissa : List Char} {e : Exponent} {ahead : Option Char}
      (spells : shape.Spells mantissa) (complete : shape ≠ .dangling) (formed : e.Formed)
      (power : e.digits ≠ []) (stops : Stops isDigit ahead) :
      Spells (mantissa ++ e.text) (.ok (.number (String.ofList (mantissa ++ e.text)))) ahead
  | unscaled {shape : Mantissa} {mantissa extra : List Char} {e : Exponent} {ahead : Option Char}
      (spells : shape.Spells mantissa) (complete : shape ≠ .dangling) (formed : e.Formed)
      (power : e.digits = []) (behind : Extra e extra ahead) :
      Spells (mantissa ++ e.text ++ extra)
        (.error (.badExponent (String.ofList (mantissa ++ e.text ++ extra)))) ahead
  | dangling {mantissa : List Char} {e : Exponent} {ahead : Option Char}
      (spells : Mantissa.dangling.Spells mantissa) (formed : e.Formed) (ends : e.Ends ahead) :
      Spells (mantissa ++ e.text)
        (.error (.emptyFraction (String.ofList (mantissa ++ e.text)))) ahead
  | doubleDot {span : List Char} {ahead : Option Char} (dots : DoubleDot span)
      (stops : Stops isDigit ahead) : Spells span (.error (.doubleDot (String.ofList span))) ahead
  | dotExponent {e : Exponent} {ahead : Option Char} (formed : e.Formed) (ends : e.Ends ahead) :
      Spells ('.' :: e.text) (.error (.badExponent (String.ofList ('.' :: e.text)))) ahead
  | loneDot {ahead : Option Char} (digit : Stops isDigit ahead)
      (mark : Stops isExponentMark ahead) : Spells ['.'] (.error .loneDot) ahead

theorem Mantissa.Spells.first {shape : Mantissa} {mantissa : List Char}
    (spells : shape.Spells mantissa) :
    ∃ c more, mantissa = c :: more ∧ (isDigit c = true ∨ c = '.') := by
  have digits_first {run more : List Char} (nonempty : run ≠ [])
      (inside : ∀ c ∈ run, isDigit c = true) :
      ∃ c later, run ++ more = c :: later ∧ (isDigit c = true ∨ c = '.') := by
    obtain ⟨c, run, rfl⟩ := List.exists_cons_of_ne_nil nonempty
    exact ⟨c, run ++ more, rfl, .inl (inside c (by simp))⟩
  cases spells with
  | whole nonempty inside => simpa using @digits_first mantissa [] nonempty inside
  | @fractional run fraction inside _ _ =>
      by_cases empty : run = []
      · exact ⟨'.', fraction, by simp [empty], .inr rfl⟩
      · exact digits_first empty inside
  | dangling nonempty inside => exact digits_first nonempty inside

theorem Spells.first {span : List Char} {outcome : Except Fault Lexeme} {ahead : Option Char}
    (spells : Spells span outcome ahead) :
    ∃ c more, span = c :: more ∧ (isDigit c = true ∨ c = '.') := by
  cases spells with
  | bare spells _ _ => exact spells.first
  | scaled spells _ _ _ _ =>
      obtain ⟨c, more, rfl, first⟩ := spells.first
      exact ⟨c, _, rfl, first⟩
  | unscaled spells _ _ _ _ =>
      obtain ⟨c, more, rfl, first⟩ := spells.first
      exact ⟨c, _, rfl, first⟩
  | dangling spells _ _ =>
      obtain ⟨c, more, rfl, first⟩ := spells.first
      exact ⟨c, _, rfl, first⟩
  | doubleDot dots _ =>
      obtain ⟨run, more, nonempty, inside, -, rfl⟩ := dots
      obtain ⟨c, run, rfl⟩ := List.exists_cons_of_ne_nil nonempty
      exact ⟨c, _, rfl, .inl (inside c (by simp))⟩
  | dotExponent _ _ => exact ⟨'.', _, rfl, .inr rfl⟩
  | loneDot _ _ => exact ⟨'.', _, rfl, .inr rfl⟩

/-- A numeral of digits only takes all of them. -/
theorem Spells.stops_digit {span : List Char} {outcome : Except Fault Lexeme}
    {ahead : Option Char} (spells : Spells span outcome ahead)
    (inside : ∀ c ∈ span, isDigit c = true) : Stops isDigit ahead := by
  have mark_not_digit {e : Exponent} (formed : e.Formed) : isDigit e.mark = false :=
    isDigit_of_isLetter (isLetter_of_isExponentMark formed.mark)
  have mixed {c : Char} (member : c ∈ span) (other : isDigit c = false) : Stops isDigit ahead := by
    rw [inside c member] at other
    cases other
  cases spells with
  | bare spells stops _ =>
      cases spells with
      | whole _ _ => exact (stops_or.1 stops).1
      | fractional _ _ _ => exact mixed (c := '.') (by simp) rfl
      | dangling _ _ => exact mixed (c := '.') (by simp) rfl
  | scaled _ _ formed _ stops => exact stops
  | unscaled _ _ formed _ _ => exact mixed (by simp [Exponent.text]) (mark_not_digit formed)
  | dangling _ formed ends => exact ends.digit
  | doubleDot _ stops => exact stops
  | dotExponent _ ends => exact ends.digit
  | loneDot digit _ => exact digit

/-! ## Reading on behind the mantissa -/

theorem finish_follows {shape : Mantissa} {mantissa text : List Char}
    (spells : shape.Spells mantissa) (stops : Stops shape.continues text.head?) :
    (finish shape mantissa text).Follows Spells := by
  unfold finish
  cases found : exponent? text with
  | none =>
      have bare := Spells.bare spells stops (exponent?_eq_none_iff.1 found)
      cases shape <;> exact bare
  | some er =>
      obtain ⟨e, rest⟩ := er
      obtain ⟨formed, ends⟩ := exponent?_formed found
      have complete : shape ≠ .dangling →
          (if e.digits.isEmpty then
            let span := mantissa ++ e.text ++ letter rest
            Reading.faulty span (rest.drop (letter rest).length)
              (.badExponent (String.ofList span))
              (some (.exponentWithoutDigits (String.ofList span)))
          else
            let span := mantissa ++ e.text
            .plain span rest (.number (String.ofList span))).Follows Spells := by
        intro complete
        split
        · rename_i power
          exact .unscaled spells complete formed (by simpa using power) (extra_letter ends)
        · rename_i power
          exact .scaled spells complete formed (by simpa using power) ends.digit
      cases shape with
      | whole => exact complete (by simp)
      | fractional => exact complete (by simp)
      | dangling => exact .dangling spells formed ends

theorem finish_of_stops {shape : Mantissa} {mantissa text : List Char}
    (mark : Stops isExponentMark text.head?) :
    (finish shape mantissa text).Yields mantissa (shape.outcome mantissa) text := by
  unfold finish
  rw [exponent?_eq_none_iff.2 mark]
  cases shape with
  | whole => exact Reading.yields_plain _ _ _
  | fractional => exact Reading.yields_plain _ _ _
  | dangling => exact Reading.yields_faulty _ _ _ _

section Exponent

variable {mantissa rest : List Char} {e : Exponent}

theorem finish_scaled {shape : Mantissa} (complete : shape ≠ .dangling) (formed : e.Formed)
    (power : e.digits ≠ []) (stops : Stops isDigit rest.head?) :
    (finish shape mantissa (e.text ++ rest)).Yields (mantissa ++ e.text)
      (.ok (.number (String.ofList (mantissa ++ e.text)))) rest := by
  have ends : e.Ends rest.head? := ⟨stops, fun _ none_ => absurd none_ power⟩
  unfold finish
  rw [exponent?_of_ends formed ends]
  cases shape with
  | whole => simpa [power] using Reading.yields_plain _ _ _
  | fractional => simpa [power] using Reading.yields_plain _ _ _
  | dangling => exact absurd rfl complete

theorem finish_unscaled {shape : Mantissa} {extra : List Char} (complete : shape ≠ .dangling)
    (formed : e.Formed) (power : e.digits = []) (behind : Extra e extra rest.head?) :
    (finish shape mantissa (e.text ++ (extra ++ rest))).Yields (mantissa ++ e.text ++ extra)
      (.error (.badExponent (String.ofList (mantissa ++ e.text ++ extra)))) rest := by
  obtain ⟨one, left⟩ := letter_of_extra behind
  unfold finish
  rw [exponent?_of_ends formed (ends_of_extra behind)]
  cases shape with
  | whole =>
      simp only [power, List.isEmpty_nil, if_true, left]
      rw [one]
      exact Reading.yields_faulty _ _ _ _
  | fractional =>
      simp only [power, List.isEmpty_nil, if_true, left]
      rw [one]
      exact Reading.yields_faulty _ _ _ _
  | dangling => exact absurd rfl complete

theorem finish_dangling (formed : e.Formed) (ends : e.Ends rest.head?) :
    (finish .dangling mantissa (e.text ++ rest)).Yields (mantissa ++ e.text)
      (.error (.emptyFraction (String.ofList (mantissa ++ e.text)))) rest := by
  unfold finish
  rw [exponent?_of_ends formed ends]
  exact Reading.yields_faulty _ _ _ _

end Exponent

/-! ## Reading -/

/-- Digits in front are read as such. -/
theorem read_digits {run text : List Char} (nonempty : run ≠ [])
    (inside : ∀ c ∈ run, isDigit c = true) (stops : Stops isDigit text.head?) :
    read (run ++ text) = readWhole run text := by
  obtain ⟨front, behind⟩ := digits_of_stops inside stops
  obtain ⟨c, run, rfl⟩ := List.exists_cons_of_ne_nil nonempty
  have digit : isDigit c = true := inside c (by simp)
  have dot : c ≠ '.' := ne_of_class digit (by decide)
  rw [List.cons_append] at front behind ⊢
  rw [read, if_neg dot, if_pos digit, front, behind]

theorem readWhole_bare {run text : List Char} (dot : text.head? ≠ some '.') :
    readWhole run text = finish .whole run text := by
  unfold readWhole
  split
  · exact absurd rfl dot
  · exact absurd rfl dot
  · rfl

theorem readWhole_dot {run text : List Char} (dot : text.head? ≠ some '.') :
    readWhole run ('.' :: text) =
      finish (if (digits text).isEmpty then .dangling else .fractional)
        (run ++ '.' :: digits text) (afterDigits text) := by
  unfold readWhole
  split
  · rename_i front
    simp only [List.cons.injEq] at front
    exact absurd (by rw [front.2]; rfl) dot
  · rename_i front
    simp only [List.cons.injEq] at front
    rw [front.2]
  · rename_i other
    exact absurd rfl (other text)

theorem head?_ne_dot {run text : List Char} (nonempty : run ≠ [])
    (inside : ∀ c ∈ run, isDigit c = true) : (run ++ text).head? ≠ some '.' := by
  obtain ⟨c, run, rfl⟩ := List.exists_cons_of_ne_nil nonempty
  have digit : isDigit c = true := inside c (by simp)
  simpa using ne_of_class digit (by decide)

/-- A mantissa that ends is read as the mantissa it is. -/
theorem read_eq_finish {shape : Mantissa} {mantissa text : List Char}
    (spells : shape.Spells mantissa) (stops : Stops shape.continues text.head?) :
    read (mantissa ++ text) = finish shape mantissa text := by
  cases spells with
  | whole nonempty inside =>
      obtain ⟨digit, dot⟩ := stops_or.1 stops
      rw [read_digits nonempty inside digit, readWhole_bare]
      intro isDot
      simp [isDot] at dot
  | @fractional run fraction inside nonempty fractionDigits =>
      obtain ⟨front, behind⟩ := digits_of_stops fractionDigits stops
      by_cases empty : run = []
      · subst empty
        have more : (digits (fraction ++ text)).isEmpty = false := by simp [front, nonempty]
        rw [List.nil_append, List.cons_append, read, if_pos rfl, readDot, more, front, behind]
        rfl
      · have assoc : run ++ '.' :: fraction ++ text = run ++ '.' :: (fraction ++ text) := by simp
        rw [assoc, read_digits empty inside (stops_dot _),
          readWhole_dot (head?_ne_dot nonempty fractionDigits), front, behind]
        simp [nonempty]
  | @dangling run nonempty inside =>
      obtain ⟨digit, dot⟩ := stops_or.1 stops
      have noDigits := no_digits digit
      have assoc : run ++ ['.'] ++ text = run ++ '.' :: text := by simp
      rw [assoc, read_digits nonempty inside (stops_dot _), readWhole_dot, noDigits.1, noDigits.2]
      · rfl
      · intro isDot
        simp [isDot] at dot

theorem readWhole_follows {run text : List Char} (nonempty : run ≠ [])
    (inside : ∀ c ∈ run, isDigit c = true) (stops : Stops isDigit text.head?) :
    (readWhole run text).Follows Spells := by
  unfold readWhole
  split
  · exact .doubleDot ⟨_, _, nonempty, inside, of_mem_digits, rfl⟩ (stops_afterDigits _)
  · rename_i more single
    by_cases empty : digits more = []
    · have whole := digits_append more
      rw [empty, List.nil_append] at whole
      have behind := stops_afterDigits more
      simp only [empty, List.isEmpty_nil, if_true]
      refine finish_follows (.dangling nonempty inside) (stops_or.2 ⟨behind, ?_⟩)
      rw [whole]
      cases more with
      | nil => simp
      | cons c more => simpa using fun dot => single more (by rw [dot])
    · simp only [List.isEmpty_iff, empty, if_false]
      exact finish_follows (.fractional inside empty of_mem_digits) (stops_afterDigits _)
  · rename_i single dot
    refine finish_follows (.whole nonempty inside) (stops_or.2 ⟨stops, ?_⟩)
    cases text with
    | nil => simp
    | cons c text => simpa using fun isDot => dot text (by rw [isDot])

theorem readDot_follows (text : List Char) : (readDot text).Follows Spells := by
  unfold readDot
  split
  · rename_i empty
    have none_ : digits text = [] := by simpa using empty
    have whole := digits_append text
    rw [none_, List.nil_append] at whole
    split
    · rename_i found
      obtain ⟨formed, ends⟩ := exponent?_formed found
      exact .dotExponent formed ends
    · rename_i found
      exact .loneDot (whole ▸ stops_afterDigits text) (exponent?_eq_none_iff.1 found)
  · rename_i some_
    have nonempty : digits text ≠ [] := by simpa using some_
    exact finish_follows (@Mantissa.Spells.fractional [] _ (by simp) nonempty of_mem_digits)
      (stops_afterDigits text)

theorem read_follows {c : Char} (first : isDigit c = true ∨ c = '.') (more : List Char) :
    (read (c :: more)).Follows Spells := by
  rw [read]
  split
  · exact readDot_follows more
  · rename_i dot
    have digit : isDigit c = true := first.resolve_right dot
    rw [if_pos digit]
    exact readWhole_follows (by simp [digits, digit]) of_mem_digits (stops_afterDigits _)

theorem read_yields {span rest : List Char} {outcome : Except Fault Lexeme}
    (spells : Spells span outcome rest.head?) : (read (span ++ rest)).Yields span outcome rest := by
  generalize behind : rest.head? = ahead at spells
  cases spells with
  | bare spells stops mark =>
      subst behind
      rw [read_eq_finish spells stops]
      exact finish_of_stops mark
  | scaled spells complete formed power stops =>
      subst behind
      rw [List.append_assoc, read_eq_finish spells (Mantissa.stops_exponent _ formed _)]
      exact finish_scaled complete formed power stops
  | unscaled spells complete formed power extra =>
      subst behind
      rw [List.append_assoc, List.append_assoc,
        read_eq_finish spells (Mantissa.stops_exponent _ formed _)]
      exact finish_unscaled complete formed power extra
  | dangling spells formed ends =>
      subst behind
      rw [List.append_assoc, read_eq_finish spells (Mantissa.stops_exponent _ formed _)]
      exact finish_dangling formed ends
  | doubleDot dots stops =>
      subst behind
      obtain ⟨run, more, nonempty, inside, moreDigits, rfl⟩ := dots
      have assoc : run ++ '.' :: '.' :: more ++ rest = run ++ '.' :: '.' :: (more ++ rest) := by simp
      obtain ⟨front, behind⟩ := digits_of_stops moreDigits stops
      rw [assoc, read_digits nonempty inside (stops_dot _), readWhole, front, behind]
      exact Reading.yields_faulty _ _ _ _
  | @dotExponent e _ formed ends =>
      subst behind
      have digit : Stops isDigit (e.text ++ rest).head? := by
        simpa [Exponent.text] using isDigit_of_isLetter (isLetter_of_isExponentMark formed.mark)
      rw [List.cons_append, read, if_pos rfl, readDot, (no_digits digit).1, exponent?_of_ends formed ends]
      exact Reading.yields_faulty _ _ _ _
  | loneDot digit mark =>
      subst behind
      rw [List.singleton_append, read, if_pos rfl, readDot, (no_digits digit).1,
        exponent?_eq_none_iff.2 mark]
      exact Reading.yields_faulty _ _ _ _

end TeamScript.Numeral
