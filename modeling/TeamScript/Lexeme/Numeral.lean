/-
# TeamScript.Lexeme.Numeral -- integers and numbers

A numeral is a mantissa and, if an `e` or `E` follows it, an exponent.

* The mantissa is digits; or digits, a dot and digits; or a dot and digits.
  Digits alone make an integer, every other numeral is a number.
* The exponent is the mark, at most one sign, and digits.

A reader that meets a fault consumes the text that the fault is about:

* digits and two dots, with the digits behind them (`doubleDot`);
* digits and a dot with no digit behind it, with the exponent that follows,
  complete or not (`emptyFraction`);
* a complete mantissa and an exponent without digits, with one letter right
  behind it (`badExponent`);
* a dot and an exponent, complete or not (`badExponent`), but a dot before
  anything else is consumed alone (`loneDot`).

Nothing is lost (`read_splits`), and a text that is not empty loses at least one
character to its reading (`read_span_ne_nil`).
-/
import TeamScript.Alphabet
import TeamScript.Reading

namespace TeamScript.Numeral

set_option autoImplicit false

/-! ## Parts -/

def digits (text : List Char) : List Char := text.takeWhile isDigit

def afterDigits (text : List Char) : List Char := text.dropWhile isDigit

theorem digits_append (text : List Char) : digits text ++ afterDigits text = text :=
  List.takeWhile_append_dropWhile

def isExponentMark (c : Char) : Bool := c == 'e' || c == 'E'

def isSign (c : Char) : Bool := c == '+' || c == '-'

/-- The sign at the front of a text, if there is one. -/
def sign (text : List Char) : List Char :=
  match text with
  | c :: _ => if isSign c then [c] else []
  | [] => []

/-- An exponent as far as it is there: its digits may be missing. -/
structure Exponent where
  mark : Char
  sign : List Char
  digits : List Char

def Exponent.text (e : Exponent) : List Char := e.mark :: (e.sign ++ e.digits)

/-- The exponent at the front of a text and the rest, if the text begins with
the mark. -/
def exponent? : List Char → Option (Exponent × List Char)
  | [] => none
  | c :: text =>
      if isExponentMark c then
        let unsigned := text.drop (sign text).length
        some (⟨c, sign text, digits unsigned⟩, afterDigits unsigned)
      else none

theorem sign_append_drop (text : List Char) : sign text ++ text.drop (sign text).length = text := by
  cases text with
  | nil => rfl
  | cons c text => by_cases h : isSign c <;> simp [sign, h]

theorem exponent?_append {text rest : List Char} {e : Exponent}
    (found : exponent? text = some (e, rest)) : e.text ++ rest = text := by
  cases text with
  | nil => simp [exponent?] at found
  | cons c text =>
      simp only [exponent?] at found
      split at found
      · simp only [Option.some.injEq, Prod.mk.injEq] at found
        obtain ⟨rfl, rfl⟩ := found
        simp [Exponent.text, digits_append, sign_append_drop]
      · simp at found

/-! ## The numeral behind its mantissa -/

/-- A mantissa without a dot, with a complete fraction, or with a dot only. -/
inductive Mantissa where
  | whole
  | fractional
  | dangling
  deriving DecidableEq, Repr

/-- At most one letter at the front of a text. -/
def letter (text : List Char) : List Char :=
  match text with
  | c :: _ => if isLetter c then [c] else []
  | [] => []

theorem letter_append_drop (text : List Char) :
    letter text ++ text.drop (letter text).length = text := by
  cases text with
  | nil => rfl
  | cons c text => by_cases h : isLetter c <;> simp [letter, h]

/-- Reads on behind the mantissa, whose shape and text are known. -/
def finish (shape : Mantissa) (mantissa text : List Char) : Reading :=
  match exponent? text, shape with
  | none, .whole => .plain mantissa text (.integer (String.ofList mantissa))
  | none, .fractional => .plain mantissa text (.number (String.ofList mantissa))
  | none, .dangling => .faulty mantissa text (.emptyFraction (String.ofList mantissa)) none
  | some (e, rest), .dangling =>
      let span := mantissa ++ e.text
      .faulty span rest (.emptyFraction (String.ofList span))
        (some (.exponentAfterDot (String.ofList span)))
  | some (e, rest), _ =>
      if e.digits.isEmpty then
        let span := mantissa ++ e.text ++ letter rest
        .faulty span (rest.drop (letter rest).length) (.badExponent (String.ofList span))
          (some (.exponentWithoutDigits (String.ofList span)))
      else
        let span := mantissa ++ e.text
        .plain span rest (.number (String.ofList span))

theorem finish_splits (shape : Mantissa) (mantissa text : List Char) :
    (finish shape mantissa text).Splits (mantissa ++ text) := by
  unfold finish Reading.Splits
  cases found : exponent? text with
  | none => cases shape <;> simp [Reading.plain, Reading.faulty]
  | some er =>
      obtain ⟨e, rest⟩ := er
      have whole := exponent?_append found
      cases shape <;> simp only <;> (try split) <;>
        simp [Reading.plain, Reading.faulty, whole, letter_append_drop]

/-! ## Reading -/

/-- A dot in front: a fraction without digits before it. -/
def readDot (text : List Char) : Reading :=
  if (digits text).isEmpty then
    match exponent? text with
    | some (e, rest) =>
        let span := '.' :: e.text
        .faulty span rest (.badExponent (String.ofList span))
          (some (.exponentWithoutDigits (String.ofList span)))
    | none => .faulty ['.'] text .loneDot (some .loneDot)
  else finish .fractional ('.' :: digits text) (afterDigits text)

/-- Behind the digits in front, which are not empty. -/
def readWhole (whole text : List Char) : Reading :=
  match text with
  | '.' :: '.' :: more =>
      let span := whole ++ '.' :: '.' :: digits more
      .faulty span (afterDigits more) (.doubleDot (String.ofList span))
        (some (.doubleDot (String.ofList span)))
  | '.' :: more =>
      finish (if (digits more).isEmpty then .dangling else .fractional)
        (whole ++ '.' :: digits more) (afterDigits more)
  | _ => finish .whole whole text

/-- Reads the numeral at the front of a text.  Where there is none, the first
character is consumed as an unknown one; an empty text stands for the sentinel,
and nothing is consumed. -/
def read (text : List Char) : Reading :=
  match text with
  | [] => .faulty [] [] (.unknownCharacter sentinel) (some (.unknownCharacter sentinel))
  | c :: more =>
      if c = '.' then readDot more
      else if isDigit c then readWhole (digits text) (afterDigits text)
      else .faulty [c] more (.unknownCharacter c) (some (.unknownCharacter c))

/-! ## Nothing is lost -/

theorem readDot_splits (text : List Char) : (readDot text).Splits ('.' :: text) := by
  unfold readDot
  split
  · split
    · rename_i found
      simp [Reading.Splits, Reading.faulty, exponent?_append found]
    · simp [Reading.Splits, Reading.faulty]
  · simpa [digits_append] using finish_splits .fractional ('.' :: digits text) (afterDigits text)

theorem readWhole_splits (whole text : List Char) :
    (readWhole whole text).Splits (whole ++ text) := by
  unfold readWhole
  split
  · simp [Reading.Splits, Reading.faulty, digits_append]
  · rename_i more _
    simpa [digits_append] using finish_splits
      (if (digits more).isEmpty then .dangling else .fractional)
      (whole ++ '.' :: digits more) (afterDigits more)
  · exact finish_splits .whole whole text

theorem read_splits (text : List Char) : (read text).Splits text := by
  cases text with
  | nil => rfl
  | cons c more =>
      simp only [read]
      split
      · rename_i dot
        subst dot
        exact readDot_splits more
      · split
        · simpa [digits_append] using
            readWhole_splits (digits (c :: more)) (afterDigits (c :: more))
        · rfl

/-! ## Something is consumed -/

theorem finish_span_ne_nil (shape : Mantissa) {mantissa : List Char} (text : List Char)
    (nonempty : mantissa ≠ []) : (finish shape mantissa text).span ≠ [] := by
  unfold finish
  cases exponent? text with
  | none => cases shape <;> simpa [Reading.plain, Reading.faulty] using nonempty
  | some er =>
      cases shape <;> simp only <;> (try split) <;>
        simp [Reading.plain, Reading.faulty, nonempty]

theorem readWhole_span_ne_nil {whole : List Char} (text : List Char) (nonempty : whole ≠ []) :
    (readWhole whole text).span ≠ [] := by
  unfold readWhole
  split
  · simp [Reading.faulty]
  · exact finish_span_ne_nil _ _ (by simp)
  · exact finish_span_ne_nil _ _ nonempty

theorem read_span_ne_nil (c : Char) (more : List Char) : (read (c :: more)).span ≠ [] := by
  simp only [read]
  split
  · unfold readDot
    split
    · split <;> simp [Reading.faulty]
    · exact finish_span_ne_nil _ _ (by simp)
  · split
    · rename_i digit
      exact readWhole_span_ne_nil _ (by simp [digits, digit])
    · simp [Reading.faulty]

end TeamScript.Numeral
