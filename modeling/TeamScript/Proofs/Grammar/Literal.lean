/-
# TeamScript.Proofs.Grammar.Literal -- the languages of numerals and their faults

A numeric literal is a complete mantissa (`Unscaled`), alone or with a complete
exponent (`Power`).  An exponent may also be there only in part: a mark and
perhaps a sign (`Mark`), with any number of digits behind (`Tail`).  The faults
about numerals are made of the same parts: a mantissa that ends in its dot, a dot
in front of an exponent (`DotTail`), two dots (`DoubleDot`), and a mark without
digits that takes a letter along (`OneLetter`).

Valid tokens, the lexicon, longest matches and the forms that the reader follows
are all stated with these.  `Exponent.Formed` is an exponent of the reader whose
text is one of the grammar (`Tail.exists_exponent`, `Power.exists_exponent`,
`Mark.exists_exponent`).
-/
import TeamScript.Lexeme.Numeral
import TeamScript.Proofs.Lookahead

namespace TeamScript.Numeral

set_option autoImplicit false

/-! ## Mantissas -/

/-- Digits, digits around or behind a dot, and digits with a dot behind them. -/
inductive Mantissa.Spells : Mantissa → List Char → Prop
  | whole {run : List Char} (nonempty : run ≠ []) (digits : ∀ c ∈ run, isDigit c = true) :
      Spells whole run
  | fractional {run fraction : List Char} (digits : ∀ c ∈ run, isDigit c = true)
      (nonempty : fraction ≠ []) (fractionDigits : ∀ c ∈ fraction, isDigit c = true) :
      Spells fractional (run ++ '.' :: fraction)
  | dangling {run : List Char} (nonempty : run ≠ []) (digits : ∀ c ∈ run, isDigit c = true) :
      Spells dangling (run ++ ['.'])

/-- A complete mantissa. -/
inductive Unscaled (text : List Char) : Prop
  | whole (spells : Mantissa.whole.Spells text) : Unscaled text
  | fractional (spells : Mantissa.fractional.Spells text) : Unscaled text

theorem Mantissa.Spells.unscaled {shape : Mantissa} {text : List Char}
    (spells : shape.Spells text) (complete : shape ≠ .dangling) : Unscaled text := by
  cases shape with
  | whole => exact .whole spells
  | fractional => exact .fractional spells
  | dangling => exact absurd rfl complete

theorem Unscaled.exists_shape {text : List Char} (unscaled : Unscaled text) :
    ∃ shape : Mantissa, shape ≠ .dangling ∧ shape.Spells text := by
  cases unscaled with
  | whole spells => exact ⟨_, by simp, spells⟩
  | fractional spells => exact ⟨_, by simp, spells⟩

/-! ## Exponents -/

/-- The beginning of an exponent: its mark, and perhaps a sign. -/
def Mark (text : List Char) : Prop :=
  ∃ mark ∈ ['e', 'E'], ∃ sign ∈ [[], ['+'], ['-']], text = mark :: sign

/-- An exponent as far as it is there: its beginning, and any number of digits. -/
inductive Tail : List Char → Prop
  | mk {mark power : List Char} (marked : Mark mark) (digits : ∀ c ∈ power, isDigit c = true) :
      Tail (mark ++ power)

/-- A complete exponent. -/
inductive Power : List Char → Prop
  | mk {mark power : List Char} (marked : Mark mark) (nonempty : power ≠ [])
      (digits : ∀ c ∈ power, isDigit c = true) : Power (mark ++ power)

theorem Mark.tail {mark : List Char} (marked : Mark mark) : Tail mark := by
  simpa using @Tail.mk _ [] marked (by simp)

theorem Power.tail {power : List Char} (scaled : Power power) : Tail power := by
  obtain ⟨marked, -, digits⟩ := scaled
  exact .mk marked digits

/-! ## Literals, and what faults are about -/

/-- The numeric literals. -/
inductive Literal : List Char → Prop
  | unscaled {text : List Char} (unscaled : Unscaled text) : Literal text
  | scaled {text power : List Char} (unscaled : Unscaled text) (scaled : Power power) :
      Literal (text ++ power)

/-- A dot in front of an exponent, complete or not. -/
def DotTail (text : List Char) : Prop :=
  ∃ tail, Tail tail ∧ text = '.' :: tail

/-- Digits, two dots, and any number of digits. -/
def DoubleDot (text : List Char) : Prop :=
  ∃ run more, run ≠ [] ∧ (∀ c ∈ run, isDigit c = true) ∧ (∀ c ∈ more, isDigit c = true) ∧
    text = run ++ '.' :: '.' :: more

/-- At most one letter. -/
def OneLetter (text : List Char) : Prop :=
  text.length ≤ 1 ∧ ∀ c ∈ text, isLetter c = true

/-! ## The exponents of the reader -/

theorem isLetter_of_isExponentMark {c : Char} (mark : isExponentMark c = true) :
    isLetter c = true := by
  simp only [isExponentMark, Bool.or_eq_true, beq_iff_eq] at mark
  rcases mark with rfl | rfl <;> decide

theorem isSign_iff {c : Char} : isSign c = true ↔ c = '+' ∨ c = '-' := by
  simp [isSign]

theorem mark_iff {mark : Char} {sign : List Char} :
    Mark (mark :: sign) ↔
      isExponentMark mark = true ∧ (sign = [] ∨ ∃ c, isSign c = true ∧ sign = [c]) := by
  simp only [Mark, List.cons.injEq, isExponentMark, isSign_iff, Bool.or_eq_true, beq_iff_eq,
    List.mem_cons, List.not_mem_nil, or_false]
  constructor
  · rintro ⟨_, isMark, _, isSign, rfl, rfl⟩
    refine ⟨isMark, isSign.imp_right fun signed => ?_⟩
    exact signed.elim (fun plus => ⟨'+', .inl rfl, plus⟩) fun minus => ⟨'-', .inr rfl, minus⟩
  · rintro ⟨isMark, none_ | ⟨c, rfl | rfl, one⟩⟩
    · exact ⟨_, isMark, _, .inl none_, rfl, rfl⟩
    · exact ⟨_, isMark, _, .inr (.inl one), rfl, rfl⟩
    · exact ⟨_, isMark, _, .inr (.inr one), rfl, rfl⟩

/-- A mark makes an exponent, if only one that lacks its digits. -/
theorem mark_singleton {c : Char} (isMark : isExponentMark c = true) : Mark [c] :=
  mark_iff.2 ⟨isMark, .inl rfl⟩

namespace Exponent

/-- The exponent is spelled as the grammar says; its digits may be missing. -/
structure Formed (e : Exponent) : Prop where
  marked : Mark (e.mark :: e.sign)
  digits : ∀ c ∈ e.digits, isDigit c = true

variable {e : Exponent}

theorem text_eq (e : Exponent) : e.text = (e.mark :: e.sign) ++ e.digits := rfl

theorem Formed.mark (formed : e.Formed) : isExponentMark e.mark = true :=
  (mark_iff.1 formed.marked).1

theorem Formed.sign (formed : e.Formed) : e.sign = [] ∨ ∃ c, isSign c = true ∧ e.sign = [c] :=
  (mark_iff.1 formed.marked).2

theorem Formed.tail (formed : e.Formed) : Tail e.text := .mk formed.marked formed.digits

theorem Formed.power (formed : e.Formed) (nonempty : e.digits ≠ []) : Power e.text :=
  .mk formed.marked nonempty formed.digits

end Exponent

theorem Mark.exists_exponent {mark power : List Char} (marked : Mark mark)
    (digits : ∀ c ∈ power, isDigit c = true) :
    ∃ e : Exponent, e.Formed ∧ e.digits = power ∧ e.text = mark ++ power := by
  obtain ⟨c, isMark, sign, isSign, rfl⟩ := marked
  exact ⟨⟨c, sign, power⟩, ⟨⟨c, isMark, sign, isSign, rfl⟩, digits⟩, rfl, rfl⟩

theorem Tail.exists_exponent {text : List Char} (tail : Tail text) :
    ∃ e : Exponent, e.Formed ∧ e.text = text := by
  obtain ⟨marked, digits⟩ := tail
  obtain ⟨e, formed, -, same⟩ := marked.exists_exponent digits
  exact ⟨e, formed, same⟩

theorem Power.exists_exponent {text : List Char} (scaled : Power text) :
    ∃ e : Exponent, e.Formed ∧ e.digits ≠ [] ∧ e.text = text := by
  obtain ⟨marked, nonempty, digits⟩ := scaled
  obtain ⟨e, formed, rfl, same⟩ := marked.exists_exponent digits
  exact ⟨e, formed, nonempty, same⟩

end TeamScript.Numeral
