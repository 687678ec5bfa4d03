/-
# TeamScript.Proofs.Grammar.Blank -- where blanks stand inside a token

Only strings and block comments hold blanks.  Every other token is made of
characters from classes without blanks, whether it has a fault or not
(`Chunk.Stands.blank_cases`).  A string without fault holds no line feed, so no
correct token does (`Chunk.Stands.feed_not_mem`).
-/
import TeamScript.Proofs.Grammar.Chunk

namespace TeamScript

set_option autoImplicit false

variable {span : List Char} {outcome : Except Fault Lexeme} {ahead : Option Char}

namespace Numeral

/-- Digits, dots, and what exponents and their extra letters are made of. -/
def isPart (c : Char) : Bool := isDigit c || isLetter c || c == '.' || isSign c

theorem isPart_of_isDigit {c : Char} (digit : isDigit c = true) : isPart c = true := by
  simp [isPart, digit]

theorem isPart_of_isLetter {c : Char} (letter : isLetter c = true) : isPart c = true := by
  simp [isPart, letter]

theorem isPart_of_digits {run : List Char} (digits : ∀ c ∈ run, isDigit c = true) :
    ∀ c ∈ run, isPart c = true :=
  fun c member => isPart_of_isDigit (digits c member)

theorem Mantissa.Spells.parts {shape : Mantissa} {mantissa : List Char}
    (spells : shape.Spells mantissa) : ∀ c ∈ mantissa, isPart c = true := by
  cases spells with
  | whole _ digits => exact isPart_of_digits digits
  | fractional digits _ fractionDigits =>
      exact List.forall_mem_append.2 ⟨isPart_of_digits digits,
        List.forall_mem_cons.2 ⟨rfl, isPart_of_digits fractionDigits⟩⟩
  | dangling _ digits =>
      exact List.forall_mem_append.2 ⟨isPart_of_digits digits, by simp [isPart]⟩

theorem Exponent.Formed.parts {e : Exponent} (formed : e.Formed) :
    ∀ c ∈ e.text, isPart c = true := by
  refine List.forall_mem_cons.2
    ⟨isPart_of_isLetter (isLetter_of_isExponentMark formed.mark), List.forall_mem_append.2
      ⟨?_, isPart_of_digits formed.digits⟩⟩
  rcases formed.sign with none_ | ⟨c, sign, one⟩
  · simp [none_]
  · simp [one, isPart, sign]

theorem Extra.parts {e : Exponent} {extra : List Char} (behind : Extra e extra ahead) :
    ∀ c ∈ extra, isPart c = true := by
  cases behind with
  | letter isLetter => simpa using isPart_of_isLetter isLetter
  | none _ _ => simp

theorem Spells.parts (spells : Spells span outcome ahead) : ∀ c ∈ span, isPart c = true := by
  cases spells with
  | bare spells _ _ => exact spells.parts
  | scaled spells _ formed _ _ => exact List.forall_mem_append.2 ⟨spells.parts, formed.parts⟩
  | unscaled spells _ formed _ behind =>
      exact List.forall_mem_append.2
        ⟨List.forall_mem_append.2 ⟨spells.parts, formed.parts⟩, behind.parts⟩
  | dangling spells formed _ => exact List.forall_mem_append.2 ⟨spells.parts, formed.parts⟩
  | doubleDot dots _ =>
      obtain ⟨run, more, -, digits, moreDigits, rfl⟩ := dots
      exact List.forall_mem_append.2 ⟨isPart_of_digits digits,
        List.forall_mem_cons.2 ⟨rfl, List.forall_mem_cons.2 ⟨rfl, isPart_of_digits moreDigits⟩⟩⟩
  | dotExponent formed _ => exact List.forall_mem_cons.2 ⟨rfl, formed.parts⟩
  | loneDot _ _ => simp [isPart]

end Numeral

theorem Name.Spells.parts (spells : Name.Spells span outcome ahead) :
    ∀ c ∈ span, isNamePart c = true := by
  cases spells with
  | name known start parts _ =>
      refine List.forall_mem_append.2 ⟨fun c member => ?_,
        List.forall_mem_cons.2 ⟨isNamePart_of_isNameStart start, parts⟩⟩
      simp [isNamePart, isDigit_of_mem_code known c member]

theorem Word.Spells.parts (spells : Word.Spells span outcome ahead) :
    ∀ c ∈ span, isLetter c = true := by
  cases spells with
  | keyword word _ => exact isLetter_of_mem_word word
  | unknown _ inside _ _ => exact inside

theorem Operator.Spells.parts (spells : Operator.Spells span outcome ahead) :
    ∀ c ∈ span, isOperatorStart c = true := by
  cases spells with
  | pair pair =>
      rcases isPair_iff.1 pair with ⟨rfl, rfl | rfl | rfl | rfl⟩ | ⟨rfl, rfl⟩ <;>
        simp [isOperatorStart]
  | single first _ _ => simpa using first
  | bang _ => simp [isOperatorStart]

/-- A token is a string, a block comment that stays open, or free of blanks. -/
theorem Chunk.Stands.blank_cases {policy : Policy}
    (stands : (Chunk.token span outcome).Stands policy ahead) :
    StringLiteral.Spells span outcome ahead ∨
      (∃ text, span = '/' :: '*' :: text ∧ outcome = .error .openComment ∧ ahead = none ∧
        ∀ body, body <+: text → ¬ Comment.Body body) ∨
      ∀ c ∈ span, isBlank c = false := by
  cases stands with
  | slash _ _ =>
      refine .inr (.inr fun c member => ?_)
      obtain rfl := List.mem_singleton.1 member
      rfl
  | @openComment text unclosed => exact .inr (.inl ⟨text, rfl, rfl, rfl, unclosed⟩)
  | string spells => exact .inl spells
  | name spells =>
      exact .inr (.inr fun c member => isBlank_of_class (spells.parts c member) (by decide))
  | numeral spells _ =>
      exact .inr (.inr fun c member => isBlank_of_class (spells.parts c member) (by decide))
  | word spells =>
      exact .inr (.inr fun c member => isBlank_of_class (spells.parts c member) (by decide))
  | operator spells =>
      exact .inr (.inr fun c member => isBlank_of_class (spells.parts c member) (by decide))
  | unknown unknown =>
      refine .inr (.inr fun c member => ?_)
      obtain rfl := List.mem_singleton.1 member
      simp only [Policy.knows, Bool.or_eq_false_iff] at unknown
      exact unknown.1.1.1.1.1.1.1

/-- A correct token stands on one line. -/
theorem Chunk.Stands.feed_not_mem {policy : Policy} {l : Lexeme}
    (stands : (Chunk.token span (.ok l)).Stands policy ahead) : '\n' ∉ span := by
  rcases stands.blank_cases with spells | ⟨_, _, fault, _⟩ | blank
  · cases spells with
    | closed clean => simp [clean.feed]
  · cases fault
  · intro member
    cases blank '\n' member

end TeamScript
