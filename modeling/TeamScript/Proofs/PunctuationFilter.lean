/-
# TeamScript.Proofs.PunctuationFilter -- what skipping punctuation changes

Skipped punctuation leaves no token where refused punctuation leaves an unknown
character, and that is all.  Both policies cut a text into the same chunks: a
string, a comment and the text of a fault end where they end, whatever they
contain, and only a chunk that is a lone punctuation character is a gap under the
one policy and a token under the other (`Chunk.skipped`).

* `Chunk.Row.skipped`: the row of a text under the one policy makes its row under
  the other;
* `Chunk.tokens_skipped`: the tokens of that row are those of the first that are
  not about punctuation.

No other fault reads like a punctuation character (`Fault.isPunctuation_token`),
so the tokens that skipping loses can be told by kind and lexeme.
-/
import TeamScript.Proofs.Row

namespace TeamScript

set_option autoImplicit false

/-- The token reports a punctuation character, which is its lexeme. -/
def Token.isPunctuation (t : Token) : Bool :=
  t.isError && ["(", ")", "\x7b", "\x7d", "[", "]", ",", ";", ":"].contains t.lexeme

/-! ## Faults about punctuation -/

namespace Fault

def isPunctuation : Fault → Bool
  | unknownCharacter c => ['(', ')', '\x7b', '\x7d', '[', ']', ',', ';', ':'].contains c
  | _ => false

/-- A token with a longer lexeme than one character reports no punctuation. -/
theorem not_isPunctuation_of_length {lexeme : String} (longer : 1 < lexeme.length) (kind : Kind)
    (location : Location) : (Token.mk kind lexeme location).isPunctuation = false := by
  have short : ∀ text ∈ ["(", ")", "\x7b", "\x7d", "[", "]", ",", ";", ":"],
      text.length = 1 := by decide
  rw [Token.isPunctuation, ← Bool.not_eq_true, Bool.and_eq_true, List.contains_iff_mem]
  rintro ⟨-, known⟩
  have one := short lexeme known
  omega

/-- What a fault is about can be told by its message. -/
theorem isPunctuation_token (f : Fault) (location : Location) :
    (f.token location).isPunctuation = f.isPunctuation := by
  have headed {heading : String} (longer : 1 < heading.length) (text : String) :
      (Token.mk .error (heading ++ text) location).isPunctuation = false := by
    apply not_isPunctuation_of_length
    rw [String.length_append]
    omega
  cases f with
  | unknownCharacter c =>
      show ((['(', ')', '\x7b', '\x7d', '[', ']', ',', ';', ':'].map String.singleton).contains
          (String.singleton c)) = _
      rw [Bool.eq_iff_iff, List.contains_iff_mem, isPunctuation, List.contains_iff_mem]
      constructor
      · intro known
        obtain ⟨d, member, same⟩ := List.mem_map.1 known
        obtain rfl : d = c := by simpa using same
        exact member
      · exact List.mem_map_of_mem
  | unknownWord word => exact @headed "unknown word: " (by decide) word
  | doubleDot text => exact @headed "malformed number: " (by decide) text
  | emptyFraction text => exact @headed "malformed float: " (by decide) text
  | badExponent text => exact @headed "bad exponent: " (by decide) text
  | loneBang => rfl
  | loneDot => rfl
  | forbiddenEscape => exact not_isPunctuation_of_length (by decide) _ _
  | openString => exact not_isPunctuation_of_length (by decide) _ _
  | openComment => exact not_isPunctuation_of_length (by decide) _ _

end Fault

namespace Chunk

/-- The chunk is a token about a punctuation character. -/
def isPunctuation : Chunk → Bool
  | token _ (.error fault) => fault.isPunctuation
  | _ => false

/-- The chunk as it is when punctuation is skipped. -/
def skipped (chunk : Chunk) : Chunk :=
  if chunk.isPunctuation then .gap chunk.span else chunk

theorem skipped_of_not {chunk : Chunk} (kept : chunk.isPunctuation = false) :
    chunk.skipped = chunk := by
  simp [skipped, kept]

@[simp] theorem skipped_span (chunk : Chunk) : chunk.skipped.span = chunk.span := by
  unfold skipped
  split <;> rfl

@[simp] theorem text_skipped (chunks : List Chunk) : text (chunks.map skipped) = text chunks := by
  induction chunks with
  | nil => rfl
  | cons chunk chunks ih => rw [List.map_cons, text_cons, text_cons, skipped_span, ih]

/-! ## The tokens that are left -/

theorem isPunctuation_tokenOf (span : List Char) (outcome : Except Fault Lexeme)
    (location : Location) :
    (tokenOf outcome location).isPunctuation = (token span outcome).isPunctuation := by
  cases outcome with
  | ok lexeme => cases lexeme <;> rfl
  | error fault => exact fault.isPunctuation_token location

theorem tokens_skipped (location : Location) (chunks : List Chunk) :
    tokens location (chunks.map skipped) =
      (tokens location chunks).filter fun t => !t.isPunctuation := by
  induction chunks generalizing location with
  | nil => rfl
  | cons chunk chunks ih =>
      cases chunk with
      | gap span => exact ih _
      | token span outcome =>
          have told := isPunctuation_tokenOf span outcome location
          rw [tokens, List.map_cons]
          cases about : (token span outcome).isPunctuation with
          | true =>
              rw [List.filter_cons_of_neg (by simp [told, about]), ← ih, skipped, about]
              rfl
          | false =>
              rw [List.filter_cons_of_pos (by simp [told, about]), ← ih, skipped_of_not about]
              rfl

end Chunk

/-! ## The row that is left -/

theorem GapPiece.skipped {span : List Char} (piece : GapPiece .refuse span) :
    GapPiece .skip span := by
  cases piece with
  | blank blank => exact .blank blank
  | punctuation skips _ => cases skips
  | line within => exact .line within
  | block block => exact .block block

namespace Chunk

variable {span : List Char} {outcome : Except Fault Lexeme} {ahead : Option Char}

theorem not_isPunctuation_of_string (spells : StringLiteral.Spells span outcome ahead) :
    (token span outcome).isPunctuation = false := by
  cases spells <;> rfl

theorem not_isPunctuation_of_name (spells : Name.Spells span outcome ahead) :
    (token span outcome).isPunctuation = false := by
  cases spells
  rfl

theorem not_isPunctuation_of_numeral (spells : Numeral.Spells span outcome ahead) :
    (token span outcome).isPunctuation = false := by
  cases spells with
  | @bare shape _ _ _ _ _ => cases shape <;> rfl
  | _ => rfl

theorem not_isPunctuation_of_word (spells : Word.Spells span outcome ahead) :
    (token span outcome).isPunctuation = false := by
  cases spells <;> rfl

theorem not_isPunctuation_of_operator (spells : Operator.Spells span outcome ahead) :
    (token span outcome).isPunctuation = false := by
  cases spells <;> rfl

/-- What stands when punctuation is refused stands when it is skipped, an unknown character
perhaps as a gap. -/
theorem Stands.skipped {chunk : Chunk} (stands : chunk.Stands .refuse ahead) :
    chunk.skipped.Stands .skip ahead := by
  cases stands with
  | gap piece => exact .gap piece.skipped
  | lastLine within => exact .lastLine within
  | slash slash star => exact .slash slash star
  | openComment unclosed => exact .openComment unclosed
  | string spells =>
      rw [skipped_of_not (not_isPunctuation_of_string spells)]
      exact .string spells
  | name spells =>
      rw [skipped_of_not (not_isPunctuation_of_name spells)]
      exact .name spells
  | numeral spells unnamed =>
      rw [skipped_of_not (not_isPunctuation_of_numeral spells)]
      exact .numeral spells unnamed
  | word spells =>
      rw [skipped_of_not (not_isPunctuation_of_word spells)]
      exact .word spells
  | operator spells =>
      rw [skipped_of_not (not_isPunctuation_of_operator spells)]
      exact .operator spells
  | @unknown c _ unknown =>
      cases about : TeamScript.isPunctuation c with
      | true =>
          have gap : (token [c] (.error (.unknownCharacter c))).skipped = .gap [c] := if_pos about
          rw [gap]
          exact .gap (.of_skips about)
      | false =>
          have kept : (token [c] (.error (.unknownCharacter c))).isPunctuation = false := about
          have stillUnknown : Policy.skip.knows c = false := by
            simpa [Policy.knows, Policy.skips, about] using unknown
          rw [skipped_of_not kept]
          exact .unknown stillUnknown

theorem Row.skipped {chunks : List Chunk} (row : Row .refuse chunks ahead) :
    Row .skip (chunks.map Chunk.skipped) ahead := by
  induction chunks with
  | nil => trivial
  | cons chunk chunks ih =>
      obtain ⟨stands, others⟩ := row
      refine ⟨?_, ih others⟩
      rw [text_skipped]
      exact stands.skipped

end Chunk

/-- When punctuation is skipped, the stream loses the tokens that report it and stays the same
otherwise.  The text falls into the same chunks, but those that are a lone punctuation character
are gaps. -/
theorem tokenize_skip_eq_filter (text : List Char) :
    tokenize .skip text = (tokenize .refuse text).filter (fun t => !t.isPunctuation) ∧
      Chunk.ofText .skip text = (Chunk.ofText .refuse text).map Chunk.skipped := by
  obtain ⟨chunks, row, rfl⟩ := Chunk.exists_row .refuse text
  have skipped := row.skipped
  constructor
  · rw [tokenize_of_row row, ← Chunk.tokens_skipped, ← tokenize_of_row skipped,
      Chunk.text_skipped]
  · rw [Chunk.ofText_text row, ← Chunk.ofText_text skipped, Chunk.text_skipped]

end TeamScript
