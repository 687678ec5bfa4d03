/-
# TeamScript.Proofs.Acceptance -- the texts without faults

`Valid` lists the correct token texts, each with its condition on the character
that follows it; that condition is void at the end of a text.  `Parses` divides a
source into gap pieces and valid token texts.

`parses_iff_tokenize`: a source divides so if and only if its stream holds no
error token, and then the stream is the one that the division spells, kind by
kind, lexeme by lexeme and location by location.  In particular there is at most
one such stream for a source.
-/
import TeamScript.Proofs.Place
import TeamScript.Proofs.Row

namespace TeamScript

set_option autoImplicit false

open Numeral (Mantissa Unscaled Mark Power)

/-! ## The lexical grammar of correct sources -/

/-- `Valid kind text lexeme ahead`: the text of a token of this kind, known by this
lexeme, where `ahead` is the character behind it. -/
inductive Valid : Kind → List Char → String → Option Char → Prop
  | keyword {word : String} {ahead : Option Char}
      (known : word ∈ ["if", "else", "while", "return", "func"]) (stops : Stops isLetter ahead) :
      Valid .keyword word.toList word ahead
  | identifier {code : String} {c : Char} {body : List Char} {ahead : Option Char}
      (known : code ∈ ["134", "104", "199"]) (start : isLetter c = true ∨ c = '_')
      (parts : ∀ d ∈ body, isLetter d = true ∨ isDigit d = true ∨ d = '_')
      (stops : ∀ d, ahead = some d → ¬ (isLetter d = true ∨ isDigit d = true ∨ d = '_')) :
      Valid .name (code.toList ++ c :: body) (String.ofList (code.toList ++ c :: body)) ahead
  | integer {run : List Char} {ahead : Option Char} (spells : Mantissa.whole.Spells run)
      (stops : ∀ c, ahead = some c → isDigit c = false ∧ c ≠ '.' ∧ c ≠ 'e' ∧ c ≠ 'E')
      (code : String.ofList run ∈ ["134", "104", "199"] →
        ∀ c, ahead = some c → ¬ (isLetter c = true ∨ c = '_')) :
      Valid .integer run (String.ofList run) ahead
  | fraction {text : List Char} {ahead : Option Char} (spells : Mantissa.fractional.Spells text)
      (stops : ∀ c, ahead = some c → isDigit c = false ∧ c ≠ 'e' ∧ c ≠ 'E') :
      Valid .number text (String.ofList text) ahead
  | scaled {mantissa power : List Char} {ahead : Option Char} (unscaled : Unscaled mantissa)
      (code : String.ofList mantissa ∉ ["134", "104", "199"]) (scaled : Power power)
      (stops : Stops isDigit ahead) :
      Valid .number (mantissa ++ power) (String.ofList (mantissa ++ power)) ahead
  | string {content : List Char} {ahead : Option Char} (dollar : '$' ∉ content)
      (feed : '\n' ∉ content) (escape : ¬ ['\\', 'n'] <:+: content) :
      Valid .string ('$' :: (content ++ ['$'])) (String.ofList content) ahead
  | pair {text : String} {ahead : Option Char} (known : text ∈ ["==", "!=", "<=", "<>", ">="]) :
      Valid .operator text.toList text ahead
  | simple {text : String} {ahead : Option Char} (known : text ∈ ["+", "-", "*"]) :
      Valid .operator text.toList text ahead
  | equal {text : String} {ahead : Option Char} (known : text ∈ ["=", ">"])
      (stops : ahead ≠ some '=') : Valid .operator text.toList text ahead
  | less {ahead : Option Char} (equal : ahead ≠ some '=') (greater : ahead ≠ some '>') :
      Valid .operator ['<'] "<" ahead
  | slash {ahead : Option Char} (slash : ahead ≠ some '/') (star : ahead ≠ some '*') :
      Valid .operator ['/'] "/" ahead

/-- `Parses policy before source tokens`: behind the text `before`, the source divides
into gap pieces and valid token texts that spell the tokens. -/
inductive Parses (policy : Policy) : List Char → List Char → List Token → Prop
  | ending {before : List Char} :
      Parses policy before [] [⟨.ending, "<EOF>", Location.behind before⟩]
  | lastLine {before text : List Char} (within : '\n' ∉ text) :
      Parses policy before ('/' :: '/' :: text)
        [⟨.ending, "<EOF>", Location.behind (before ++ '/' :: '/' :: text)⟩]
  | gap {before span rest : List Char} {tokens : List Token} (piece : GapPiece policy span)
      (later : Parses policy (before ++ span) rest tokens) :
      Parses policy before (span ++ rest) tokens
  | token {before text rest : List Char} {kind : Kind} {lexeme : String} {tokens : List Token}
      (valid : Valid kind text lexeme rest.head?)
      (later : Parses policy (before ++ text) rest tokens) :
      Parses policy before (text ++ rest) (⟨kind, lexeme, Location.behind before⟩ :: tokens)

/-! ## Valid token texts and the chunks without fault -/

/-- A mantissa with a dot is no team code. -/
theorem not_coded_of_fraction {mantissa : List Char} (spells : Mantissa.fractional.Spells mantissa) :
    String.ofList mantissa ∉ ["134", "104", "199"] := by
  intro known
  have digits := Name.isDigit_of_mem_code known
  rw [String.toList_ofList] at digits
  cases spells with
  | fractional _ _ _ => cases digits '.' (by simp)

theorem not_opens_of_dangling {mantissa : List Char} (spells : Mantissa.dangling.Spells mantissa)
    (text : List Char) : ¬ Name.Opens (mantissa ++ text) := by
  cases spells with
  | dangling _ digits => simpa using Name.not_opens_of_dot digits text

/-- In front of a mark a mantissa opens a name if it is a team code. -/
theorem opens_of_mark_iff {mantissa mark : List Char} (unscaled : Unscaled mantissa)
    (marked : Mark mark) (text : List Char) :
    Name.Opens (mantissa ++ (mark ++ text)) ↔ String.ofList mantissa ∈ ["134", "104", "199"] := by
  obtain ⟨c, isMark, sign, -, rfl⟩ := marked
  cases unscaled with
  | whole spells =>
      obtain ⟨noDigit, isStart⟩ : isDigit c = false ∧ isNameStart c = true := by
        simp only [List.mem_cons, List.not_mem_nil, or_false] at isMark
        rcases isMark with rfl | rfl <;> decide
      cases spells with
      | whole _ digits =>
          rw [Name.opens_digits_iff digits (by simpa using noDigit)]
          exact and_iff_left ⟨c, rfl, isStart⟩
  | fractional spells =>
      refine iff_of_false ?_ (not_coded_of_fraction spells)
      cases spells with
      | fractional digits _ _ => simpa using Name.not_opens_of_dot digits _

variable {policy : Policy} {ahead : Option Char}

/-- An operator of one character stands where no longer one begins. -/
theorem stands_single {c : Char} (first : isOperatorStart c = true) (bang : c ≠ '!')
    (equal : c = '=' ∨ c = '>' ∨ c = '!' ∨ c = '<' → ahead ≠ some '=')
    (greater : c = '<' → ahead ≠ some '>') :
    ∃ l : Lexeme, l.kind = .operator ∧ l.text = String.singleton c ∧
      (Chunk.token [c] (.ok l)).Stands policy ahead :=
  ⟨.operator _, rfl, rfl,
    .operator (.single first bang (Operator.stops_isPair_iff.2 ⟨equal, greater⟩))⟩

theorem stands_of_valid {kind : Kind} {text : List Char} {lexeme : String}
    (valid : Valid kind text lexeme ahead) :
    ∃ l : Lexeme, l.kind = kind ∧ l.text = lexeme ∧
      (Chunk.token text (.ok l)).Stands policy ahead := by
  cases valid with
  | keyword known stops =>
      obtain ⟨word, rfl⟩ : ∃ word : Keyword, word.word = lexeme := by
        simp only [List.mem_cons, List.not_mem_nil, or_false] at known
        rcases known with rfl | rfl | rfl | rfl | rfl
        · exact ⟨.ifWord, rfl⟩
        · exact ⟨.elseWord, rfl⟩
        · exact ⟨.whileWord, rfl⟩
        · exact ⟨.returnWord, rfl⟩
        · exact ⟨.funcWord, rfl⟩
      exact ⟨.keyword word, rfl, rfl, .word (.keyword word stops)⟩
  | identifier known start parts stops =>
      refine ⟨.name _, rfl, rfl, .name (.name known ?_ ?_ ?_)⟩
      · simpa [isNameStart] using start
      · simpa [isNamePart, or_assoc] using parts
      · intro d next
        have other := stops d next
        simpa [isNamePart, and_assoc] using other
  | integer spells stops code =>
      refine ⟨.integer _, rfl, rfl, .numeral (.bare spells ?_ ?_) ?_⟩
      · intro c next
        obtain ⟨digit, dot, -, -⟩ := stops c next
        simp [Mantissa.continues, digit, dot]
      · intro c next
        obtain ⟨-, -, small, capital⟩ := stops c next
        simp [Numeral.isExponentMark, small, capital]
      · cases spells with
        | whole _ digits =>
            have digitStops : Stops isDigit ahead.toList.head? := by
              intro c next
              exact (stops c (by simpa using next)).1
            rw [Name.opens_digits_iff digits digitStops]
            rintro ⟨known, c, next, start⟩
            exact code known c (by simpa using next) (by simpa [isNameStart] using start)
  | fraction spells stops =>
      refine ⟨.number _, rfl, rfl, .numeral (.bare spells ?_ ?_) ?_⟩
      · intro c next
        exact (stops c next).1
      · intro c next
        obtain ⟨-, small, capital⟩ := stops c next
        simp [Numeral.isExponentMark, small, capital]
      · cases spells with
        | @fractional run fraction digits _ _ =>
            simpa using Name.not_opens_of_dot digits (fraction ++ ahead.toList)
  | scaled unscaled code scaled stops =>
      refine ⟨.number _, rfl, rfl, ?_⟩
      obtain ⟨shape, complete, spells⟩ := unscaled.exists_shape
      obtain ⟨e, formed, nonempty, rfl⟩ := scaled.exists_exponent
      refine .numeral (.scaled spells complete formed nonempty stops) fun opens => code ?_
      rw [List.append_assoc, Numeral.Exponent.text_eq, List.append_assoc,
        opens_of_mark_iff unscaled formed.marked] at opens
      exact opens
  | string dollar feed escape =>
      exact ⟨.string _, rfl, rfl, .string (.closed ⟨dollar, feed, escape⟩)⟩
  | pair known =>
      simp only [List.mem_cons, List.not_mem_nil, or_false] at known
      rcases known with rfl | rfl | rfl | rfl | rfl <;>
        exact ⟨.operator _, rfl, rfl, .operator (.pair rfl)⟩
  | simple known =>
      simp only [List.mem_cons, List.not_mem_nil, or_false] at known
      rcases known with rfl | rfl | rfl
      · exact stands_single (c := '+') rfl (by decide) (by simp) (by simp)
      · exact stands_single (c := '-') rfl (by decide) (by simp) (by simp)
      · exact stands_single (c := '*') rfl (by decide) (by simp) (by simp)
  | equal known stops =>
      simp only [List.mem_cons, List.not_mem_nil, or_false] at known
      rcases known with rfl | rfl
      · exact stands_single (c := '=') rfl (by decide) (fun _ => stops) (by simp)
      · exact stands_single (c := '>') rfl (by decide) (fun _ => stops) (by simp)
  | less equal greater =>
      exact stands_single (c := '<') rfl (by decide) (fun _ => equal) (fun _ => greater)
  | slash slash star => exact ⟨.operator "/", rfl, rfl, .slash slash star⟩

theorem valid_of_numeral {text : List Char} {l : Lexeme}
    (spells : Numeral.Spells text (.ok l) ahead) (unnamed : ¬ Name.Opens (text ++ ahead.toList)) :
    Valid l.kind text l.text ahead := by
  generalize outcome : (Except.ok l : Except Fault Lexeme) = found at spells
  cases spells with
  | @bare shape _ _ spells stops mark =>
      have marked : ∀ c, ahead = some c → c ≠ 'e' ∧ c ≠ 'E' := by
        intro c next
        simpa [Numeral.isExponentMark] using mark c next
      cases shape with
      | whole =>
          cases outcome
          refine .integer spells ?_ ?_
          · intro c next
            have other := stops c next
            simp only [Mantissa.continues, Bool.or_eq_false_iff, beq_eq_false_iff_ne] at other
            exact ⟨other.1, other.2, marked c next⟩
          · intro known c next start
            subst next
            exact unnamed ⟨_, known, c, [], by simp, by simpa [isNameStart] using start⟩
      | fractional =>
          cases outcome
          apply Valid.fraction spells
          intro c next
          exact ⟨stops c next, marked c next⟩
      | dangling => cases outcome
  | @scaled _ _ e _ spells complete formed nonempty stops =>
      cases outcome
      have unscaled := spells.unscaled complete
      refine .scaled unscaled (fun known => unnamed ?_) (formed.power nonempty) stops
      rw [List.append_assoc, Numeral.Exponent.text_eq, List.append_assoc]
      exact (opens_of_mark_iff unscaled formed.marked _).2 known
  | _ => cases outcome

theorem valid_of_operator {text : List Char} {l : Lexeme}
    (spells : Operator.Spells text (.ok l) ahead) : Valid l.kind text l.text ahead := by
  cases spells with
  | pair pair =>
      rcases Operator.isPair_iff.1 pair with ⟨rfl, rfl | rfl | rfl | rfl⟩ | ⟨rfl, rfl⟩
      · exact @Valid.pair "==" _ (by decide)
      · exact @Valid.pair ">=" _ (by decide)
      · exact @Valid.pair "!=" _ (by decide)
      · exact @Valid.pair "<=" _ (by decide)
      · exact @Valid.pair "<>" _ (by decide)
  | single first bang stops =>
      obtain ⟨equal, greater⟩ := Operator.stops_isPair_iff.1 stops
      simp only [isOperatorStart, Bool.or_eq_true, beq_iff_eq, or_assoc] at first
      rcases first with rfl | rfl | rfl | rfl | rfl | rfl | rfl
      · exact @Valid.simple "+" _ (by decide)
      · exact @Valid.simple "-" _ (by decide)
      · exact @Valid.equal "=" _ (by decide) (equal (by simp))
      · exact @Valid.simple "*" _ (by decide)
      · exact .less (equal (by simp)) (greater rfl)
      · exact @Valid.equal ">" _ (by decide) (equal (by simp))
      · exact absurd rfl bang

theorem valid_of_stands {text : List Char} {l : Lexeme}
    (stands : (Chunk.token text (.ok l)).Stands policy ahead) : Valid l.kind text l.text ahead := by
  cases stands with
  | slash slash star => exact .slash slash star
  | string spells =>
      cases spells with
      | closed clean => exact .string clean.dollar clean.feed clean.escape
  | name spells =>
      cases spells with
      | name known start parts stops =>
          refine .identifier known ?_ ?_ ?_
          · simpa [isNameStart] using start
          · simpa [isNamePart, or_assoc] using parts
          · intro d next
            have other := stops d next
            simpa [isNamePart, and_assoc] using other
  | numeral spells unnamed => exact valid_of_numeral spells unnamed
  | word spells =>
      cases spells with
      | keyword word stops => exact .keyword (by cases word <;> decide) stops
  | operator spells => exact valid_of_operator spells

/-! ## Correct sources -/

/-- A divided source is the text of a row, which has the tokens of the division. -/
theorem Parses.row {before source : List Char} {tokens : List Token}
    (parses : Parses policy before source tokens) :
    ∃ chunks, Chunk.Row policy chunks none ∧ Chunk.text chunks = source ∧
      Chunk.tokens (Location.behind before) chunks = tokens ∧ ∀ t ∈ tokens, t.isError = false := by
  induction parses with
  | ending => exact ⟨[], trivial, rfl, rfl, by simp [Token.isError]⟩
  | @lastLine before text within =>
      refine ⟨[.gap ('/' :: '/' :: text)], ⟨.lastLine within, trivial⟩, by simp [Chunk.span], ?_, ?_⟩
      · rw [Chunk.tokens, Location.behind_after]
        rfl
      · simp [Token.isError]
  | @gap before span rest tokens piece _ ih =>
      obtain ⟨chunks, row, rfl, rfl, correct⟩ := ih
      refine ⟨.gap span :: chunks, ⟨.gap piece, row⟩, rfl, ?_, correct⟩
      rw [Chunk.tokens, Location.behind_after]
  | @token before text rest kind lexeme tokens valid _ ih =>
      obtain ⟨chunks, row, rfl, rfl, correct⟩ := ih
      obtain ⟨l, rfl, rfl, stands⟩ := stands_of_valid valid
      refine ⟨.token text (.ok l) :: chunks, ⟨?_, row⟩, rfl, ?_, ?_⟩
      · rwa [Option.or_none]
      · rw [Chunk.tokens, Location.behind_after]
        rfl
      · intro t member
        rcases List.mem_cons.1 member with rfl | later
        · cases l <;> rfl
        · exact correct t later

/-- A row without error tokens divides its text. -/
theorem parses_of_row {chunks : List Chunk} {before : List Char}
    (row : Chunk.Row policy chunks none)
    (correct : ∀ t ∈ Chunk.tokens (Location.behind before) chunks, t.isError = false) :
    Parses policy before (Chunk.text chunks) (Chunk.tokens (Location.behind before) chunks) := by
  induction chunks generalizing before with
  | nil => exact .ending
  | cons chunk chunks ih =>
      obtain ⟨stands, row⟩ := row
      rw [Option.or_none] at stands
      cases chunk with
      | gap span =>
          rw [Chunk.tokens, Location.behind_after] at correct ⊢
          generalize next : (Chunk.text chunks).head? = ahead at stands
          cases stands with
          | gap piece => exact .gap piece (ih row correct)
          | @lastLine text within =>
              obtain rfl := Chunk.eq_nil_of_text row (List.head?_eq_none_iff.1 next)
              rw [Chunk.text_cons, Chunk.text_nil, List.append_nil]
              exact .lastLine within
      | token span outcome =>
          rw [Chunk.tokens, Location.behind_after] at correct ⊢
          obtain ⟨first, later⟩ := List.forall_mem_cons.1 correct
          cases outcome with
          | error fault => cases first
          | ok l => exact .token (valid_of_stands stands) (ih row later)

/-- The correct sources are those that divide into gap pieces and valid token texts, and
their streams are what the division spells. -/
theorem parses_iff_tokenize (policy : Policy) (source : List Char) (tokens : List Token) :
    Parses policy [] source tokens ↔
      tokenize policy source = tokens ∧ ∀ t ∈ tokens, t.isError = false := by
  constructor
  · intro parses
    obtain ⟨chunks, row, rfl, rfl, correct⟩ := parses.row
    exact ⟨tokenize_of_row row, correct⟩
  · rintro ⟨rfl, correct⟩
    obtain ⟨chunks, row, rfl⟩ := Chunk.exists_row policy source
    rw [tokenize_of_row row] at correct ⊢
    exact parses_of_row row correct

end TeamScript
