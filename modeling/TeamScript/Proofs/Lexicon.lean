/-
# TeamScript.Proofs.Lexicon -- which lexemes there are

`Lexicon policy kind lexeme` lists the lexemes of each kind, and
`Fault.Possible policy fault` the faults that a text may have.  Both are exact:
every token is in the lexicon, and every entry of it is a token of some text.

A fault can be told from its message (`Fault.ofMessage?_message`).  Of all faults
this is not true: an unknown character `!` or `.` would read like a lone bang or a
lone dot.  But neither character is ever unknown, because both begin a token, if
only a faulty one.
-/
import TeamScript.Proofs.Acceptance

namespace TeamScript

set_option autoImplicit false

open Numeral (Mantissa Unscaled Mark Power Tail DotTail DoubleDot OneLetter)

/-! ## The faults a text may have -/

namespace Fault

/-- Some text has the fault.  The digits, letters and signs that a fault carries are all of a
form that begins like a correct token and then goes wrong. -/
inductive Possible (policy : Policy) : Fault → Prop
  | loneBang : Possible policy .loneBang
  | loneDot : Possible policy .loneDot
  | unknownCharacter {c : Char} (blank : c ∉ [' ', '\t', '\r', '\n']) (letter : isLetter c = false)
      (digit : isDigit c = false) (sign : c ∉ ['.', '+', '-', '*', '/', '=', '<', '>', '!', '$'])
      (skipped : policy = .skip → c ∉ ['(', ')', '\x7b', '\x7d', '[', ']', ',', ';', ':']) :
      Possible policy (.unknownCharacter c)
  | unknownWord {letters : List Char} (nonempty : letters ≠ [])
      (inside : ∀ c ∈ letters, isLetter c = true)
      (unknown : String.ofList letters ∉ ["if", "else", "while", "return", "func"]) :
      Possible policy (.unknownWord (String.ofList letters))
  | doubleDot {span : List Char} (dots : DoubleDot span) :
      Possible policy (.doubleDot (String.ofList span))
  | emptyFraction {mantissa : List Char} (spells : Mantissa.dangling.Spells mantissa) :
      Possible policy (.emptyFraction (String.ofList mantissa))
  | exponentAfterDot {mantissa tail : List Char} (spells : Mantissa.dangling.Spells mantissa)
      (scaled : Tail tail) : Possible policy (.emptyFraction (String.ofList (mantissa ++ tail)))
  | dotExponent {span : List Char} (dotted : DotTail span) :
      Possible policy (.badExponent (String.ofList span))
  | emptyExponent {mantissa mark letter : List Char} (unscaled : Unscaled mantissa)
      (code : String.ofList mantissa ∉ ["134", "104", "199"]) (marked : Mark mark)
      (one : OneLetter letter) :
      Possible policy (.badExponent (String.ofList (mantissa ++ mark ++ letter)))
  | forbiddenEscape : Possible policy .forbiddenEscape
  | openString : Possible policy .openString
  | openComment : Possible policy .openComment

end Fault

/-! ## The lexicon -/

/-- The lexemes of a kind. -/
inductive Lexicon (policy : Policy) : Kind → String → Prop
  | identifier {code : String} {c : Char} {body : List Char} (known : code ∈ ["134", "104", "199"])
      (start : isLetter c = true ∨ c = '_')
      (parts : ∀ d ∈ body, isLetter d = true ∨ isDigit d = true ∨ d = '_') :
      Lexicon policy .name (String.ofList (code.toList ++ c :: body))
  | keyword {word : String} (known : word ∈ ["if", "else", "while", "return", "func"]) :
      Lexicon policy .keyword word
  | integer {run : List Char} (spells : Mantissa.whole.Spells run) :
      Lexicon policy .integer (String.ofList run)
  | fraction {text : List Char} (spells : Mantissa.fractional.Spells text) :
      Lexicon policy .number (String.ofList text)
  | scaled {mantissa power : List Char} (unscaled : Unscaled mantissa)
      (code : String.ofList mantissa ∉ ["134", "104", "199"]) (scaled : Power power) :
      Lexicon policy .number (String.ofList (mantissa ++ power))
  | string {content : List Char} (dollar : '$' ∉ content) (feed : '\n' ∉ content)
      (escape : ¬ ['\\', 'n'] <:+: content) : Lexicon policy .string (String.ofList content)
  | operator {text : String}
      (known : text ∈ ["+", "-", "*", "/", "=", "==", "!=", "<", "<=", "<>", ">", ">="]) :
      Lexicon policy .operator text
  | ending : Lexicon policy .ending "<EOF>"
  | fault {fault : Fault} (possible : fault.Possible policy) : Lexicon policy .error fault.message

variable {policy : Policy} {ahead : Option Char}

/-! ## Lexemes without fault -/

theorem lexicon_of_valid {kind : Kind} {text : List Char} {lexeme : String}
    (valid : Valid kind text lexeme ahead) : Lexicon policy kind lexeme := by
  have operator {lexeme : String} {some_ : List String} (known : lexeme ∈ some_)
      (all : some_ ⊆ ["+", "-", "*", "/", "=", "==", "!=", "<", "<=", "<>", ">", ">="]) :
      Lexicon policy .operator lexeme := .operator (all known)
  cases valid with
  | keyword known _ => exact .keyword known
  | identifier known start parts _ => exact .identifier known start parts
  | integer spells _ _ => exact .integer spells
  | fraction spells _ => exact .fraction spells
  | scaled unscaled code scaled _ => exact .scaled unscaled code scaled
  | string dollar feed escape => exact .string dollar feed escape
  | pair known => exact operator known (by decide)
  | simple known => exact operator known (by decide)
  | equal known _ => exact operator known (by decide)
  | less _ _ => exact .operator (by decide)
  | slash _ _ => exact .operator (by decide)

/-- Nothing stands behind the end of a text, so there all entries are valid. -/
theorem valid_of_lexicon {kind : Kind} {lexeme : String} (entry : Lexicon policy kind lexeme) :
    kind = .error ∨ kind = .ending ∨ ∃ text, Valid kind text lexeme none := by
  cases entry with
  | identifier known start parts => exact .inr (.inr ⟨_, .identifier known start parts (by simp)⟩)
  | keyword known => exact .inr (.inr ⟨_, .keyword known (stops_none _)⟩)
  | integer spells => exact .inr (.inr ⟨_, .integer spells (by simp) (by simp)⟩)
  | fraction spells => exact .inr (.inr ⟨_, .fraction spells (by simp)⟩)
  | scaled unscaled code scaled =>
      exact .inr (.inr ⟨_, .scaled unscaled code scaled (stops_none _)⟩)
  | string dollar feed escape => exact .inr (.inr ⟨_, .string dollar feed escape⟩)
  | operator known =>
      refine .inr (.inr ?_)
      simp only [List.mem_cons, List.not_mem_nil, or_false] at known
      rcases known with rfl | rfl | rfl | rfl | rfl | rfl | rfl | rfl | rfl | rfl | rfl | rfl
      · exact ⟨_, .simple (by decide)⟩
      · exact ⟨_, .simple (by decide)⟩
      · exact ⟨_, .simple (by decide)⟩
      · exact ⟨_, .slash (by simp) (by simp)⟩
      · exact ⟨_, .equal (by decide) (by simp)⟩
      · exact ⟨_, .pair (by decide)⟩
      · exact ⟨_, .pair (by decide)⟩
      · exact ⟨_, .less (by simp) (by simp)⟩
      · exact ⟨_, .pair (by decide)⟩
      · exact ⟨_, .pair (by decide)⟩
      · exact ⟨_, .equal (by decide) (by simp)⟩
      · exact ⟨_, .pair (by decide)⟩
  | ending => exact .inr (.inl rfl)
  | fault _ => exact .inl rfl

/-! ## Faults -/

namespace Numeral

theorem Extra.one {e : Exponent} {extra : List Char} (behind : Extra e extra ahead) :
    OneLetter extra := by
  cases behind with
  | letter isLetter => exact ⟨Nat.le_refl 1, by simpa using isLetter⟩
  | none _ _ => exact ⟨Nat.zero_le 1, by simp⟩

/-- At most one letter is taken along, and at the end of a text it may be any. -/
theorem OneLetter.extra {e : Exponent} {extra : List Char} (one : OneLetter extra) :
    Extra e extra none := by
  obtain ⟨short, letters⟩ := one
  cases extra with
  | nil => exact .none ⟨stops_none _, fun _ _ => stops_none _⟩ (stops_none _)
  | cons c extra =>
      obtain rfl : extra = [] := by simpa using short
      exact .letter (letters c (by simp))

theorem Spells.possible {span : List Char} {f : Fault} (spells : Spells span (.error f) ahead)
    (unnamed : ¬ Name.Opens (span ++ ahead.toList)) : f.Possible policy := by
  generalize outcome : (Except.error f : Except Fault Lexeme) = found at spells
  cases spells with
  | @bare shape _ _ spells _ _ =>
      cases shape with
      | dangling =>
          cases outcome
          exact .emptyFraction spells
      | _ => cases outcome
  | scaled _ _ _ _ _ => cases outcome
  | @unscaled _ _ _ e _ spells complete formed power behind =>
      cases outcome
      have unscaled := spells.unscaled complete
      have text : e.text = e.mark :: e.sign := by simp [Exponent.text, power]
      rw [text] at unnamed ⊢
      refine .emptyExponent unscaled (fun known => unnamed ?_) formed.marked behind.one
      rw [List.append_assoc, List.append_assoc]
      exact (opens_of_mark_iff unscaled formed.marked _).2 known
  | dangling spells formed _ =>
      cases outcome
      exact .exponentAfterDot spells formed.tail
  | doubleDot dots _ =>
      cases outcome
      exact .doubleDot dots
  | dotExponent formed _ =>
      cases outcome
      exact .dotExponent ⟨_, formed.tail, rfl⟩
  | loneDot _ _ =>
      cases outcome
      exact .loneDot

end Numeral

namespace Chunk

theorem not_mem_of_unknown {c : Char} (unknown : policy.knows c = false) :
    Fault.Possible policy (.unknownCharacter c) := by
  simp only [Policy.knows, isBlank, isOperatorStart, Bool.or_eq_false_iff, beq_eq_false_iff_ne]
    at unknown
  refine .unknownCharacter (by simp [unknown]) (by simp [unknown]) (by simp [unknown])
    (by simp [unknown]) ?_
  intro skip known
  have skips := Policy.skips_iff.2 ⟨skip, known⟩
  rw [unknown.2] at skips
  cases skips

/-- A fault that stands in a text is possible. -/
theorem Stands.possible {span : List Char} {f : Fault}
    (stands : (token span (.error f)).Stands policy ahead) : f.Possible policy := by
  cases stands with
  | openComment _ => exact .openComment
  | string spells =>
      cases spells with
      | cut _ => exact .openString
      | broken _ _ => exact .openString
      | escape _ _ => exact .forbiddenEscape
  | name spells => cases spells
  | numeral spells unnamed => exact spells.possible unnamed
  | word spells =>
      cases spells with
      | unknown nonempty inside unknown _ =>
          refine .unknownWord nonempty inside fun known => ?_
          obtain ⟨word, -, same⟩ : ∃ word ∈ Keyword.all, word.word = String.ofList _ :=
            List.mem_map.1 known
          exact unknown word (by rw [same, String.toList_ofList])
  | operator spells =>
      cases spells with
      | bang _ => exact .loneBang
  | unknown unknown => exact not_mem_of_unknown unknown

/-- A possible fault stands somewhere, for instance at the end of a text. -/
theorem exists_stands_of_possible {f : Fault} (possible : f.Possible policy) :
    ∃ span, (token span (.error f)).Stands policy none := by
  have ends (e : Numeral.Exponent) : e.Ends none := ⟨stops_none _, fun _ _ => stops_none _⟩
  cases possible with
  | loneBang => exact ⟨_, .operator (.bang (stops_none _))⟩
  | loneDot =>
      exact ⟨_, .numeral (.loneDot (stops_none _) (stops_none _))
        (@Name.not_opens_of_dot [] (by simp) _)⟩
  | @unknownCharacter c blank letter digit sign skipped =>
      refine ⟨_, .unknown ?_⟩
      have skips : policy.skips c = false := Bool.eq_false_iff.2 fun skips =>
        skipped (Policy.skips_iff.1 skips).1 (Policy.skips_iff.1 skips).2
      simp only [List.mem_cons, List.not_mem_nil, or_false, not_or] at blank sign
      simp [Policy.knows, isBlank, isOperatorStart, blank, letter, digit, sign, skips]
  | unknownWord nonempty inside unknown =>
      refine ⟨_, .word (.unknown nonempty inside (fun word same => unknown ?_) (stops_none _))⟩
      rw [← same, String.ofList_toList]
      exact List.mem_map.2 ⟨word, Keyword.mem_all word, rfl⟩
  | doubleDot dots =>
      refine ⟨_, .numeral (.doubleDot dots (stops_none _)) ?_⟩
      obtain ⟨run, more, -, digits, -, rfl⟩ := dots
      simpa using Name.not_opens_of_dot digits _
  | emptyFraction spells =>
      refine ⟨_, .numeral (.bare spells (stops_none _) (stops_none _)) ?_⟩
      simpa using not_opens_of_dangling spells []
  | exponentAfterDot spells scaled =>
      obtain ⟨e, formed, rfl⟩ := scaled.exists_exponent
      refine ⟨_, .numeral (.dangling spells formed (ends e)) ?_⟩
      rw [List.append_assoc]
      exact not_opens_of_dangling spells _
  | dotExponent dotted =>
      obtain ⟨_, tail, rfl⟩ := dotted
      obtain ⟨e, formed, rfl⟩ := tail.exists_exponent
      exact ⟨_, .numeral (.dotExponent formed (ends e)) (@Name.not_opens_of_dot [] (by simp) _)⟩
  | @emptyExponent _ mark _ unscaled code marked one =>
      obtain ⟨shape, complete, spells⟩ := unscaled.exists_shape
      obtain ⟨e, formed, power, text⟩ := @Mark.exists_exponent mark [] marked (by simp)
      have stands := Numeral.Spells.unscaled spells complete formed power (one.extra (e := e))
      rw [text, List.append_nil] at stands
      refine ⟨_, .numeral stands fun opens => code ?_⟩
      rw [List.append_assoc, List.append_assoc] at opens
      exact (opens_of_mark_iff unscaled marked _).1 opens
  | forbiddenEscape =>
      have skips : StringLiteral.Skips [] none := .open_ (by simp) (by simp)
      exact ⟨_, .string (.escape StringLiteral.clean_nil skips)⟩
  | openString => exact ⟨_, .string (.cut StringLiteral.clean_nil)⟩
  | openComment =>
      have unclosed : ∀ body, body <+: [] → ¬ Comment.Body body := by
        intro body front closed
        exact closed.ne_nil (List.prefix_nil.1 front)
      exact ⟨_, .openComment unclosed⟩

end Chunk

/-! ## Messages -/

/-- A text with another heading in front does not begin with this one, if neither of the two
begins with the other. -/
theorem not_prefix_append {heading other : List Char} (apart : ¬ heading <+: other)
    (apart' : ¬ other <+: heading) (text : List Char) : ¬ heading <+: other ++ text := by
  intro front
  have front' : other <+: other ++ text := List.prefix_append other text
  rcases Nat.le_total heading.length other.length with short | short
  · exact apart (List.prefix_of_prefix_length_le front front' short)
  · exact apart' (List.prefix_of_prefix_length_le front' front short)

namespace Fault

/-- How the messages begin, and the fault that the text behind makes of each.  The message of
an unknown character is the character. -/
def headings : List (String × (String → Fault)) :=
  [("!", fun _ => loneBang), (".", fun _ => loneDot), ("unknown word: ", unknownWord),
    ("malformed number: ", doubleDot), ("malformed float: ", emptyFraction),
    ("bad exponent: ", badExponent), ("string contains forbidden \\n", fun _ => forbiddenEscape),
    ("unterminated string", fun _ => openString), ("unterminated comment", fun _ => openComment)]

/-- The fault that a message is about. -/
def ofMessage? (message : String) : Option Fault :=
  match headings.find? fun entry => entry.1.toList.isPrefixOf message.toList with
  | some (heading, fault) =>
      some (fault (String.ofList (message.toList.drop heading.toList.length)))
  | none => message.toList.head?.map unknownCharacter

/-- No heading is the beginning of another one. -/
theorem headings_apart : headings.Pairwise fun a b =>
    ¬ a.1.toList <+: b.1.toList ∧ ¬ b.1.toList <+: a.1.toList := by
  decide

theorem find?_heading {entries : List (String × (String → Fault))}
    (apart : entries.Pairwise fun a b =>
      ¬ a.1.toList <+: b.1.toList ∧ ¬ b.1.toList <+: a.1.toList)
    {entry : String × (String → Fault)} (member : entry ∈ entries) (text : List Char) :
    (entries.find? fun other => other.1.toList.isPrefixOf (entry.1.toList ++ text)) =
      some entry := by
  induction entries with
  | nil => cases member
  | cons first entries ih =>
      obtain ⟨front, others⟩ := List.pairwise_cons.1 apart
      rcases List.mem_cons.1 member with rfl | later
      · exact List.find?_cons_of_pos (by simp)
      · obtain ⟨other, other'⟩ := front entry later
        rw [List.find?_cons_of_neg (by simpa using not_prefix_append other other' text)]
        exact ih others later

theorem ofMessage?_append (heading : String) {fault : String → Fault}
    (known : (heading, fault) ∈ headings) (text : String) :
    ofMessage? (heading ++ text) = some (fault text) := by
  have found := find?_heading headings_apart known text.toList
  dsimp only at found
  rw [ofMessage?, String.toList_append, found]
  simp

/-- The message of a possible fault tells which fault it is. -/
theorem ofMessage?_message {f : Fault} (possible : f.Possible policy) :
    ofMessage? f.message = some f := by
  cases possible with
  | @unknownCharacter c _ _ _ sign _ =>
      simp only [List.mem_cons, List.not_mem_nil, or_false, not_or] at sign
      -- a heading of more than one character is too long to begin this message
      have other : ∀ entry ∈ headings, ¬ entry.1.toList <+: [c] := by
        intro entry known front
        have forms : ∀ entry ∈ headings, entry.1.toList = ['!'] ∨ entry.1.toList = ['.'] ∨
            1 < entry.1.toList.length := by decide
        rcases forms entry known with bang | dot | long
        · rw [bang] at front
          simp [Ne.symm, sign] at front
        · rw [dot] at front
          simp [Ne.symm, sign] at front
        · have short := front.length_le
          simp only [List.length_singleton] at short
          omega
      have none_ : (headings.find? fun entry => entry.1.toList.isPrefixOf [c]) = none := by
        rw [List.find?_eq_none]
        simpa using other
      have single : (unknownCharacter c).message.toList = [c] := String.toList_singleton c
      rw [ofMessage?, single, none_]
      rfl
  | unknownWord _ _ _ => exact ofMessage?_append "unknown word: " (by simp [headings]) _
  | doubleDot _ => exact ofMessage?_append "malformed number: " (by simp [headings]) _
  | emptyFraction _ => exact ofMessage?_append "malformed float: " (by simp [headings]) _
  | exponentAfterDot _ _ => exact ofMessage?_append "malformed float: " (by simp [headings]) _
  | dotExponent _ => exact ofMessage?_append "bad exponent: " (by simp [headings]) _
  | emptyExponent _ _ _ _ => exact ofMessage?_append "bad exponent: " (by simp [headings]) _
  | _ => decide +kernel

end Fault

/-! ## The tokens of a text -/

namespace Chunk

theorem Row.lexicon {chunks : List Chunk} (row : Row policy chunks ahead) {location : Location}
    {t : Token} (member : t ∈ tokens location chunks) : Lexicon policy t.kind t.lexeme := by
  rcases mem_tokens member with ⟨place, rfl⟩ | ⟨span, outcome, place, inside, rfl⟩
  · exact .ending
  · obtain ⟨next, stands⟩ := row.stands_of_mem inside
    cases outcome with
    | ok l => exact lexicon_of_valid (valid_of_stands stands)
    | error fault => exact .fault stands.possible

end Chunk

/-- Every entry of the lexicon is a token of some text, for instance of its own. -/
theorem exists_token_of_lexicon {kind : Kind} {lexeme : String}
    (entry : Lexicon policy kind lexeme) :
    ∃ text, ∃ t ∈ tokenize policy text, t.kind = kind ∧ t.lexeme = lexeme := by
  have alone {span : List Char} {outcome : Except Fault Lexeme}
      (stands : (Chunk.token span outcome).Stands policy none) :
      Chunk.tokenOf outcome .start ∈ tokenize policy span := by
    have row : Chunk.Row policy [.token span outcome] none := ⟨stands, trivial⟩
    have stream := tokenize_of_row row
    rw [Chunk.text_cons, Chunk.text_nil, List.append_nil] at stream
    rw [Chunk.span] at stream
    rw [stream]
    exact List.mem_cons_self
  rcases valid_of_lexicon entry with rfl | rfl | ⟨span, valid⟩
  · cases entry with
    | fault possible =>
        obtain ⟨span, stands⟩ := Chunk.exists_stands_of_possible possible
        exact ⟨span, _, alone stands, rfl, rfl⟩
  · cases entry
    have stream : tokenize policy [] = [.ending .start] :=
      @tokenize_of_row policy [] trivial
    exact ⟨[], .ending .start, by simp [stream], rfl, rfl⟩
  · obtain ⟨l, rfl, rfl, stands⟩ := stands_of_valid valid
    exact ⟨span, _, alone stands, rfl, rfl⟩

/-- A keyword token stands for the word it spells. -/
theorem keyword?_of_lexicon {t : Token} (entry : Lexicon policy t.kind t.lexeme)
    (isKeyword : t.kind = .keyword) :
    ∃ word, t.keyword? = some word ∧ word.word = t.lexeme := by
  rw [isKeyword] at entry
  obtain ⟨word, same⟩ : ∃ word : Keyword, word.word = t.lexeme := by
    generalize t.lexeme = lexeme at entry
    cases entry with
    | keyword known =>
        obtain ⟨word, -, same⟩ : ∃ word ∈ Keyword.all, word.word = lexeme := List.mem_map.1 known
        exact ⟨word, same⟩
  refine ⟨word, ?_, same⟩
  rw [Token.keyword?, isKeyword, ← same]
  exact Keyword.ofWord?_word word

/-- An error token reports a possible fault. -/
theorem exists_possible_of_lexicon {t : Token} (entry : Lexicon policy t.kind t.lexeme)
    (isError : t.kind = .error) : ∃ f : Fault, f.Possible policy ∧ t = f.token t.location := by
  obtain ⟨kind, lexeme, location⟩ := t
  dsimp only at isError entry
  subst isError
  cases entry with
  | fault possible => exact ⟨_, possible, rfl⟩

/-- The tokens of all texts are the entries of the lexicon.  Keyword tokens, and no others, stand
for a keyword, the one they spell.  An error token reports a possible fault, and its lexeme tells
which: no other fault that is possible, whatever the policy, has that message. -/
theorem tokenize_lexicon (policy : Policy) :
    (∀ kind lexeme, Lexicon policy kind lexeme ↔
      ∃ text, ∃ t ∈ tokenize policy text, t.kind = kind ∧ t.lexeme = lexeme) ∧
    ∀ text, ∀ t ∈ tokenize policy text,
      (t.kind = .keyword → ∃ word, t.keyword? = some word ∧ word.word = t.lexeme) ∧
      (t.kind ≠ .keyword → t.keyword? = none) ∧
      (t.kind = .error → ∃ f : Fault, f.Possible policy ∧ t = f.token t.location ∧
        Fault.ofMessage? t.lexeme = some f ∧
        ∀ other g, Fault.Possible other g → g.message = t.lexeme → g = f) := by
  have inside : ∀ text, ∀ t ∈ tokenize policy text, Lexicon policy t.kind t.lexeme := by
    intro text t member
    obtain ⟨chunks, row, rfl⟩ := Chunk.exists_row policy text
    rw [tokenize_of_row row] at member
    exact row.lexicon member
  refine ⟨fun kind lexeme => ⟨exists_token_of_lexicon, ?_⟩, fun text t member => ?_⟩
  · rintro ⟨text, t, member, rfl, rfl⟩
    exact inside text t member
  · have entry := inside text t member
    refine ⟨keyword?_of_lexicon entry, fun other => ?_, fun isError => ?_⟩
    · unfold Token.keyword?
      split
      · rename_i isKeyword
        exact absurd isKeyword other
      · rfl
    · obtain ⟨f, possible, same⟩ := exists_possible_of_lexicon entry isError
      have told : Fault.ofMessage? t.lexeme = some f := by
        rw [same]
        exact Fault.ofMessage?_message possible
      refine ⟨f, possible, same, told, fun other g possible' message => ?_⟩
      have told' := Fault.ofMessage?_message possible'
      rw [message, told] at told'
      exact (Option.some.inj told').symm

end TeamScript
