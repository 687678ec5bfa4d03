/-
# TeamScript.Proofs.Grammar.Foreign -- characters that mean nothing

A character is significant if some reader tells it from others.  A function on
characters `Keeps` the language if it fixes every significant character and makes
no other one significant; it may do with these what it likes, and need not be
injective.

Between tokens blanks and punctuation matter, inside them and right behind them
only the marks do (`isMark`).  A function that `Fixes` a class of characters is
one that no part of the class sees (`Fixes.blind`), so one that fixes the marks
is seen by no reader of a token or a comment.  If it also makes separators of the
separators, it `Carries` texts from one policy to another, or to the same: a
chunk stays a chunk with its text renamed, in front of the renamed next character
(`Chunk.Stands.carry`).  Only strings, comments, blanks, punctuation and unknown
characters are changed by that: all other chunks are made of marks.
-/
import TeamScript.Proofs.Grammar.Blank
import TeamScript.Proofs.Grammar.Chunk

namespace TeamScript

set_option autoImplicit false

/-- Letters, digits, the underscore, blanks, the signs of numerals, operators, comments and
strings, and punctuation. -/
def isSignificant (c : Char) : Bool :=
  isNamePart c || isBlank c ||
    ['.', '+', '-', '*', '/', '=', '<', '>', '!', '$', '\\'].contains c ||
    ['(', ')', '\x7b', '\x7d', '[', ']', ',', ';', ':'].contains c

/-- The function fixes what is significant, and makes nothing else significant. -/
structure Keeps (f : Char → Char) : Prop where
  significant : ∀ c, isSignificant c = true → f c = c
  foreign : ∀ c, isSignificant c = false → isSignificant (f c) = false

/-- What tells a reader how a token or a comment goes on: all significant characters but blanks
and punctuation, and the line feed. -/
def isMark (c : Char) : Bool :=
  isNamePart c || c == '\n' || ['.', '+', '-', '*', '/', '=', '<', '>', '!', '$', '\\'].contains c

/-- The function fixes the class, and makes no other character a member of it. -/
structure Fixes (f : Char → Char) (known : Char → Bool) : Prop where
  member : ∀ c, known c = true → f c = c
  other : ∀ c, known c = false → known (f c) = false

/-- The character separates tokens and is no part of a comment. -/
def Policy.separates (policy : Policy) (c : Char) : Bool :=
  isBlank c || policy.skips c

/-- The function fixes the marks, and what separates tokens under the one policy becomes what
separates them under the other. -/
structure Carries (f : Char → Char) (policy policy' : Policy) : Prop where
  marks : Fixes f isMark
  separates : ∀ c, policy'.separates (f c) = policy.separates c

/-! ## Renaming -/

def Lexeme.rename (f : Char → Char) : Lexeme → Lexeme
  | name text => name (text.map f)
  | keyword word => keyword word
  | integer text => integer (text.map f)
  | number text => number (text.map f)
  | string content => string (content.map f)
  | operator text => operator (text.map f)

def Fault.rename (f : Char → Char) : Fault → Fault
  | unknownCharacter c => unknownCharacter (f c)
  | unknownWord word => unknownWord (word.map f)
  | doubleDot text => doubleDot (text.map f)
  | emptyFraction text => emptyFraction (text.map f)
  | badExponent text => badExponent (text.map f)
  | loneBang => loneBang
  | loneDot => loneDot
  | forbiddenEscape => forbiddenEscape
  | openString => openString
  | openComment => openComment

namespace Chunk

def renameOutcome (f : Char → Char) : Except Fault Lexeme → Except Fault Lexeme
  | .ok lexeme => .ok (lexeme.rename f)
  | .error fault => .error (fault.rename f)

def rename (f : Char → Char) : Chunk → Chunk
  | gap span => gap (span.map f)
  | token span outcome => token (span.map f) (renameOutcome f outcome)

end Chunk

theorem map_ofList (f : Char → Char) (text : List Char) :
    (String.ofList text).map f = String.ofList (text.map f) := by
  apply String.toList_inj.1
  rw [String.toList_map, String.toList_ofList, String.toList_ofList]

/-! ## Classes of marks -/

section

variable {c : Char}

theorem mark_of_namePart (part : isNamePart c = true) : isMark c = true := by
  simp [isMark, part]

theorem mark_of_letter (letter : isLetter c = true) : isMark c = true := by
  apply mark_of_namePart
  simp [isNamePart, letter]

theorem mark_of_digit (digit : isDigit c = true) : isMark c = true := by
  apply mark_of_namePart
  simp [isNamePart, digit]

theorem mark_of_nameStart (start : isNameStart c = true) : isMark c = true :=
  mark_of_namePart (Name.isNamePart_of_isNameStart start)

theorem mark_of_exponentMark (mark : Numeral.isExponentMark c = true) : isMark c = true :=
  mark_of_letter (Numeral.isLetter_of_isExponentMark mark)

theorem mark_of_sign (sign : Numeral.isSign c = true) : isMark c = true := by
  simp only [Numeral.isSign, Bool.or_eq_true, beq_iff_eq] at sign
  rcases sign with rfl | rfl <;> rfl

theorem mark_of_part (part : Numeral.isPart c = true) : isMark c = true := by
  simp only [Numeral.isPart, Bool.or_eq_true, beq_iff_eq, or_assoc] at part
  rcases part with digit | letter | rfl | sign
  · exact mark_of_digit digit
  · exact mark_of_letter letter
  · rfl
  · exact mark_of_sign sign

theorem mark_of_continues (shape : Numeral.Mantissa) (more : shape.continues c = true) :
    isMark c = true := by
  apply mark_of_part
  cases shape with
  | fractional => exact Numeral.isPart_of_isDigit more
  | _ =>
      simp only [Numeral.Mantissa.continues, Bool.or_eq_true] at more
      rcases more with digit | dot <;> simp [Numeral.isPart, *]

theorem mark_of_operatorStart (first : isOperatorStart c = true) : isMark c = true := by
  simp only [isOperatorStart, Bool.or_eq_true, beq_iff_eq, or_assoc] at first
  rcases first with rfl | rfl | rfl | rfl | rfl | rfl | rfl <;> rfl

theorem mark_of_isPair {first : Char} (pair : Operator.isPair first c = true) :
    isMark c = true := by
  rcases Operator.isPair_iff.1 pair with ⟨rfl, -⟩ | ⟨-, rfl⟩ <;> rfl

/-- The marks that begin a token or a comment. -/
def isOpener (c : Char) : Bool :=
  c == '/' || c == '$' || isDigit c || isLetter c || c == '.' || isOperatorStart c

theorem mark_of_opener (first : isOpener c = true) : isMark c = true := by
  simp only [isOpener, Bool.or_eq_true, beq_iff_eq, or_assoc] at first
  rcases first with rfl | rfl | digit | letter | rfl | first
  · rfl
  · rfl
  · exact mark_of_digit digit
  · exact mark_of_letter letter
  · rfl
  · exact mark_of_operatorStart first

/-- What begins a piece of some kind is a separator or opens a token or a comment. -/
theorem Policy.knows_eq (policy : Policy) (c : Char) :
    policy.knows c = (policy.separates c || isOpener c) := by
  rw [Policy.knows, Policy.separates, isOpener]
  ac_rfl

theorem significant_of_mark (mark : isMark c = true) : isSignificant c = true := by
  simp only [isMark, Bool.or_eq_true, beq_iff_eq, or_assoc] at mark
  rcases mark with part | rfl | sign
  · simp [isSignificant, part]
  · rfl
  · simp only [isSignificant, sign, Bool.or_true, Bool.true_or]

theorem significant_of_separates {policy : Policy} (separates : policy.separates c = true) :
    isSignificant c = true := by
  simp only [Policy.separates, Bool.or_eq_true] at separates
  rcases separates with blank | skips
  · simp [isSignificant, blank]
  · have known := List.contains_iff_mem.2 (Policy.skips_iff.1 skips).2
    rw [isSignificant, known, Bool.or_true]

end

/-! ## What no renaming changes -/

namespace Fixes

variable {f : Char → Char} {known : Char → Bool} (fixes : Fixes f known)

include fixes

/-- A part of the class does not see the function. -/
theorem blind {p : Char → Bool} (inside : ∀ c, p c = true → known c = true) (c : Char) :
    p (f c) = p c := by
  cases inClass : known c with
  | true => rw [fixes.member c inClass]
  | false =>
      have outside {d : Char} (other : known d = false) : p d = false := by
        cases member : p d with
        | false => rfl
        | true => rw [inside d member] at other; cases other
      rw [outside inClass, outside (fixes.other c inClass)]

/-- A function that fixes a class fixes every part of it. -/
theorem part {p : Char → Bool} (inside : ∀ c, p c = true → known c = true) : Fixes f p :=
  ⟨fun c member => fixes.member c (inside c member),
    fun c other => by rw [fixes.blind inside, other]⟩

theorem eq_iff {c d : Char} (member : known d = true) : f c = d ↔ c = d := by
  have same := fixes.blind (p := (· == d)) (fun c same => by rwa [beq_iff_eq.1 same]) c
  rw [Bool.eq_iff_iff, beq_iff_eq, beq_iff_eq] at same
  exact same

theorem map_eq {text : List Char} (inside : ∀ c ∈ text, known c = true) : text.map f = text := by
  have fixed : ∀ c ∈ text, f c = id c := fun c member => fixes.member c (inside c member)
  rw [List.map_congr_left fixed, List.map_id]

theorem map_string {text : String} (inside : text.toList.all known = true) :
    text.map f = text := by
  apply String.toList_inj.1
  rw [String.toList_map, fixes.map_eq (List.all_eq_true.1 inside)]

/-- Only a text from the class becomes one. -/
theorem eq_of_map {text word : List Char} (inside : ∀ c ∈ word, known c = true)
    (same : text.map f = word) : text = word := by
  rw [← same]
  symm
  apply fixes.map_eq
  intro c member
  -- what another character becomes is not in the class, and everything in the word is
  have image : f c ∈ word := by
    rw [← same]
    exact List.mem_map_of_mem member
  rw [← fixes.blind (p := known) (fun _ member => member) c]
  exact inside _ image

theorem not_mem_map {text : List Char} {d : Char} (member : known d = true) (other : d ∉ text) :
    d ∉ text.map f := by
  intro image
  obtain ⟨c, inside, same⟩ := List.mem_map.1 image
  rw [fixes.eq_iff member] at same
  rw [same] at inside
  exact other inside

theorem stops {p : Char → Bool} (inside : ∀ c, p c = true → known c = true)
    {ahead : Option Char} (stops : Stops p ahead) : Stops p (ahead.map f) := by
  cases ahead with
  | none => exact stops_none p
  | some c =>
      rw [Option.map_some, stops_some, fixes.blind inside]
      exact (stops_some p c).1 stops

theorem ne_some {ahead : Option Char} {d : Char} (member : known d = true)
    (other : ahead ≠ some d) : ahead.map f ≠ some d := by
  intro same
  obtain ⟨c, front, renamed⟩ := Option.map_eq_some_iff.1 same
  rw [fixes.eq_iff member] at renamed
  rw [renamed] at front
  exact other front

end Fixes

theorem Keeps.fixes {f : Char → Char} (keeps : Keeps f) : Fixes f isSignificant :=
  ⟨keeps.significant, keeps.foreign⟩

/-- A function that keeps the language carries every text to the same policy. -/
theorem Keeps.carries {f : Char → Char} (keeps : Keeps f) (policy : Policy) :
    Carries f policy policy :=
  ⟨keeps.fixes.part fun _ => significant_of_mark,
    keeps.fixes.blind fun _ => significant_of_separates⟩

/-- What begins no piece under the one policy begins none under the other. -/
theorem Carries.knows {f : Char → Char} {policy policy' : Policy}
    (carries : Carries f policy policy') (c : Char) : policy'.knows (f c) = policy.knows c := by
  rw [Policy.knows_eq, Policy.knows_eq, carries.separates,
    carries.marks.blind fun _ => mark_of_opener]

/-! ## Tokens made of marks -/

variable {f : Char → Char} {span : List Char} {outcome : Except Fault Lexeme}
  {ahead : Option Char}

namespace Numeral

theorem Exponent.Ends.rename (fixes : Fixes f isMark) {e : Exponent} (ends : e.Ends ahead) :
    e.Ends (ahead.map f) :=
  ⟨fixes.stops (fun _ => mark_of_digit) ends.digit,
    fun unsigned none_ => fixes.stops (fun _ => mark_of_sign) (ends.sign unsigned none_)⟩

theorem Spells.rename (fixes : Fixes f isMark) (spells : Spells span outcome ahead) :
    Spells span outcome (ahead.map f) := by
  have digit {ahead : Option Char} (stops : Stops isDigit ahead) : Stops isDigit (ahead.map f) :=
    fixes.stops (fun _ => mark_of_digit) stops
  have mark {ahead : Option Char} (stops : Stops isExponentMark ahead) :
      Stops isExponentMark (ahead.map f) :=
    fixes.stops (fun _ => mark_of_exponentMark) stops
  cases spells with
  | @bare shape _ _ spells stops noMark =>
      exact .bare spells (fixes.stops (fun _ => mark_of_continues shape) stops) (mark noMark)
  | scaled spells complete formed power stops =>
      exact .scaled spells complete formed power (digit stops)
  | unscaled spells complete formed power behind =>
      refine .unscaled spells complete formed power ?_
      cases behind with
      | letter isLetter => exact .letter isLetter
      | none ends stops =>
          exact .none (ends.rename fixes) (fixes.stops (fun _ => mark_of_letter) stops)
  | dangling spells formed ends => exact .dangling spells formed (ends.rename fixes)
  | doubleDot dots stops => exact .doubleDot dots (digit stops)
  | dotExponent formed ends => exact .dotExponent formed (ends.rename fixes)
  | loneDot stops noMark => exact .loneDot (digit stops) (mark noMark)

theorem Spells.fixed (fixes : Fixes f isMark) (spells : Spells span outcome ahead) :
    span.map f = span ∧ Chunk.renameOutcome f outcome = outcome := by
  have same := fixes.map_eq fun c member => mark_of_part (spells.parts c member)
  refine ⟨same, ?_⟩
  cases spells with
  | @bare shape _ _ _ _ _ =>
      cases shape <;> simp [Mantissa.outcome, Chunk.renameOutcome, Lexeme.rename, Fault.rename,
        map_ofList, same]
  | loneDot _ _ => rfl
  | _ => simp only [Chunk.renameOutcome, Lexeme.rename, Fault.rename, map_ofList, same]

end Numeral

namespace Name

theorem Spells.rename (fixes : Fixes f isMark) (spells : Spells span outcome ahead) :
    Spells span outcome (ahead.map f) := by
  cases spells with
  | name known start parts stops =>
      exact .name known start parts (fixes.stops (fun _ => mark_of_namePart) stops)

theorem Spells.fixed (fixes : Fixes f isMark) (spells : Spells span outcome ahead) :
    span.map f = span ∧ Chunk.renameOutcome f outcome = outcome := by
  have same := fixes.map_eq fun c member => mark_of_namePart (spells.parts c member)
  refine ⟨same, ?_⟩
  cases spells with
  | name _ _ _ _ => rw [Chunk.renameOutcome, Lexeme.rename, map_ofList, same]

theorem Opens.of_map (fixes : Fixes f isMark) {text : List Char} (opens : Opens (text.map f)) :
    Opens text := by
  obtain ⟨code, known, c, more, split, start⟩ := opens
  obtain ⟨front, behind, rfl, coded, rest⟩ := List.map_eq_append_iff.1 split
  obtain ⟨d, later, rfl, same, -⟩ := List.map_eq_cons_iff.1 rest
  have digits := isDigit_of_mem_code known
  have sameCode := fixes.eq_of_map (fun c member => mark_of_digit (digits c member)) coded
  rw [← same, fixes.blind fun _ => mark_of_nameStart] at start
  exact ⟨code, known, d, later, by rw [sameCode], start⟩

end Name

theorem Word.Spells.rename (fixes : Fixes f isMark) (spells : Word.Spells span outcome ahead) :
    Word.Spells span outcome (ahead.map f) := by
  have letter {ahead : Option Char} (stops : Stops isLetter ahead) :
      Stops isLetter (ahead.map f) := fixes.stops (fun _ => mark_of_letter) stops
  cases spells with
  | keyword word stops => exact .keyword word (letter stops)
  | unknown nonempty inside unknown stops => exact .unknown nonempty inside unknown (letter stops)

theorem Word.Spells.fixed (fixes : Fixes f isMark) (spells : Word.Spells span outcome ahead) :
    span.map f = span ∧ Chunk.renameOutcome f outcome = outcome := by
  have same := fixes.map_eq fun c member => mark_of_letter (spells.parts c member)
  refine ⟨same, ?_⟩
  cases spells with
  | keyword word _ => rfl
  | unknown _ _ _ _ => rw [Chunk.renameOutcome, Fault.rename, map_ofList, same]

theorem Operator.Spells.rename (fixes : Fixes f isMark)
    (spells : Operator.Spells span outcome ahead) :
    Operator.Spells span outcome (ahead.map f) := by
  have single {c : Char} {ahead : Option Char} (stops : Stops (isPair c) ahead) :
      Stops (isPair c) (ahead.map f) := fixes.stops (fun _ => mark_of_isPair) stops
  cases spells with
  | pair pair => exact .pair pair
  | single first bang stops => exact .single first bang (single stops)
  | bang stops => exact .bang (single stops)

theorem Operator.Spells.fixed (fixes : Fixes f isMark)
    (spells : Operator.Spells span outcome ahead) :
    span.map f = span ∧ Chunk.renameOutcome f outcome = outcome := by
  have same := fixes.map_eq fun c member => mark_of_operatorStart (spells.parts c member)
  refine ⟨same, ?_⟩
  cases spells with
  | pair _ => rw [Chunk.renameOutcome, Lexeme.rename, map_ofList, same]
  | @single c _ _ _ _ =>
      have single : String.singleton c = String.ofList [c] := rfl
      rw [Chunk.renameOutcome, Lexeme.rename, single, map_ofList, same]
  | bang _ => rfl

/-! ## Strings and comments -/

namespace StringLiteral

theorem Clean.rename (fixes : Fixes f isMark) {content : List Char} (clean : Clean content) :
    Clean (content.map f) := by
  refine ⟨fixes.not_mem_map rfl clean.dollar, fixes.not_mem_map rfl clean.feed, ?_⟩
  rintro ⟨before, behind, whole⟩
  obtain ⟨front, _, rfl, renamed, -⟩ := List.map_eq_append_iff.1 whole.symm
  obtain ⟨before', escape, rfl, -, same⟩ := List.map_eq_append_iff.1 renamed
  have signs : ['\\', 'n'].all isMark = true := by decide
  obtain rfl := fixes.eq_of_map (List.all_eq_true.1 signs) same
  exact clean.escape ⟨before', _, rfl⟩

theorem Skips.rename (fixes : Fixes f isMark) {skipped : List Char} (skips : Skips skipped ahead) :
    Skips (skipped.map f) (ahead.map f) := by
  have inside {text : List Char} (within : ∀ c ∈ text, c ≠ '$' ∧ c ≠ '\n') :
      ∀ c ∈ text.map f, c ≠ '$' ∧ c ≠ '\n' := by
    intro d member
    obtain ⟨c, inside, rfl⟩ := List.mem_map.1 member
    obtain ⟨dollar, feed⟩ := within c inside
    exact ⟨fun same => dollar ((fixes.eq_iff rfl).1 same),
      fun same => feed ((fixes.eq_iff rfl).1 same)⟩
  cases skips with
  | @closed text _ within =>
      have sign : (text ++ ['$']).map f = text.map f ++ ['$'] := by
        simp [fixes.member '$' rfl]
      rw [sign]
      exact .closed (inside within)
  | open_ within stops =>
      refine .open_ (inside within) fun d next => ?_
      obtain ⟨c, front, rfl⟩ := Option.map_eq_some_iff.1 next
      exact (fixes.eq_iff rfl).2 (stops c front)

theorem Spells.rename (fixes : Fixes f isMark) (spells : Spells span outcome ahead) :
    Spells (span.map f) (Chunk.renameOutcome f outcome) (ahead.map f) := by
  have dollar : f '$' = '$' := fixes.member '$' rfl
  have feed : f '\n' = '\n' := fixes.member '\n' rfl
  have backslash : f '\\' = '\\' := fixes.member '\\' rfl
  have letter : f 'n' = 'n' := fixes.member 'n' rfl
  cases spells with
  | closed clean =>
      simpa [dollar, Chunk.renameOutcome, Lexeme.rename, map_ofList] using
        @Spells.closed _ (ahead.map f) (clean.rename fixes)
  | cut clean =>
      simpa [dollar, Chunk.renameOutcome, Fault.rename] using Spells.cut (clean.rename fixes)
  | broken clean skips =>
      simpa [dollar, feed, Chunk.renameOutcome, Fault.rename] using
        Spells.broken (clean.rename fixes) (skips.rename fixes)
  | escape clean skips =>
      simpa [dollar, backslash, letter, Chunk.renameOutcome, Fault.rename] using
        Spells.escape (clean.rename fixes) (skips.rename fixes)

end StringLiteral

namespace Comment

/-- The count of open comments goes the same way. -/
theorem blockEnd_map (fixes : Fixes f isMark) (depth seen : Nat) (text : List Char) :
    blockEnd depth seen (text.map f) = blockEnd depth seen text := by
  have slash : f '/' = '/' := fixes.member '/' rfl
  have star : f '*' = '*' := fixes.member '*' rfl
  induction depth, seen, text using blockEnd.induct with
  | case1 depth seen text ih => simpa [slash, star, blockEnd_open] using ih
  | case2 depth seen text last => simp [slash, star, blockEnd, last]
  | case3 depth seen text more ih => simpa [slash, star, blockEnd, more] using ih
  | case4 depth seen c text opens closes ih =>
      have ahead {d : Char} (known : isMark d = true) (other : text.head? ≠ some d) :
          (text.map f).head? ≠ some d := by
        rw [List.head?_map]
        exact fixes.ne_some known other
      have noOpener : c = '/' → text.head? ≠ some '*' := by
        intro first next
        obtain ⟨more, front⟩ := List.head?_eq_some_iff.1 next
        exact opens more first front
      have noClose : c = '*' → text.head? ≠ some '/' := by
        intro first next
        obtain ⟨more, front⟩ := List.head?_eq_some_iff.1 next
        exact closes more first front
      rw [List.map_cons, blockEnd_pass depth seen noOpener noClose, ← ih]
      apply blockEnd_pass
      · intro first
        exact ahead rfl (noOpener ((fixes.eq_iff rfl).1 first))
      · intro first
        exact ahead rfl (noClose ((fixes.eq_iff rfl).1 first))
  | case5 depth seen => rfl

theorem Body.rename (fixes : Fixes f isMark) {body : List Char} (closed : Body body) :
    Body (body.map f) := by
  -- the count ends at the same place in the renamed text, and a body is what it ends behind
  have length := blockEnd_of_body closed []
  rw [List.append_nil, ← blockEnd_map fixes] at length
  have front := body_of_blockEnd length
  rwa [List.take_of_length_le (by simp)] at front

theorem unclosed_rename (fixes : Fixes f isMark) {text : List Char}
    (unclosed : ∀ body, body <+: text → ¬ Body body) :
    ∀ body, body <+: text.map f → ¬ Body body := by
  rw [← blockEnd_eq_none_iff] at unclosed ⊢
  rw [blockEnd_map fixes]
  exact unclosed

end Comment

/-! ## Gaps -/

/-- A separator is a piece of a gap. -/
theorem gapPiece_of_separates {policy : Policy} {c : Char} (separates : policy.separates c = true) :
    GapPiece policy [c] := by
  simp only [Policy.separates, Bool.or_eq_true] at separates
  rcases separates with blank | skips
  · exact .blank blank
  · exact .of_skips skips

variable {policy policy' : Policy}

theorem GapPiece.carry (carries : Carries f policy policy') (piece : GapPiece policy span) :
    GapPiece policy' (span.map f) := by
  have single {c : Char} (separates : policy.separates c = true) : GapPiece policy' [f c] := by
    rw [← carries.separates] at separates
    exact gapPiece_of_separates separates
  have fixes := carries.marks
  have slash : f '/' = '/' := fixes.member '/' rfl
  have star : f '*' = '*' := fixes.member '*' rfl
  have feed : f '\n' = '\n' := fixes.member '\n' rfl
  cases piece with
  | blank blank => exact single (by simp [Policy.separates, blank])
  | punctuation skips known =>
      exact single (by simp [Policy.separates, Policy.skips_iff.2 ⟨skips, known⟩])
  | line within =>
      simpa [slash, feed] using
        @GapPiece.line policy' _ (fixes.not_mem_map (d := '\n') rfl within)
  | block block =>
      obtain ⟨body, rfl, closed⟩ := block
      exact .block ⟨body.map f, by simp [slash, star], closed.rename fixes⟩

/-! ## Chunks -/

namespace Chunk

/-- A chunk made of marks is not changed. -/
theorem rename_token (fixed : span.map f = span ∧ renameOutcome f outcome = outcome) :
    (token span outcome).rename f = token span outcome := by
  rw [rename, fixed.1, fixed.2]

/-- A slash is a mark. -/
theorem slash_fixed (fixes : Fixes f isMark) :
    ['/'].map f = ['/'] ∧
      renameOutcome f (.ok (.operator "/")) = .ok (.operator "/") := by
  refine ⟨fixes.map_eq (by simp [isMark]), ?_⟩
  rw [renameOutcome, Lexeme.rename, fixes.map_string (by decide)]

/-- A renamed chunk stands in front of the renamed next character. -/
theorem Stands.carry (carries : Carries f policy policy') {chunk : Chunk}
    (stands : chunk.Stands policy ahead) : (chunk.rename f).Stands policy' (ahead.map f) := by
  have fixes := carries.marks
  have slash : f '/' = '/' := fixes.member '/' rfl
  have star : f '*' = '*' := fixes.member '*' rfl
  cases stands with
  | gap piece => exact .gap (piece.carry carries)
  | lastLine within =>
      simpa [Chunk.rename, slash] using
        @Stands.lastLine policy' _ (fixes.not_mem_map (d := '\n') rfl within)
  | slash noSlash noStar =>
      rw [rename_token (slash_fixed fixes)]
      exact .slash (fixes.ne_some rfl noSlash) (fixes.ne_some rfl noStar)
  | openComment unclosed =>
      simpa [Chunk.rename, renameOutcome, Fault.rename, slash, star] using
        @Stands.openComment policy' _ (Comment.unclosed_rename fixes unclosed)
  | string spells => exact .string (spells.rename fixes)
  | name spells =>
      rw [rename_token (spells.fixed fixes)]
      exact .name (spells.rename fixes)
  | @numeral span _ ahead spells unnamed =>
      have fixed := spells.fixed fixes
      rw [rename_token fixed]
      refine .numeral (spells.rename fixes) fun opens => unnamed ?_
      have whole : span ++ (ahead.map f).toList = (span ++ ahead.toList).map f := by
        rw [List.map_append, fixed.1]
        cases ahead <;> rfl
      rw [whole] at opens
      exact opens.of_map fixes
  | word spells =>
      rw [rename_token (spells.fixed fixes)]
      exact .word (spells.rename fixes)
  | operator spells =>
      rw [rename_token (spells.fixed fixes)]
      exact .operator (spells.rename fixes)
  | unknown unknown =>
      apply Stands.unknown
      rw [carries.knows]
      exact unknown

end Chunk

end TeamScript
