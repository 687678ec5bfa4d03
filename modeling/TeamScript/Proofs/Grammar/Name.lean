/-
# TeamScript.Proofs.Grammar.Name -- the forms of names, words and operators

A name needs a team code and the first character of a body in front
(`Name.Opens`); everywhere else the attempt to read one fails
(`Name.read?_eq_none_iff`).  Whether a text opens a name is settled by a piece of
it that begins no shorter than its digits, and by one more character
(`Name.opens_append_iff`).

A word is a keyword or unknown, and an operator is a pair or a single character;
each of the three ends where the next character no longer belongs to it.
-/
import TeamScript.Lexeme.Name
import TeamScript.Lexeme.Operator
import TeamScript.Lexeme.Word
import TeamScript.Proofs.Grammar.Form

namespace TeamScript

set_option autoImplicit false

/-! ## Names -/

namespace Name

/-- A team code and the first character of a body stand in front. -/
def Opens (text : List Char) : Prop :=
  ∃ code ∈ ["134", "104", "199"], ∃ c more,
    text = code.toList ++ c :: more ∧ isNameStart c = true

inductive Spells : Form
  | name {code : String} {c : Char} {body : List Char} {ahead : Option Char}
      (known : code ∈ ["134", "104", "199"]) (start : isNameStart c = true)
      (parts : ∀ d ∈ body, isNamePart d = true) (stops : Stops isNamePart ahead) :
      Spells (code.toList ++ c :: body) (.ok (.name (String.ofList (code.toList ++ c :: body))))
        ahead

theorem isNamePart_of_isNameStart {c : Char} (start : isNameStart c = true) :
    isNamePart c = true := by
  simp only [isNameStart, isNamePart, Bool.or_eq_true] at start ⊢
  rcases start with letter | underscore
  · exact .inl (.inl letter)
  · exact .inr underscore

theorem isDigit_of_mem_code {code : String} (known : code ∈ teamCodes) :
    ∀ c ∈ code.toList, isDigit c = true := by
  have digits : teamCodes.all (fun code => code.toList.all isDigit) = true := by decide
  exact List.all_eq_true.1 (List.all_eq_true.1 digits code known)

theorem Spells.first {span : List Char} {outcome : Except Fault Lexeme} {ahead : Option Char}
    (spells : Spells span outcome ahead) : ∃ c more, span = c :: more ∧ isDigit c = true := by
  obtain ⟨known, _, _, _⟩ := spells
  have digits := isDigit_of_mem_code known
  have nonempty : ∀ code ∈ teamCodes, code.toList ≠ [] := by decide
  obtain ⟨c, more, front⟩ := List.exists_cons_of_ne_nil (nonempty _ known)
  rw [front] at digits ⊢
  exact ⟨c, _, rfl, digits c (by simp)⟩

theorem code?_append {code : String} (known : code ∈ teamCodes) (more : List Char) :
    code? (code.toList ++ more) = some code := by
  simp only [teamCodes, List.mem_cons, List.not_mem_nil, or_false] at known
  rcases known with rfl | rfl | rfl <;> rfl

theorem hasBody_append (code : String) (more : List Char) :
    hasBody code (code.toList ++ more) = more.head?.any isNameStart := by
  unfold hasBody
  rw [List.drop_left]
  cases more <;> rfl

theorem opens_iff {text : List Char} :
    Opens text ↔ ∃ code, code? text = some code ∧ hasBody code text = true := by
  constructor
  · rintro ⟨code, known, c, more, rfl, start⟩
    exact ⟨code, code?_append known _, by rw [hasBody_append]; simpa using start⟩
  · rintro ⟨code, coded, body⟩
    have known : code ∈ teamCodes := List.mem_of_find?_eq_some coded
    have front := append_drop_of_code? coded
    rw [← front, hasBody_append] at body
    cases behind : text.drop code.toList.length with
    | nil => rw [behind] at body; cases body
    | cons c more =>
        rw [behind] at front body
        exact ⟨code, known, c, more, front.symm, by simpa using body⟩

theorem read?_eq_none_iff {text : List Char} : read? text = none ↔ ¬ Opens text := by
  rw [opens_iff, read?, Option.map_eq_none_iff, Option.filter_eq_none_iff]
  simp

theorem read?_append {code : String} (known : code ∈ teamCodes) {body : List Char}
    (start : body.head?.any isNameStart = true) :
    read? (code.toList ++ body) =
      some (.plain (code.toList ++ body.takeWhile isNamePart) (body.dropWhile isNamePart)
        (.name (String.ofList (code.toList ++ body.takeWhile isNamePart)))) := by
  simp only [read?, code?_append known, Option.filter_some, hasBody_append, start, if_true,
    Option.map_some, List.drop_left]

theorem read?_follows {text : List Char} {r : Reading} (found : read? text = some r) :
    r.Follows Spells := by
  have opens : Opens text := by
    apply Classical.byContradiction
    intro closed
    rw [read?_eq_none_iff.2 closed] at found
    cases found
  obtain ⟨code, known, c, more, rfl, start⟩ := opens
  rw [read?_append known (by simpa using start),
    List.takeWhile_cons_of_pos (isNamePart_of_isNameStart start)] at found
  cases found
  exact .name known start of_mem_takeWhile (stops_dropWhile _ _)

theorem read?_yields {span rest : List Char} {outcome : Except Fault Lexeme}
    (spells : Spells span outcome rest.head?) :
    ∃ r, read? (span ++ rest) = some r ∧ r.Yields span outcome rest := by
  generalize behind : rest.head? = ahead at spells
  obtain ⟨known, start, parts, stops⟩ := spells
  rename_i code c body
  subst behind
  have inside : ∀ d ∈ c :: body, isNamePart d = true := by
    simpa [isNamePart_of_isNameStart start] using parts
  rw [List.append_assoc, read?_append known (by simpa using start),
    takeWhile_of_stops inside stops, dropWhile_of_stops inside stops]
  exact ⟨_, rfl, Reading.yields_plain _ _ _⟩

theorem Opens.append {text : List Char} (opens : Opens text) (more : List Char) :
    Opens (text ++ more) := by
  obtain ⟨code, known, c, behind, rfl, start⟩ := opens
  exact ⟨code, known, c, behind ++ more, by simp, start⟩

/-- One character behind a piece of text tells whether the text opens a name, unless
the piece is the beginning of its digits. -/
theorem opens_append_iff {text rest : List Char}
    (stops : (∀ c ∈ text, isDigit c = true) → Stops isDigit rest.head?) :
    Opens (text ++ rest) ↔ Opens (text ++ rest.head?.toList) := by
  constructor
  · rintro ⟨code, known, c, more, split, start⟩
    rcases List.append_eq_append_iff.1 split with ⟨behind, coded, rfl⟩ | ⟨behind, rfl, later⟩
    · cases behind with
      | nil => exact ⟨code, known, c, [], by simpa using coded.symm, start⟩
      | cons d behind =>
          -- the code would go on behind the piece
          have digits := isDigit_of_mem_code known
          rw [coded] at digits
          have stop := stops fun c member => digits c (List.mem_append_left _ member)
          have digit := digits d (by simp)
          simp [digit] at stop
    · cases behind with
      | nil =>
          obtain rfl : rest = c :: more := later.symm
          exact ⟨code, known, c, [], by simp, start⟩
      | cons d behind =>
          obtain ⟨rfl, -⟩ := List.cons.inj later
          exact Opens.append ⟨code, known, c, behind, rfl, start⟩ _
  · intro opens
    cases rest with
    | nil => simpa using opens
    | cons c rest => simpa using opens.append rest

theorem isDigit_of_isNameStart {c : Char} (start : isNameStart c = true) : isDigit c = false := by
  simp only [isNameStart, Bool.or_eq_true, beq_iff_eq] at start
  rcases start with letter | rfl
  · exact isDigit_of_isLetter letter
  · rfl

/-- Digits open a name only if they are a team code and its body follows. -/
theorem opens_digits_iff {run text : List Char} (digits : ∀ c ∈ run, isDigit c = true)
    (stops : Stops isDigit text.head?) :
    Opens (run ++ text) ↔
      String.ofList run ∈ ["134", "104", "199"] ∧ ∃ c, text.head? = some c ∧ isNameStart c = true := by
  constructor
  · rintro ⟨code, known, c, more, split, start⟩
    have codeStops : Stops isDigit (c :: more).head? := by
      simpa using isDigit_of_isNameStart start
    have front := congrArg (List.takeWhile isDigit) split
    rw [takeWhile_of_stops digits stops,
      takeWhile_of_stops (isDigit_of_mem_code known) codeStops] at front
    subst front
    rw [List.append_cancel_left split, String.ofList_toList]
    exact ⟨known, c, rfl, start⟩
  · rintro ⟨known, c, next, start⟩
    obtain ⟨more, rfl⟩ := List.head?_eq_some_iff.1 next
    exact ⟨_, known, c, more, by rw [String.toList_ofList], start⟩

theorem not_opens_of_dot {run : List Char} (digits : ∀ c ∈ run, isDigit c = true)
    (text : List Char) : ¬ Opens (run ++ '.' :: text) := by
  rw [opens_digits_iff digits (by simp [isDigit])]
  rintro ⟨-, c, next, start⟩
  cases next
  cases start

end Name

/-! ## Words -/

namespace Word

/-- The forms of a text that begins with a letter. -/
inductive Spells : Form
  | keyword {ahead : Option Char} (word : Keyword) (stops : Stops isLetter ahead) :
      Spells word.word.toList (.ok (.keyword word)) ahead
  | unknown {letters : List Char} {ahead : Option Char} (nonempty : letters ≠ [])
      (inside : ∀ c ∈ letters, isLetter c = true)
      (unknown : ∀ word : Keyword, word.word.toList ≠ letters) (stops : Stops isLetter ahead) :
      Spells letters (.error (.unknownWord (String.ofList letters))) ahead

theorem isLetter_of_mem_word (word : Keyword) : ∀ c ∈ word.word.toList, isLetter c = true := by
  have letters : word.word.toList.all isLetter = true := by cases word <;> decide
  exact List.all_eq_true.1 letters

theorem Spells.first {span : List Char} {outcome : Except Fault Lexeme} {ahead : Option Char}
    (spells : Spells span outcome ahead) : ∃ c more, span = c :: more ∧ isLetter c = true := by
  cases spells with
  | keyword word _ => cases word <;> exact ⟨_, _, rfl, rfl⟩
  | unknown nonempty inside _ _ =>
      obtain ⟨c, more, rfl⟩ := List.exists_cons_of_ne_nil nonempty
      exact ⟨c, more, rfl, inside c (by simp)⟩

theorem ofWord?_eq_none_iff {letters : List Char} :
    Keyword.ofWord? (String.ofList letters) = none ↔
      ∀ word : Keyword, word.word.toList ≠ letters := by
  rw [Keyword.ofWord?, List.find?_eq_none]
  constructor
  · rintro none_ word rfl
    exact none_ word (Keyword.mem_all word) (by simp)
  · intro unknown word _ same
    apply unknown word
    rw [beq_iff_eq] at same
    rw [same, String.toList_ofList]

theorem read_follows {c : Char} (letter : isLetter c = true) (more : List Char) :
    (read (c :: more)).Follows Spells := by
  have stops := stops_dropWhile isLetter (c :: more)
  have nonempty : (c :: more).takeWhile isLetter ≠ [] := by simp [letter]
  unfold read
  dsimp only
  split
  · rename_i word found
    have spelled := Keyword.word_of_ofWord? found
    have form := Spells.keyword word stops
    rw [spelled, String.toList_ofList] at form
    exact form
  · rename_i found
    exact .unknown nonempty of_mem_takeWhile (ofWord?_eq_none_iff.1 found) stops

theorem read_yields {span rest : List Char} {outcome : Except Fault Lexeme}
    (spells : Spells span outcome rest.head?) : (read (span ++ rest)).Yields span outcome rest := by
  generalize behind : rest.head? = ahead at spells
  unfold read
  cases spells with
  | keyword word stops =>
      subst behind
      have inside := isLetter_of_mem_word word
      simp only [takeWhile_of_stops inside stops, dropWhile_of_stops inside stops,
        String.ofList_toList, Keyword.ofWord?_word]
      exact Reading.yields_plain _ _ _
  | unknown nonempty inside unknown stops =>
      subst behind
      simp only [takeWhile_of_stops inside stops, dropWhile_of_stops inside stops,
        ofWord?_eq_none_iff.2 unknown]
      exact Reading.yields_faulty _ _ _ _

end Word

/-! ## Operators -/

namespace Operator

/-- The forms of a text that begins with an operator. -/
inductive Spells : Form
  | pair {c d : Char} {ahead : Option Char} (pair : isPair c d = true) :
      Spells [c, d] (.ok (.operator (String.ofList [c, d]))) ahead
  | single {c : Char} {ahead : Option Char} (first : isOperatorStart c = true) (bang : c ≠ '!')
      (stops : Stops (isPair c) ahead) :
      Spells [c] (.ok (.operator (String.singleton c))) ahead
  | bang {ahead : Option Char} (stops : Stops (isPair '!') ahead) :
      Spells ['!'] (.error .loneBang) ahead

theorem isPair_iff {c d : Char} :
    isPair c d = true ↔
      d = '=' ∧ (c = '=' ∨ c = '>' ∨ c = '!' ∨ c = '<') ∨ c = '<' ∧ d = '>' := by
  unfold isPair
  by_cases equal : d = '='
  · simp [equal, or_assoc]
  · simp [equal]

/-- What ends an operator of one character. -/
theorem stops_isPair_iff {c : Char} {ahead : Option Char} :
    Stops (isPair c) ahead ↔
      (c = '=' ∨ c = '>' ∨ c = '!' ∨ c = '<' → ahead ≠ some '=') ∧
        (c = '<' → ahead ≠ some '>') := by
  cases ahead with
  | none => simp
  | some d =>
      rw [stops_some, ← Bool.not_eq_true, isPair_iff]
      simp only [ne_eq, Option.some.injEq]
      constructor
      · intro single
        exact ⟨fun first equal => single (.inl ⟨equal, first⟩),
          fun less greater => single (.inr ⟨less, greater⟩)⟩
      · rintro ⟨equal, greater⟩ (⟨isEqual, first⟩ | ⟨isLess, isGreater⟩)
        · exact equal first isEqual
        · exact greater isLess isGreater

theorem Spells.first {span : List Char} {outcome : Except Fault Lexeme} {ahead : Option Char}
    (spells : Spells span outcome ahead) :
    ∃ c more, span = c :: more ∧ isOperatorStart c = true := by
  cases spells with
  | @pair c d _ pair =>
      refine ⟨c, [d], rfl, ?_⟩
      rcases isPair_iff.1 pair with ⟨-, rfl | rfl | rfl | rfl⟩ | ⟨rfl, -⟩ <;> rfl
  | @single c _ first _ _ => exact ⟨c, [], rfl, first⟩
  | bang _ => exact ⟨'!', [], rfl, rfl⟩

theorem read_cons {c : Char} {rest : List Char} (stops : Stops (isPair c) rest.head?) :
    read (c :: rest) = readSingle c rest := by
  cases rest with
  | nil => rfl
  | cons d rest =>
      have single : isPair c d = false := by simpa using stops
      simp [read, single]

theorem readSingle_follows {c : Char} {rest : List Char} (first : isOperatorStart c = true)
    (stops : Stops (isPair c) rest.head?) : (readSingle c rest).Follows Spells := by
  unfold readSingle
  split
  · rename_i bang
    subst bang
    exact .bang stops
  · rename_i bang
    exact .single first bang stops

theorem read_follows {c : Char} (first : isOperatorStart c = true) (more : List Char) :
    (read (c :: more)).Follows Spells := by
  cases more with
  | nil => exact @readSingle_follows c [] first (by simp)
  | cons d rest =>
      cases pair : isPair c d with
      | true =>
          rw [read, if_pos pair]
          exact .pair pair
      | false =>
          have stops : Stops (isPair c) (d :: rest).head? := by simpa using pair
          rw [read_cons stops]
          exact readSingle_follows first stops

theorem read_yields {span rest : List Char} {outcome : Except Fault Lexeme}
    (spells : Spells span outcome rest.head?) : (read (span ++ rest)).Yields span outcome rest := by
  generalize behind : rest.head? = ahead at spells
  cases spells with
  | pair pair =>
      simp only [List.cons_append, List.nil_append, read, if_pos pair]
      exact Reading.yields_plain _ _ _
  | single _ bang stops =>
      subst behind
      rw [List.singleton_append, read_cons stops, readSingle, if_neg bang]
      exact Reading.yields_plain _ _ _
  | bang stops =>
      subst behind
      rw [List.singleton_append, read_cons stops]
      exact Reading.yields_faulty _ _ _ _

end Operator

end TeamScript
