/-
# TeamScript.Proofs.Listing -- what a listing tells about the tokens

A lexeme is listed as it is, without escapes, and so may look like a part of the
listing itself.  The listing can be read all the same:

* `Token.render_inj`: the written form of a token is the written form of no other.
  No label holds a parenthesis, so the first one ends the label; no location holds
  an at sign, so the last one ends the lexeme, whatever the lexeme holds.
* `feed_not_mem_lexeme`: no lexeme holds a line feed, not even one of a fault whose
  text does.  So each token has a line of its own (`outputLines_listing`).
* `opensError_render`: a line tells by its first characters whether its token
  reports a fault.

So the output on a text is a header and its tokens, line by line
(`Report.outputLines_ofText`).
-/
import Mathlib.Data.List.Basic
import TeamScript.Command.Report
import TeamScript.Proofs.Grammar.Blank
import TeamScript.Proofs.Layout

namespace TeamScript

set_option autoImplicit false

/-! ## Cutting a text at a character -/

section Cut

variable {sep : Char} {a b c d : List Char}

theorem append_cons_inj_of_first (first : sep ∉ a) (first' : sep ∉ b)
    (same : a ++ sep :: c = b ++ sep :: d) : a = b ∧ c = d := by
  have inside {front : List Char} (free : sep ∉ front) : ∀ x ∈ front, (x != sep) = true := by
    intro x member
    simpa using ne_of_mem_of_not_mem member free
  have stops (rest : List Char) : Stops (· != sep) (sep :: rest).head? := by simp
  have front := congrArg (List.takeWhile (· != sep)) same
  rw [takeWhile_of_stops (inside first) (stops c),
    takeWhile_of_stops (inside first') (stops d)] at front
  subst front
  exact ⟨rfl, (List.cons.inj (List.append_cancel_left same)).2⟩

theorem append_cons_inj_of_last (last : sep ∉ c) (last' : sep ∉ d)
    (same : a ++ sep :: c = b ++ sep :: d) : a = b ∧ c = d := by
  have reversed := congrArg List.reverse same
  simp only [List.reverse_append, List.reverse_cons, List.append_assoc, List.singleton_append]
    at reversed
  obtain ⟨behind, front⟩ :=
    append_cons_inj_of_first (by simpa using last) (by simpa using last') reversed
  exact ⟨List.reverse_inj.1 front, List.reverse_inj.1 behind⟩

end Cut

/-! ## Written forms -/

theorem toList_toString_nat (n : Nat) : (toString n).toList = Nat.toDigits 10 n := by
  rw [Nat.toString_eq_repr, Nat.toList_repr]

/-- A character that is no decimal digit stands in no written number. -/
theorem not_mem_toString {c : Char} (other : c.isDigit = false) (n : Nat) :
    c ∉ (toString n).toList := by
  rw [toList_toString_nat]
  intro member
  have digit := Nat.isDigit_of_mem_toDigits (by decide) (by decide) member
  rw [other] at digit
  cases digit

theorem toString_nat_inj {m n : Nat} (same : (toString m).toList = (toString n).toList) :
    m = n := by
  rw [toList_toString_nat, toList_toString_nat] at same
  have back (k : Nat) : Nat.ofDigitChars 10 (Nat.toDigits 10 k) 0 = k :=
    Nat.ofDigitChars_toDigits (by decide) (by decide)
  rw [← back m, same, back n]

namespace Location

theorem toList_render (l : Location) :
    l.render.toList = (toString l.line).toList ++ ':' :: (toString l.column).toList := by
  rw [render, String.toList_append, String.toList_append, List.append_assoc]
  rfl

theorem not_mem_render {c : Char} (digit : c.isDigit = false) (colon : c ≠ ':') (l : Location) :
    c ∉ l.render.toList := by
  rw [toList_render, List.mem_append, List.mem_cons]
  rintro (line | isColon | column)
  · exact not_mem_toString digit _ line
  · exact colon isColon
  · exact not_mem_toString digit _ column

theorem render_inj {a b : Location} (same : a.render = b.render) : a = b := by
  have cut := congrArg String.toList same
  rw [toList_render, toList_render] at cut
  have colon (n : Nat) : ':' ∉ (toString n).toList := not_mem_toString rfl n
  obtain ⟨line, column⟩ := append_cons_inj_of_first (colon _) (colon _) cut
  obtain ⟨aLine, aColumn⟩ := a
  obtain ⟨bLine, bColumn⟩ := b
  obtain rfl : aLine = bLine := toString_nat_inj line
  obtain rfl : aColumn = bColumn := toString_nat_inj column
  rfl

end Location

theorem Kind.label_inj {a b : Kind} (same : a.label = b.label) : a = b := by
  have told : ∀ k : Kind, Kind.ofLabel? k.label = some k := by
    intro k
    cases k <;> decide
  have found := congrArg Kind.ofLabel? same
  rw [told, told] at found
  exact Option.some.inj found

theorem Kind.not_mem_label {c : Char} (outside : c ∈ ['(', '\n']) (k : Kind) :
    c ∉ k.label.toList := by
  simp only [List.mem_cons, List.not_mem_nil, or_false] at outside
  rcases outside with rfl | rfl <;> cases k <;> decide

namespace Token

theorem toList_render (t : Token) :
    t.render.toList =
      t.kind.label.toList ++ '(' :: ('\'' :: (t.lexeme.toList ++ ['\'', ')'])) ++
        '@' :: t.location.render.toList := by
  have opening : "('".toList = ['(', '\''] := rfl
  have closing : "')@".toList = ['\'', ')', '@'] := rfl
  simp [render, opening, closing]

/-- A token is written as the label of its kind, its lexeme and its location. -/
theorem render_eq (t : Token) :
    ∃ label, (t.kind, label) ∈ [(Kind.name, "IDENTIFIER"), (.keyword, "KEYWORD"),
        (.integer, "INTEGER"), (.number, "NUMBER"), (.string, "STRING"), (.operator, "OPERATOR"),
        (.error, "ERROR"), (.ending, "EOF")] ∧
      t.render = label ++ "('" ++ t.lexeme ++ "')@" ++ t.location.render := by
  refine ⟨t.kind.label, ?_, rfl⟩
  cases t.kind <;> decide

theorem render_ending (l : Location) :
    (ending l).render = "EOF('<EOF>')@" ++ toString l.line ++ ":" ++ toString l.column := by
  have front : "EOF" ++ "('" ++ "<EOF>" ++ "')@" = "EOF('<EOF>')@" := by decide
  rw [render, ending, Kind.label, endLexeme, front, Location.render]
  simp only [String.append_assoc]

/-- The written form of a token tells the token. -/
theorem render_inj {a b : Token} (same : a.render = b.render) : a = b := by
  have cut := congrArg String.toList same
  rw [toList_render, toList_render] at cut
  have sign (l : Location) : '@' ∉ l.render.toList := l.not_mem_render rfl (by decide)
  obtain ⟨front, place⟩ := append_cons_inj_of_last (sign _) (sign _) cut
  have parenthesis (k : Kind) : '(' ∉ k.label.toList := k.not_mem_label (by decide)
  obtain ⟨label, quoted⟩ := append_cons_inj_of_first (parenthesis _) (parenthesis _) front
  have lexeme := List.append_cancel_right (List.cons.inj quoted).2
  obtain ⟨aKind, aLexeme, aLocation⟩ := a
  obtain ⟨bKind, bLexeme, bLocation⟩ := b
  obtain rfl : aKind = bKind := Kind.label_inj (String.toList_inj.1 label)
  obtain rfl : aLexeme = bLexeme := String.toList_inj.1 lexeme
  obtain rfl : aLocation = bLocation := Location.render_inj (String.toList_inj.1 place)
  rfl

theorem feed_not_mem_render {t : Token} (within : '\n' ∉ t.lexeme.toList) :
    '\n' ∉ t.render.toList := by
  rw [toList_render]
  intro member
  rcases List.mem_append.1 member with front | place
  · rcases List.mem_append.1 front with label | quoted
    · exact t.kind.not_mem_label (by decide) label
    · simp [within] at quoted
  · rcases List.mem_cons.1 place with sign | place
    · cases sign
    · exact t.location.not_mem_render rfl (by decide) place

end Token

/-! ## No lexeme holds a line feed -/

theorem Shows.feed_not_mem {kind : Kind} {lexeme : String} {span rest : List Char}
    (shows : Shows kind lexeme span rest) (within : '\n' ∉ span) : '\n' ∉ lexeme.toList := by
  cases shows with
  | verbatim _ => rwa [String.toList_ofList]
  | string =>
      rw [String.toList_ofList]
      intro member
      apply within
      simp [member]
  | character => rwa [String.toList_ofList]
  | @headed heading _ _ known =>
      have line : ∀ heading ∈
          ["unknown word: ", "malformed number: ", "malformed float: ", "bad exponent: "],
          '\n' ∉ heading.toList := by decide
      rw [String.toList_append, String.toList_ofList, List.mem_append]
      rintro (inHeading | inSpan)
      · exact line heading known inHeading
      · exact within inSpan
  | brokenString known _ =>
      have line : ∀ message ∈ ["string contains forbidden \\n", "unterminated string"],
          '\n' ∉ message.toList := by decide
      exact line lexeme known
  | openComment => decide

theorem Chunk.Stands.feed_not_mem_lexeme {policy : Policy} {span : List Char}
    {outcome : Except Fault Lexeme} {ahead : Option Char}
    (stands : (Chunk.token span outcome).Stands policy ahead) (location : Location) :
    '\n' ∉ (Chunk.tokenOf outcome location).lexeme.toList := by
  have shown (within : '\n' ∉ span) :
      '\n' ∉ (Chunk.tokenOf outcome location).lexeme.toList := by
    have here : (Chunk.token span outcome).Stands policy ahead.toList.head? := by
      cases ahead <;> exact stands
    exact (here.shows location).feed_not_mem within
  cases outcome with
  | ok l => exact shown stands.feed_not_mem
  | error fault =>
      -- the faults of strings and comments may hold a line feed, but do not quote it
      rcases stands.blank_cases with spells | ⟨_, _, same, _⟩ | blank
      · cases spells with
        | cut _ => show '\n' ∉ "unterminated string".toList; decide
        | broken _ _ => show '\n' ∉ "unterminated string".toList; decide
        | escape _ _ => show '\n' ∉ "string contains forbidden \\n".toList; decide
      · cases same
        show '\n' ∉ "unterminated comment".toList
        decide
      · apply shown
        intro member
        cases blank '\n' member

theorem feed_not_mem_lexeme {policy : Policy} {text : List Char} {t : Token}
    (member : t ∈ tokenize policy text) : '\n' ∉ t.lexeme.toList := by
  obtain ⟨chunks, row, rfl⟩ := Chunk.exists_row policy text
  rw [tokenize_of_row row] at member
  rcases Chunk.mem_tokens member with ⟨place, rfl⟩ | ⟨span, outcome, place, inside, rfl⟩
  · show '\n' ∉ "<EOF>".toList
    decide
  · obtain ⟨next, stands⟩ := row.stands_of_mem inside
    exact stands.feed_not_mem_lexeme place

/-! ## Lines of output -/

/-- What stands in front of each line feed of an output and, at the end, what stands behind
the last one. -/
def outputLines (output : String) : List String :=
  (output.toList.splitOn '\n').map String.ofList

/-- The line begins as the line of an error token does. -/
def opensError (line : String) : Bool :=
  "ERROR('".toList.isPrefixOf line.toList

theorem toList_join_lines (lines : List String) :
    (String.join (lines.map fun line => line ++ "\n")).toList =
      ['\n'].intercalate (lines.map String.toList ++ [[]]) := by
  induction lines with
  | nil => rfl
  | cons line lines ih =>
      have feed : "\n".toList = ['\n'] := rfl
      obtain ⟨next, others, more⟩ : ∃ next others,
          lines.map String.toList ++ [[]] = next :: others := by
        cases lines with
        | nil => exact ⟨_, _, rfl⟩
        | cons _ _ => exact ⟨_, _, rfl⟩
      rw [more] at ih
      simp [String.join_cons, ih, feed, more, List.intercalate]

/-- Lines that hold no line feed themselves are the lines of what they make up. -/
theorem outputLines_join {lines : List String} (within : ∀ line ∈ lines, '\n' ∉ line.toList) :
    outputLines (String.join (lines.map fun line => line ++ "\n")) = lines ++ [""] := by
  have free : ∀ line ∈ lines.map String.toList ++ [[]], '\n' ∉ line := by
    intro line member
    rcases List.mem_append.1 member with listed | last
    · obtain ⟨line, known, rfl⟩ := List.mem_map.1 listed
      exact within line known
    · simp [List.mem_singleton.1 last]
  rw [outputLines, toList_join_lines, List.splitOn_intercalate '\n' free (by simp)]
  simp [Function.comp_def]

theorem outputLines_listing {tokens : List Token}
    (within : ∀ t ∈ tokens, '\n' ∉ t.lexeme.toList) :
    outputLines (listing tokens) = "=== TOKENS ===" :: tokens.map Token.render ++ [""] := by
  have header : "=== TOKENS ===\n" = "=== TOKENS ===" ++ "\n" := rfl
  have lines : listing tokens = String.join
      (("=== TOKENS ===" :: tokens.map Token.render).map fun line => line ++ "\n") := by
    rw [listing, List.map_cons, List.map_map, header]
    rfl
  rw [lines]
  apply outputLines_join
  intro line member
  rcases List.mem_cons.1 member with rfl | listed
  · decide
  · obtain ⟨t, known, rfl⟩ := List.mem_map.1 listed
    exact Token.feed_not_mem_render (within t known)

namespace Report

theorem output_ofText (policy : Policy) (strict : Bool) (text : List Char) :
    (ofText policy strict text).output = listing (tokenize policy text) := by
  unfold ofText
  dsimp only
  split <;> rfl

theorem outputLines_ofText (policy : Policy) (strict : Bool) (text : List Char) :
    outputLines (ofText policy strict text).output =
      "=== TOKENS ===" :: (tokenize policy text).map Token.render ++ [""] := by
  rw [output_ofText]
  exact outputLines_listing fun t member => feed_not_mem_lexeme member

end Report

theorem opensError_render (t : Token) : opensError t.render = t.isError := by
  have error : "ERROR('".toList = ['E', 'R', 'R', 'O', 'R', '(', '\''] := rfl
  rw [opensError, Token.toList_render, error, Token.isError]
  cases t.kind <;> simp [Kind.label, List.isPrefixOf]

theorem countP_opensError (tokens : List Token) :
    ("=== TOKENS ===" :: tokens.map Token.render ++ [""]).countP opensError =
      errorCount tokens := by
  have header : opensError "=== TOKENS ===" = false := by decide
  have last : opensError "" = false := by decide
  have same : opensError ∘ Token.render = Token.isError := funext opensError_render
  rw [List.cons_append, List.countP_cons, List.countP_append, List.countP_map, same]
  simp [header, last, errorCount]

end TeamScript
