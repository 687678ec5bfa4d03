/-
# TeamScript.Proofs.Reprint -- what was read, printed and read again

`reprint` writes the tokens of a stream one behind the other, with one space
between two of them.  What stood between them in the text they were read from is
lost, and so is the text that stood around each of them; what a token says is not.

* `Valid.at_space`: a correct token text is one in front of a space and at the end
  of a text, too, whatever followed it before;
* `parses_printed`: so the printed tokens divide into themselves.

`tokenize_reprint` puts these together for a stream without error tokens: the
printed text has the same tokens, all on its one line, and is printed as itself.
-/
import TeamScript.Proofs.Acceptance
import TeamScript.Proofs.GapExchange
import TeamScript.Proofs.Grammar.Blank
import TeamScript.Proofs.Progress

namespace TeamScript

set_option autoImplicit false

/-! ## Printing -/

namespace Token

/-- The text that a token with this kind and lexeme is printed as: only a string is
known by less than its text. -/
def textOf : Kind → String → List Char
  | .string, content => '$' :: (content.toList ++ ['$'])
  | _, lexeme => lexeme.toList

def text (t : Token) : List Char := textOf t.kind t.lexeme

/-- The token text is one in front of some character or at the end of a text. -/
def Correct (t : Token) : Prop := ∃ ahead, Valid t.kind t.text t.lexeme ahead

end Token

/-- Texts on one line, with one space between two of them. -/
def spaced (texts : List (List Char)) : List Char := [' '].intercalate texts

theorem spaced_singleton (text : List Char) : spaced [text] = text :=
  List.intercalate_singleton ..

theorem spaced_cons_cons (a b : List Char) (texts : List (List Char)) :
    spaced (a :: b :: texts) = a ++ ([' '] ++ spaced (b :: texts)) := by
  simp [spaced, List.intercalate_cons_cons]

/-- The stream without its end token. -/
def withoutEnd (tokens : List Token) : List Token := tokens.filter fun t => !t.isEnding

/-- The tokens on one line, without the end token. -/
def reprint (tokens : List Token) : List Char := spaced ((withoutEnd tokens).map Token.text)

/-- The tokens on line one from a column on, each one space behind the token in front of
it, and the end token right behind the last of them. -/
def inLine (column : Nat) : List Token → List Token
  | [] => [.ending ⟨1, column⟩]
  | [t] => [{ t with location := ⟨1, column⟩ }, .ending ⟨1, column + t.text.length⟩]
  | t :: u :: tokens =>
      { t with location := ⟨1, column⟩ } :: inLine (column + t.text.length + 1) (u :: tokens)

theorem signs_inLine (column : Nat) (tokens : List Token) :
    (inLine column tokens).map Token.sign = tokens.map Token.sign ++ [(.ending, "<EOF>")] := by
  induction tokens generalizing column with
  | nil => rfl
  | cons t tokens ih =>
      cases tokens with
      | nil => rfl
      | cons u tokens =>
          rw [inLine, List.map_cons, ih]
          rfl

/-- What is printed depends on what the tokens are, not on where they stand. -/
theorem reprint_of_signs {a b : List Token} (same : a.map Token.sign = b.map Token.sign) :
    reprint a = reprint b := by
  have printed (tokens : List Token) : reprint tokens =
      spaced (((tokens.map Token.sign).filter fun sign => sign.1 != .ending).map
        fun sign => Token.textOf sign.1 sign.2) := by
    rw [List.filter_map, List.map_map]
    rfl
  rw [printed, printed, same]

/-! ## Reading what was printed -/

/-- Neither a space nor the end of the text goes on with a correct token. -/
theorem Valid.at_space {kind : Kind} {text : List Char} {lexeme : String}
    {ahead next : Option Char} (valid : Valid kind text lexeme ahead)
    (space : ∀ c, next = some c → c = ' ') : Valid kind text lexeme next := by
  have stops {p : Char → Bool} (outside : p ' ' = false) : Stops p next := by
    intro c here
    rw [space c here]
    exact outside
  have other {c : Char} (other : c ≠ ' ') : next ≠ some c := fun here => other (space c here)
  cases valid with
  | keyword known _ => exact .keyword known (stops rfl)
  | identifier known start parts _ =>
      refine .identifier known start parts fun d here => ?_
      rw [space d here]
      decide
  | integer spells _ _ =>
      refine .integer spells (fun c here => ?_) fun _ c here => ?_
      · rw [space c here]
        decide
      · rw [space c here]
        decide
  | fraction spells _ =>
      refine .fraction spells fun c here => ?_
      rw [space c here]
      decide
  | scaled unscaled code scaled _ => exact .scaled unscaled code scaled (stops rfl)
  | string dollar feed escape => exact .string dollar feed escape
  | pair known => exact .pair known
  | simple known => exact .simple known
  | equal known _ => exact .equal known (other (by decide))
  | less _ _ => exact .less (other (by decide)) (other (by decide))
  | slash _ _ => exact .slash (other (by decide)) (other (by decide))

/-- The text of a correct token is the text that it is printed as. -/
theorem Valid.textOf_eq {kind : Kind} {text : List Char} {lexeme : String}
    {ahead : Option Char} (valid : Valid kind text lexeme ahead) :
    Token.textOf kind lexeme = text := by
  cases valid <;> simp [Token.textOf]

theorem Valid.feed_not_mem {kind : Kind} {text : List Char} {lexeme : String}
    {ahead : Option Char} (valid : Valid kind text lexeme ahead) : '\n' ∉ text := by
  obtain ⟨l, -, -, stands⟩ := @stands_of_valid .refuse _ _ _ _ valid
  exact stands.feed_not_mem

/-- Behind a text on one line, printed tokens are read as themselves. -/
theorem parses_printed (policy : Policy) {tokens : List Token}
    (correct : ∀ t ∈ tokens, t.Correct) {before : List Char} (line : '\n' ∉ before) :
    Parses policy before (spaced (tokens.map Token.text)) (inLine (1 + before.length) tokens) := by
  induction tokens generalizing before with
  | nil =>
      have ending := @Parses.ending policy before
      rw [Location.behind_of_not_mem line] at ending
      exact ending
  | cons t tokens ih =>
      obtain ⟨⟨ahead, valid⟩, others⟩ := List.forall_mem_cons.1 correct
      have onLine : '\n' ∉ before ++ t.text := by
        simp [line, valid.feed_not_mem]
      cases tokens with
      | nil =>
          have ending := @Parses.ending policy (before ++ t.text)
          have last : Valid t.kind t.text t.lexeme ([] : List Char).head? :=
            valid.at_space (by simp)
          have parses := Parses.token last ending
          rw [Location.behind_of_not_mem line, Location.behind_of_not_mem onLine,
            List.append_nil, List.length_append, ← Nat.add_assoc] at parses
          rw [List.map_singleton, spaced_singleton]
          exact parses
      | cons u tokens =>
          have spaceLine : '\n' ∉ before ++ t.text ++ [' '] := by
            simp [line, valid.feed_not_mem]
          have later := Parses.gap (.blank rfl) (ih others spaceLine)
          have parses := Parses.token (valid.at_space (by simp)) later
          rw [Location.behind_of_not_mem line] at parses
          simp only [List.length_append, List.length_singleton, ← Nat.add_assoc] at parses
          rw [List.map_cons, List.map_cons, spaced_cons_cons]
          exact parses

/-! ## The tokens of a stream -/

/-- A token of a row that is neither an error token nor the end token is correct. -/
theorem Chunk.Row.correct {policy : Policy} {chunks : List Chunk} {location : Location}
    (row : Row policy chunks none) {t : Token} (member : t ∈ tokens location chunks)
    (error : t.isError = false) (ending : t.isEnding = false) : t.Correct := by
  rcases mem_tokens member with ⟨place, rfl⟩ | ⟨span, outcome, place, inside, rfl⟩
  · cases ending
  · obtain ⟨next, stands⟩ := row.stands_of_mem inside
    cases outcome with
    | error fault => cases error
    | ok l =>
        have valid := valid_of_stands stands
        refine ⟨next, ?_⟩
        show Valid l.kind (Token.textOf l.kind l.text) l.text next
        rwa [valid.textOf_eq]

/-- Only the last token of a stream is an end token. -/
theorem eq_withoutEnd_append (policy : Policy) (text : List Char) :
    tokenize policy text = withoutEnd (tokenize policy text) ++ [.ending (.behind text)] := by
  obtain ⟨chunks, row, rfl⟩ := Chunk.exists_row policy text
  have kept : (Chunk.reports .start chunks).filter (fun t => !t.isEnding) =
      Chunk.reports .start chunks :=
    List.filter_eq_self.2 fun t member => by simp [Chunk.isEnding_of_mem_reports t member]
  rw [tokenize_of_row row, Chunk.tokens_eq_reports, withoutEnd, List.filter_append, kept,
    Location.start_after, List.filter_cons_of_neg (by simp [Token.isEnding, Token.ending]),
    List.filter_nil, List.append_nil]

/-- The tokens of a text without faults, printed with single spaces between them, are read
as the same tokens, whatever becomes of punctuation.  They stand on one line, one space apart,
and are printed as the same text again. -/
theorem tokenize_reprint {policy : Policy} {text : List Char}
    (correct : ∀ t ∈ tokenize policy text, t.isError = false) (other : Policy) :
    tokenize other (reprint (tokenize policy text)) =
        inLine 1 (withoutEnd (tokenize policy text)) ∧
      (tokenize other (reprint (tokenize policy text))).map Token.sign =
        (tokenize policy text).map Token.sign ∧
      reprint (tokenize other (reprint (tokenize policy text))) =
        reprint (tokenize policy text) := by
  have wellFormed : ∀ t ∈ withoutEnd (tokenize policy text), t.Correct := by
    intro t member
    obtain ⟨inside, ending⟩ := List.mem_filter.1 member
    obtain ⟨chunks, row, rfl⟩ := Chunk.exists_row policy text
    have found := inside
    rw [tokenize_of_row row] at found
    exact row.correct found (correct t inside) (by simpa using ending)
  have line : '\n' ∉ ([] : List Char) := List.not_mem_nil
  obtain ⟨chunks, row, printed, stream, -⟩ := (parses_printed other wellFormed line).row
  have again : tokenize other (reprint (tokenize policy text)) =
      inLine 1 (withoutEnd (tokenize policy text)) := by
    rw [reprint, ← printed, tokenize_of_row row]
    exact stream
  have signs : (tokenize other (reprint (tokenize policy text))).map Token.sign =
      (tokenize policy text).map Token.sign := by
    have whole := congrArg (List.map Token.sign) (eq_withoutEnd_append policy text)
    rw [List.map_append] at whole
    rw [again, signs_inLine, whole]
    rfl
  exact ⟨again, signs, reprint_of_signs signs⟩

/-- Names and numbers around a team code, and comment openers inside a string. -/
theorem tokenize_reprint_codes :
    (∀ t ∈ tokenize .skip "if134a/*c*/;$//$134\n2.5e3".toList, t.isError = false) ∧
      reprint (tokenize .skip "if134a/*c*/;$//$134\n2.5e3".toList) =
        "if 134a $//$ 134 2.5e3".toList ∧
      tokenize .refuse (reprint (tokenize .skip "if134a/*c*/;$//$134\n2.5e3".toList)) =
        [⟨.keyword, "if", ⟨1, 1⟩⟩, ⟨.name, "134a", ⟨1, 4⟩⟩, ⟨.string, "//", ⟨1, 9⟩⟩,
          ⟨.integer, "134", ⟨1, 14⟩⟩, ⟨.number, "2.5e3", ⟨1, 18⟩⟩,
          ⟨.ending, "<EOF>", ⟨1, 23⟩⟩] := by
  have stream : tokenize .skip "if134a/*c*/;$//$134\n2.5e3".toList =
      [⟨.keyword, "if", ⟨1, 1⟩⟩, ⟨.name, "134a", ⟨1, 3⟩⟩, ⟨.string, "//", ⟨1, 13⟩⟩,
        ⟨.integer, "134", ⟨1, 17⟩⟩, ⟨.number, "2.5e3", ⟨2, 1⟩⟩, ⟨.ending, "<EOF>", ⟨2, 6⟩⟩] := by
    decide +kernel
  have correct : ∀ t ∈ tokenize .skip "if134a/*c*/;$//$134\n2.5e3".toList, t.isError = false := by
    rw [stream]
    decide
  have again := (tokenize_reprint correct .refuse).1
  refine ⟨correct, ?_, again.trans ?_⟩
  · rw [stream]
    decide
  · rw [stream]
    decide

end TeamScript
