/-
# TeamScript.Proofs.Renaming -- foreign characters are opaque

A text may have its foreign characters replaced by others, in any way that
`Keeps` the significant ones.  Its row of chunks is then renamed along with it
(`Chunk.Row.rename`): the chunks divide the text at the same places, and what
they turn out to be differs in the replaced characters only.  So the stream has
the same tokens at the same locations, with the characters of their lexemes
replaced (`tokenize_map`).

NUL is foreign like any other character that means nothing, though readers see
one past the end of a text.
-/
import TeamScript.Proofs.Grammar.Foreign
import TeamScript.Proofs.Row

namespace TeamScript

set_option autoImplicit false

variable {f : Char → Char}

/-! ## Locations and tokens -/

theorem Location.after_map (fixes : Fixes f isMark) (l : Location) (text : List Char) :
    l.after (text.map f) = l.after text := by
  induction text generalizing l with
  | nil => rfl
  | cons c text ih =>
      have next : l.next (f c) = l.next c := by
        unfold Location.next
        simp only [fixes.eq_iff (c := c) (d := '\n') rfl]
      rw [List.map_cons, Location.after_cons, Location.after_cons, next, ih]

/-- The token with the characters of its lexeme renamed. -/
def Token.rename (f : Char → Char) (t : Token) : Token :=
  { t with lexeme := t.lexeme.map f }

theorem Token.rename_ending (keeps : Keeps f) (location : Location) :
    (Token.ending location).rename f = Token.ending location := by
  have fixed : Token.endLexeme.map f = Token.endLexeme := keeps.fixes.map_string (by decide)
  rw [Token.ending, Token.rename, fixed]

theorem Lexeme.text_rename (keeps : Keeps f) (l : Lexeme) :
    (l.rename f).text = l.text.map f := by
  cases l with
  | keyword word =>
      have known : word.word.toList.all isSignificant = true := by
        rw [List.all_eq_true]
        intro c member
        exact significant_of_mark (mark_of_letter (Word.isLetter_of_mem_word word c member))
      exact (keeps.fixes.map_string known).symm
  | _ => rfl

theorem Lexeme.kind_rename (l : Lexeme) : (l.rename f).kind = l.kind := by
  cases l <;> rfl

theorem map_append (a b : String) : (a ++ b).map f = a.map f ++ b.map f := by
  apply String.toList_inj.1
  simp [String.toList_map]

/-- The headings of the messages are significant. -/
theorem Fault.message_rename (keeps : Keeps f) (fault : Fault) :
    (fault.rename f).message = fault.message.map f := by
  have headed (heading text : String) (known : heading.toList.all isSignificant = true) :
      heading ++ text.map f = (heading ++ text).map f := by
    rw [map_append, keeps.fixes.map_string known]
  cases fault with
  | unknownCharacter c =>
      have single (d : Char) : (unknownCharacter d).message = String.ofList [d] := rfl
      rw [rename, single, single, map_ofList]
      rfl
  | unknownWord word => exact headed "unknown word: " word (by decide)
  | doubleDot text => exact headed "malformed number: " text (by decide)
  | emptyFraction text => exact headed "malformed float: " text (by decide)
  | badExponent text => exact headed "bad exponent: " text (by decide)
  | _ =>
      rw [rename]
      symm
      apply keeps.fixes.map_string
      decide

namespace Chunk

theorem tokenOf_rename (keeps : Keeps f) (outcome : Except Fault Lexeme) (location : Location) :
    tokenOf (renameOutcome f outcome) location = (tokenOf outcome location).rename f := by
  cases outcome with
  | ok l => simp [tokenOf, renameOutcome, Token.rename, Lexeme.kind_rename, l.text_rename keeps]
  | error fault =>
      simp [tokenOf, renameOutcome, Token.rename, Fault.token, fault.message_rename keeps]

/-! ## Rows -/

variable {policy policy' : Policy}

@[simp] theorem span_rename (chunk : Chunk) : (chunk.rename f).span = chunk.span.map f := by
  cases chunk <;> rfl

theorem text_rename (chunks : List Chunk) : text (chunks.map (rename f)) = (text chunks).map f := by
  induction chunks with
  | nil => rfl
  | cons chunk chunks ih => simp [ih]

theorem Row.carry (carries : Carries f policy policy') {chunks : List Chunk} {ahead : Option Char}
    (row : Row policy chunks ahead) : Row policy' (chunks.map (rename f)) (ahead.map f) := by
  induction chunks with
  | nil => trivial
  | cons chunk chunks ih =>
      obtain ⟨stands, others⟩ := row
      refine ⟨?_, ih others⟩
      rw [text_rename, List.head?_map, ← Option.map_or]
      exact stands.carry carries

theorem Row.rename (keeps : Keeps f) {chunks : List Chunk} {ahead : Option Char}
    (row : Row policy chunks ahead) : Row policy (chunks.map (Chunk.rename f)) (ahead.map f) :=
  row.carry (keeps.carries policy)

/-- The tokens of a renamed row differ by what the renaming makes of each of them. -/
theorem tokens_map (fixes : Fixes f isMark) {change : Token → Token}
    (ending : ∀ location, change (.ending location) = .ending location) {chunks : List Chunk}
    (each : ∀ span outcome, token span outcome ∈ chunks → ∀ location,
      tokenOf (renameOutcome f outcome) location = change (tokenOf outcome location))
    (location : Location) :
    tokens location (chunks.map (rename f)) = (tokens location chunks).map change := by
  induction chunks generalizing location with
  | nil => simp [tokens, ending]
  | cons chunk chunks ih =>
      have others := ih fun span outcome member => each span outcome (.tail _ member)
      cases chunk with
      | gap span => simp [tokens, rename, Location.after_map fixes, others]
      | token span outcome =>
          simp [tokens, rename, Location.after_map fixes, others, each span outcome (.head _)]

theorem tokens_rename (keeps : Keeps f) (location : Location) (chunks : List Chunk) :
    tokens location (chunks.map (rename f)) = (tokens location chunks).map (Token.rename f) :=
  tokens_map (keeps.fixes.part fun _ => significant_of_mark) (Token.rename_ending keeps)
    (fun _ outcome _ => tokenOf_rename keeps outcome) location

end Chunk

/-! ## Streams -/

/-- One character in the place of another. -/
def replace (a b c : Char) : Char := if c = a then b else c

theorem keeps_replace {a b : Char} (foreign : isSignificant a = false)
    (foreign' : isSignificant b = false) : Keeps (replace a b) := by
  constructor
  · intro c known
    have other : c ≠ a := ne_of_class known foreign
    rw [replace, if_neg other]
  · intro c unknown
    rw [replace]
    split
    · exact foreign'
    · exact unknown

/-- Replacing foreign characters by foreign characters changes the lexemes in these characters
and nothing else.  NUL is one of them. -/
theorem tokenize_map (policy : Policy) :
    (∀ f, Keeps f → ∀ text,
      tokenize policy (text.map f) = (tokenize policy text).map (Token.rename f)) ∧
    ∀ c, isSignificant c = false → ∀ text,
      tokenize policy (text.map (replace '\x00' c)) =
          (tokenize policy text).map (Token.rename (replace '\x00' c)) ∧
        tokenize policy (text.map (replace c '\x00')) =
          (tokenize policy text).map (Token.rename (replace c '\x00')) := by
  have renamed {f : Char → Char} (keeps : Keeps f) (text : List Char) :
      tokenize policy (text.map f) = (tokenize policy text).map (Token.rename f) := by
    obtain ⟨chunks, row, rfl⟩ := Chunk.exists_row policy text
    have row' := row.rename keeps
    rw [← Chunk.text_rename, tokenize_of_row row', tokenize_of_row row, Chunk.tokens_rename keeps]
  have nul : isSignificant '\x00' = false := by decide
  refine ⟨fun f keeps text => renamed keeps text, fun c foreign text => ⟨?_, ?_⟩⟩
  · exact renamed (keeps_replace nul foreign) text
  · exact renamed (keeps_replace foreign nul) text

/-- NUL in a string and between tokens, in the place of a letter that is not ASCII, and number signs
in the place of NUL. -/
theorem tokenize_map_nul :
    isSignificant 'é' = false ∧ isSignificant '#' = false ∧ Keeps (replace 'é' '\x00') ∧
      tokenize .refuse ("1é2 $é$".toList.map (replace 'é' '\x00')) =
        [⟨.integer, "1", ⟨1, 1⟩⟩, ⟨.error, "\x00", ⟨1, 2⟩⟩, ⟨.integer, "2", ⟨1, 3⟩⟩,
          ⟨.string, "\x00", ⟨1, 5⟩⟩, ⟨.ending, "<EOF>", ⟨1, 8⟩⟩] ∧
      tokenize .refuse ("!\x00=".toList.map (replace '\x00' '#')) =
        [⟨.error, "!", ⟨1, 1⟩⟩, ⟨.error, "#", ⟨1, 2⟩⟩, ⟨.operator, "=", ⟨1, 3⟩⟩,
          ⟨.ending, "<EOF>", ⟨1, 4⟩⟩] := by
  have keeps : Keeps (replace 'é' '\x00') := keeps_replace (by decide) (by decide)
  have sign : isSignificant '#' = false := by decide
  have accented : tokenize .refuse "1é2 $é$".toList =
      [⟨.integer, "1", ⟨1, 1⟩⟩, ⟨.error, "é", ⟨1, 2⟩⟩, ⟨.integer, "2", ⟨1, 3⟩⟩,
        ⟨.string, "é", ⟨1, 5⟩⟩, ⟨.ending, "<EOF>", ⟨1, 8⟩⟩] := by decide +kernel
  have nul : tokenize .refuse "!\x00=".toList =
      [⟨.error, "!", ⟨1, 1⟩⟩, ⟨.error, "\x00", ⟨1, 2⟩⟩, ⟨.operator, "=", ⟨1, 3⟩⟩,
        ⟨.ending, "<EOF>", ⟨1, 4⟩⟩] := by decide +kernel
  have renamed := (tokenize_map .refuse).1 _ keeps "1é2 $é$".toList
  have signed := ((tokenize_map .refuse).2 '#' sign "!\x00=".toList).1
  rw [accented] at renamed
  rw [nul] at signed
  refine ⟨by decide, sign, keeps, renamed.trans ?_, signed.trans ?_⟩
  · decide +kernel
  · decide +kernel

end TeamScript
