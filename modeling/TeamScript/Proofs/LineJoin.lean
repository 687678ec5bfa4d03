/-
# TeamScript.Proofs.LineJoin -- texts joined at a line feed

A line feed ends every token but a string that is still open, and it ends every
comment but a block comment that is still open.  So a text whose last token is
neither of these two faults can be read on its own, and so can the text on the
lines below it.

* `Chunk.Row.close_line`: with a line feed behind it the row of such a text stands
  in front of anything;
* `Chunk.tokens_lower`: a text that begins some lines further down has the same
  tokens, as many lines further down.

`tokenize_append_line` puts the two together: the stream of both texts is the one
stream without its end token, and the other stream below it.
-/
import TeamScript.Proofs.Grammar.Separator
import TeamScript.Proofs.Row

namespace TeamScript

set_option autoImplicit false

/-! ## Some lines further down -/

/-- The same column, so many lines further down. -/
def Location.lower (lines : Nat) (l : Location) : Location := ⟨l.line + lines, l.column⟩

def Token.lower (lines : Nat) (t : Token) : Token :=
  { t with location := t.location.lower lines }

theorem Location.lower_after (lines : Nat) (l : Location) (text : List Char) :
    (l.lower lines).after text = (l.after text).lower lines := by
  induction text generalizing l with
  | nil => rfl
  | cons c text ih =>
      have stepped : (l.lower lines).next c = (l.next c).lower lines := by
        by_cases feed : c = '\n'
        · simp [next, lower, feed, Nat.add_right_comm]
        · simp [next, lower, feed]
      rw [after_cons, after_cons, stepped, ih]

/-- A line feed leads to the start, as many lines down as there are line feeds. -/
theorem Location.start_after_feed (text : List Char) :
    start.after (text ++ ['\n']) = start.lower (1 + text.count '\n') := by
  rw [after_append, start_after]
  simp [behind, next, lower, start]
  omega

/-! ## A line feed behind a token -/

theorem StringLiteral.Skips.at_feed {skipped : List Char} (skips : Skips skipped none) :
    Skips skipped (some '\n') := by
  cases skips with
  | closed within => exact .closed within
  | open_ within _ => exact .open_ within (by simp)

/-- A string that the end of the text does not cut short ends at a line feed as well. -/
theorem StringLiteral.Spells.at_feed {span : List Char} {outcome : Except Fault Lexeme}
    (spells : Spells span outcome none) (closed : outcome ≠ .error .openString) :
    Spells span outcome (some '\n') := by
  cases spells with
  | closed clean => exact .closed clean
  | cut _ => exact absurd rfl closed
  | broken clean skips => exact .broken clean skips.at_feed
  | escape clean skips => exact .escape clean skips.at_feed

namespace Chunk

variable {policy : Policy}

theorem Stands.at_feed {span : List Char} {outcome : Except Fault Lexeme}
    (stands : (token span outcome).Stands policy none) (string : outcome ≠ .error .openString)
    (comment : outcome ≠ .error .openComment) :
    (token span outcome).Stands policy (some '\n') :=
  stands.separated (by decide) (fun spells => spells.at_feed string) (fun _ => comment)
    (fun _ => by decide)

/-! ## A line feed behind a row -/

/-- The chunks that a line feed makes of the last chunk of a text. -/
theorem Stands.close_line {last : Chunk} (stands : last.Stands policy none)
    (whole : ∀ span outcome, last = token span outcome →
      outcome ≠ .error .openString ∧ outcome ≠ .error .openComment) :
    ∃ closed, text closed = last.span ++ ['\n'] ∧ (∀ ahead, Row policy closed ahead) ∧
      ∀ location, reports location closed = reports location [last] := by
  have feed (ahead : Option Char) : (Chunk.gap ['\n']).Stands policy ahead := .gap (.blank rfl)
  cases last with
  | gap span =>
      cases stands with
      | gap piece =>
          exact ⟨[.gap span, .gap ['\n']], rfl, fun ahead => ⟨.gap piece, feed _, trivial⟩,
            fun _ => rfl⟩
      | @lastLine line within =>
          -- the line feed belongs to the comment
          exact ⟨[.gap ('/' :: '/' :: (line ++ ['\n']))], by simp [Chunk.span],
            fun ahead => ⟨.gap (.line within), trivial⟩, fun _ => rfl⟩
  | token span outcome =>
      obtain ⟨string, comment⟩ := whole span outcome rfl
      exact ⟨[token span outcome, .gap ['\n']], rfl,
        fun ahead => ⟨stands.at_feed string comment, feed _, trivial⟩, fun _ => rfl⟩

/-- With a line feed behind it the row of a text stands in front of anything, unless the text
ends with a string or a comment that is still open. -/
theorem Row.close_line {chunks : List Chunk} (row : Row policy chunks none)
    (whole : ∀ earlier span outcome, chunks = earlier ++ [token span outcome] →
      outcome ≠ .error .openString ∧ outcome ≠ .error .openComment) :
    ∃ closed, text closed = text chunks ++ ['\n'] ∧ (∀ ahead, Row policy closed ahead) ∧
      ∀ location, reports location closed = reports location chunks := by
  rcases List.eq_nil_or_concat chunks with rfl | ⟨earlier, last, split⟩
  · exact ⟨[.gap ['\n']], rfl, fun _ => ⟨.gap (.blank rfl), trivial⟩, fun _ => rfl⟩
  · rw [List.concat_eq_append] at split
    subst split
    obtain ⟨-, stands, -⟩ := row_append.1 row
    have standing : last.Stands policy none := stands
    obtain ⟨closed, closedText, closedRow, same⟩ :=
      standing.close_line fun span outcome isToken => whole earlier span outcome (by rw [isToken])
    refine ⟨earlier ++ closed, ?_, fun ahead => row.replace_last (closedRow ahead) closedText,
      fun location => ?_⟩
    · rw [text_append, text_append, closedText]
      simp
    · rw [reports_append, reports_append, same]

theorem tokens_lower (lines : Nat) (location : Location) (chunks : List Chunk) :
    tokens (location.lower lines) chunks = (tokens location chunks).map (Token.lower lines) := by
  induction chunks generalizing location with
  | nil => rfl
  | cons chunk chunks ih =>
      cases chunk with
      | gap span => rw [tokens, tokens, Location.lower_after, ih]
      | token span outcome =>
          rw [tokens, tokens, List.map_cons, Location.lower_after, ih]
          cases outcome <;> rfl

/-- The last chunk of a row, if it is a token, makes the last token of the row. -/
theorem reports_getLast? (location : Location) (earlier : List Chunk) (span : List Char)
    (outcome : Except Fault Lexeme) :
    (reports location (earlier ++ [token span outcome])).getLast? =
      some (tokenOf outcome (location.after (text earlier))) := by
  rw [reports_append]
  exact List.getLast?_concat ..

end Chunk

/-! ## Joining -/

/-- Two texts joined at a line feed are read one by one, unless the first of them ends with a
string or a block comment that is still open. -/
theorem tokenize_append_line {policy : Policy} {above : List Char} (below : List Char)
    (whole : ∀ t, (tokenize policy above).dropLast.getLast? = some t → t.kind = .error →
      t.lexeme ≠ "unterminated string" ∧ t.lexeme ≠ "unterminated comment") :
    tokenize policy (above ++ '\n' :: below) =
      (tokenize policy above).dropLast ++
        (tokenize policy below).map (Token.lower (1 + above.count '\n')) := by
  obtain ⟨chunks, row, rfl⟩ := Chunk.exists_row policy above
  obtain ⟨others, otherRow, rfl⟩ := Chunk.exists_row policy below
  have stream : (tokenize policy (Chunk.text chunks)).dropLast = Chunk.reports .start chunks := by
    rw [tokenize_of_row row, Chunk.tokens_eq_reports, List.dropLast_concat]
  rw [stream] at whole ⊢
  -- a token that is the last chunk of the row is the last token of the stream
  have complete : ∀ earlier span outcome, chunks = earlier ++ [.token span outcome] →
      outcome ≠ .error .openString ∧ outcome ≠ .error .openComment := by
    rintro earlier span outcome rfl
    have fault := whole _ (Chunk.reports_getLast? _ _ _ _)
    constructor
    · rintro rfl
      exact (fault rfl).1 rfl
    · rintro rfl
      exact (fault rfl).2 rfl
  obtain ⟨closed, closedText, closedRow, same⟩ := row.close_line complete
  have joined : Chunk.Row policy (closed ++ others) none :=
    Chunk.row_append.2 ⟨closedRow _, otherRow⟩
  have text_eq : Chunk.text chunks ++ '\n' :: Chunk.text others =
      Chunk.text (closed ++ others) := by
    rw [Chunk.text_append, closedText]
    simp
  rw [text_eq, tokenize_of_row joined, Chunk.tokens_append, same, closedText,
    Location.start_after_feed, Chunk.tokens_lower, tokenize_of_row otherRow]

/-- A malformed number and an open line comment, above a name and a string. -/
theorem tokenize_append_line_comment :
    (∀ t, (tokenize .refuse "134 5.e- // half".toList).dropLast.getLast? = some t →
      t.kind = .error → t.lexeme ≠ "unterminated string" ∧ t.lexeme ≠ "unterminated comment") ∧
      tokenize .refuse ("134 5.e- // half".toList ++ '\n' :: "134a\n$s$".toList) =
        [⟨.integer, "134", ⟨1, 1⟩⟩, ⟨.error, "malformed float: 5.e-", ⟨1, 5⟩⟩,
          ⟨.name, "134a", ⟨2, 1⟩⟩, ⟨.string, "s", ⟨3, 1⟩⟩, ⟨.ending, "<EOF>", ⟨3, 4⟩⟩] := by
  have above : tokenize .refuse "134 5.e- // half".toList =
      [⟨.integer, "134", ⟨1, 1⟩⟩, ⟨.error, "malformed float: 5.e-", ⟨1, 5⟩⟩,
        ⟨.ending, "<EOF>", ⟨1, 17⟩⟩] := by decide +kernel
  have below : tokenize .refuse "134a\n$s$".toList =
      [⟨.name, "134a", ⟨1, 1⟩⟩, ⟨.string, "s", ⟨2, 1⟩⟩, ⟨.ending, "<EOF>", ⟨2, 4⟩⟩] := by
    decide +kernel
  have whole : ∀ t, (tokenize .refuse "134 5.e- // half".toList).dropLast.getLast? = some t →
      t.kind = .error → t.lexeme ≠ "unterminated string" ∧ t.lexeme ≠ "unterminated comment" := by
    intro t last _
    rw [above] at last
    cases last
    decide
  have joined := tokenize_append_line "134a\n$s$".toList whole
  rw [above, below] at joined
  exact ⟨whole, joined⟩

end TeamScript
