/-
# TeamScript.Proofs.LineEnds -- how the lines of a text end

A carriage return right before a line feed changes no token, and neither does a
line feed behind the text: wherever in a text they stand, between tokens, in
comments or in strings with a fault, the chunk they belong to is the same chunk
without the one and with the other.

* `Chunk.Stands.drop_return`, `Chunk.Stands.add_feed`: what becomes of the chunk;
* `tokenize_dropReturns`: a text without its carriage returns at line ends has the
  same tokens at the same locations;
* `tokenize_add_feed`: a line feed behind a text moves the end token only.
-/
import TeamScript.Proofs.Grammar.Blank
import TeamScript.Proofs.Grammar.LineEnd
import TeamScript.Proofs.LineJoin
import TeamScript.Proofs.Progress

namespace TeamScript

set_option autoImplicit false

/-- The text without the carriage returns that stand right before a line feed. -/
def dropReturns : List Char → List Char
  | [] => []
  | '\r' :: '\n' :: text => '\n' :: dropReturns text
  | c :: text => c :: dropReturns text

/-! ## Chunks -/

namespace Chunk

variable {policy : Policy} {ahead : Option Char}

/-- What becomes of a chunk without a carriage return in front of a line feed. -/
theorem Stands.drop_return {chunk : Chunk} {front behind : List Char}
    (stands : chunk.Stands policy ahead) (inside : chunk.span = front ++ '\r' :: behind)
    (feed : behind.head?.or ahead = some '\n') :
    ∃ kept, text kept = front ++ behind ∧ Row policy kept ahead ∧
      ∀ location, reports location kept = reports location [chunk] := by
  cases chunk with
  | gap span =>
      obtain rfl : span = front ++ '\r' :: behind := inside
      generalize whole : front ++ '\r' :: behind = span at stands
      cases stands with
      | gap piece =>
          rw [← whole] at piece
          rcases gapPiece_drop_return piece feed with empty | kept
          · exact ⟨[], empty.symm, trivial, fun _ => rfl⟩
          · exact ⟨[.gap (front ++ behind)], List.append_nil _, ⟨.gap kept, trivial⟩, fun _ => rfl⟩
      | lastLine within =>
          have line : '\n' ∉ behind := by
            intro member
            have inner : '\n' ∈ front ++ '\r' :: behind := by simp [member]
            simp [whole, within] at inner
          obtain rfl := eq_nil_of_feed feed line
          cases feed
  | token span outcome =>
      obtain rfl : span = front ++ '\r' :: behind := inside
      rcases stands.blank_cases with spells | ⟨body, whole, rfl, rfl, unclosed⟩ | blank
      · exact ⟨[token (front ++ behind) outcome], List.append_nil _,
          ⟨.string (spells.drop_return feed), trivial⟩, fun _ => rfl⟩
      · obtain ⟨front, rfl, inner⟩ := exists_of_cons (by decide) whole
        obtain ⟨front, rfl, rfl⟩ := exists_of_cons (by decide) inner.symm
        cases behind with
        | nil => cases feed
        | cons c behind =>
            cases feed
            exact ⟨[token ('/' :: '*' :: (front ++ '\n' :: behind)) (.error .openComment)],
              List.append_nil _, ⟨.openComment (Comment.unclosed_of_return unclosed), trivial⟩,
              fun _ => rfl⟩
      · cases blank '\r' (by simp)

/-- What becomes of the last chunk of a text with a line feed behind it. -/
theorem Stands.add_feed {last : Chunk} (stands : last.Stands policy none) :
    ∃ closed, text closed = last.span ++ ['\n'] ∧ Row policy closed none ∧
      ∀ location, reports location closed = reports location [last] := by
  have blank : GapPiece policy ['\n'] := .blank rfl
  cases last with
  | gap span =>
      obtain ⟨closed, closedText, row, same⟩ := stands.close_line (by simp)
      exact ⟨closed, closedText, row none, same⟩
  | token span outcome =>
      have behind (stands : (token span outcome).Stands policy (some '\n')) :
          ∃ closed, text closed = span ++ ['\n'] ∧ Row policy closed none ∧
            ∀ location, reports location closed = reports location [token span outcome] :=
        ⟨[token span outcome, Chunk.gap ['\n']], rfl, ⟨stands, .gap blank, trivial⟩, fun _ => rfl⟩
      have apart : '\n' ∈ separators := by decide
      cases stands with
      | slash _ _ => exact behind (.slash (by decide) (by decide))
      | @openComment body unclosed =>
          -- the line feed belongs to the comment
          exact ⟨[token ('/' :: '*' :: (body ++ ['\n'])) (.error .openComment)],
            List.append_nil _, ⟨.openComment (Comment.unclosed_add_feed unclosed), trivial⟩,
            fun _ => rfl⟩
      | string spells =>
          cases spells with
          | closed clean => exact behind (.string (.closed clean))
          | @cut content clean =>
              -- the line feed breaks the string that the end of the text cut
              exact ⟨[token ('$' :: (content ++ ['\n'])) (.error .openString)], List.append_nil _,
                ⟨.string (.broken clean (.open_ (by simp) (by simp [text]))), trivial⟩,
                fun _ => rfl⟩
          | broken clean skips => exact behind (.string (.broken clean skips.at_feed))
          | escape clean skips => exact behind (.string (.escape clean skips.at_feed))
      | name spells => exact behind (.name (spells.separated apart))
      | numeral spells unnamed =>
          exact behind (.numeral (spells.separated apart) (Name.not_opens_separator apart unnamed))
      | word spells => exact behind (.word (spells.separated apart))
      | operator spells => exact behind (.operator (spells.separated apart))
      | unknown unknown => exact behind (.unknown unknown)

/-! ## Rows -/

/-- The chunk of a row that holds a character of its text. -/
theorem exists_chunk_of_text {chunks : List Chunk} {c : Char} {above below : List Char}
    (whole : text chunks = above ++ c :: below) :
    ∃ front chunk later before behind, chunks = front ++ chunk :: later ∧
      chunk.span = before ++ c :: behind ∧ above = text front ++ before ∧
      below = behind ++ text later := by
  induction chunks generalizing above with
  | nil => simp at whole
  | cons chunk chunks ih =>
      rw [text_cons] at whole
      rcases List.append_eq_append_iff.1 whole with ⟨inner, rfl, split⟩ | ⟨inner, split, tail⟩
      · obtain ⟨front, found, later, before, behind, rfl, span, rfl, rfl⟩ := ih split
        exact ⟨chunk :: front, found, later, before, behind, rfl, span, by simp, rfl⟩
      · cases inner with
        | nil =>
            have next : text chunks = [] ++ c :: below := tail.symm
            obtain ⟨front, found, later, before, behind, rfl, span, empty, rfl⟩ := ih next
            exact ⟨chunk :: front, found, later, before, behind, rfl, span,
              by simpa using split.symm.trans (by simpa using empty), rfl⟩
        | cons d inner =>
            obtain ⟨rfl, rfl⟩ := List.cons.inj tail
            exact ⟨[], chunk, chunks, above, inner, rfl, split, rfl, rfl⟩

theorem Row.feed_of_return {chunks : List Chunk} (row : Row policy chunks (some '\r')) :
    Row policy chunks (some '\n') := by
  induction chunks with
  | nil => trivial
  | cons chunk chunks ih =>
      obtain ⟨stands, others⟩ := row
      refine ⟨?_, ih others⟩
      cases front : (text chunks).head? with
      | none =>
          rw [front] at stands
          exact stands.feed_of_return
      | some c =>
          rw [front] at stands
          exact stands

/-- Tokens on the lines below do not depend on the column in which the line above ends. -/
theorem Row.tokens_of_feed {chunks : List Chunk} (row : Row policy chunks none)
    (feed : (text chunks).head? = some '\n') {a b : Location} (line : a.line = b.line) :
    tokens a chunks = tokens b chunks := by
  cases chunks with
  | nil => cases feed
  | cons chunk chunks =>
      obtain ⟨stands, -⟩ := row
      obtain ⟨c, more, front⟩ := List.exists_cons_of_ne_nil stands.span_ne_nil
      rw [text_cons, front] at feed
      cases feed
      cases chunk with
      | gap span =>
          obtain rfl : span = '\n' :: more := front
          simp [tokens, Location.next, line]
      | token span outcome =>
          obtain rfl : span = '\n' :: more := front
          rcases stands.blank_cases with spells | ⟨_, other, _⟩ | blank
          · obtain ⟨_, other⟩ := spells.first
            simp at other
          · simp at other
          · cases blank '\n' (by simp)

/-- The row of a text without one of its carriage returns in front of a line feed. -/
theorem Row.drop_return {chunks : List Chunk} (row : Row policy chunks none)
    {above below : List Char} (whole : text chunks = above ++ '\r' :: '\n' :: below) :
    ∃ dropped, text dropped = above ++ '\n' :: below ∧ Row policy dropped none ∧
      ∀ location, tokens location dropped = tokens location chunks := by
  obtain ⟨front, chunk, later, before, behind, rfl, span, rfl, below_eq⟩ :=
    exists_chunk_of_text whole
  obtain ⟨frontRow, stands, laterRow⟩ := row_append.1 row
  have feed : behind.head?.or ((text later).head?.or none) = some '\n' := by
    rw [Option.or_none, ← List.head?_append, ← below_eq]
    rfl
  obtain ⟨kept, keptText, keptRow, same⟩ := stands.drop_return span feed
  refine ⟨front ++ (kept ++ later), ?_, row_append.2 ⟨?_, row_append.2 ⟨keptRow, laterRow⟩⟩,
    fun location => ?_⟩
  · rw [below_eq, text_append, text_append, keptText]
    simp
  · rw [text_append, keptText, List.append_assoc, ← below_eq]
    rw [text_cons, span] at frontRow
    cases before with
    | nil => exact Row.feed_of_return frontRow
    | cons c before => exact frontRow
  · have others (place : Location) : tokens (place.after (before ++ behind)) later =
        tokens (place.after (before ++ '\r' :: behind)) later := by
      cases behind with
      | nil =>
          -- the line feed is the first character behind the chunk
          refine laterRow.tokens_of_feed (by simpa using feed) ?_
          simp [Location.after_append, Location.next]
      | cons c behind =>
          cases feed
          simp [Location.after_append, Location.next]
    have found := tokens_append (location.after (text front)) [chunk] later
    rw [text_cons, text_nil, List.append_nil, span, ← others, ← same] at found
    rw [tokens_append _ front (kept ++ later), tokens_append _ kept, keptText, ← found,
      tokens_append _ front (chunk :: later)]
    rfl

/-- The row of a text with a line feed behind it. -/
theorem Row.add_feed {chunks : List Chunk} (row : Row policy chunks none) :
    ∃ closed, text closed = text chunks ++ ['\n'] ∧ Row policy closed none ∧
      ∀ location, reports location closed = reports location chunks := by
  rcases List.eq_nil_or_concat chunks with rfl | ⟨earlier, last, split⟩
  · exact ⟨[.gap ['\n']], rfl, ⟨.gap (.blank rfl), trivial⟩, fun _ => rfl⟩
  · rw [List.concat_eq_append] at split
    subst split
    obtain ⟨-, stands, -⟩ := row_append.1 row
    have standing : last.Stands policy none := stands
    obtain ⟨closed, closedText, closedRow, same⟩ := standing.add_feed
    refine ⟨earlier ++ closed, ?_, row.replace_last closedRow closedText, fun location => ?_⟩
    · rw [text_append, text_append, closedText]
      simp
    · rw [reports_append, reports_append, same]

end Chunk

/-! ## Streams -/

/-- A carriage return in front of a line feed changes no token. -/
theorem tokenize_drop_return (policy : Policy) (above below : List Char) :
    tokenize policy (above ++ '\n' :: below) =
      tokenize policy (above ++ '\r' :: '\n' :: below) := by
  obtain ⟨chunks, row, whole⟩ := Chunk.exists_row policy (above ++ '\r' :: '\n' :: below)
  obtain ⟨dropped, droppedText, droppedRow, same⟩ := row.drop_return whole
  rw [← droppedText, tokenize_of_row droppedRow, ← whole, tokenize_of_row row, same]

/-- Without its carriage returns in front of line feeds a text has the same tokens, and each of
them stands where it stood. -/
theorem tokenize_dropReturns (policy : Policy) (text : List Char) :
    tokenize policy (dropReturns text) = tokenize policy text := by
  have behind (above : List Char) :
      tokenize policy (above ++ dropReturns text) = tokenize policy (above ++ text) := by
    fun_induction dropReturns text generalizing above with
    | case1 => rfl
    | case2 text ih =>
        have later := ih (above ++ ['\n'])
        rw [List.append_assoc, List.append_assoc] at later
        exact later.trans (tokenize_drop_return policy above text)
    | case3 c text _ ih =>
        have later := ih (above ++ [c])
        rwa [List.append_assoc, List.append_assoc] at later
  exact behind []

/-- With a line feed behind it a text has the same tokens, and its end token is on the next
line. -/
theorem tokenize_add_feed (policy : Policy) (text : List Char) :
    ∃ tokens, (∀ t ∈ tokens, t.isEnding = false) ∧
      tokenize policy text = tokens ++ [.ending (.behind text)] ∧
      tokenize policy (text ++ ['\n']) = tokens ++ [.ending (.behind (text ++ ['\n']))] := by
  obtain ⟨chunks, row, rfl⟩ := Chunk.exists_row policy text
  obtain ⟨closed, closedText, closedRow, same⟩ := row.add_feed
  refine ⟨Chunk.reports .start chunks, Chunk.isEnding_of_mem_reports, ?_, ?_⟩
  · rw [tokenize_of_row row, Chunk.tokens_eq_reports, Location.start_after]
  · rw [← closedText, tokenize_of_row closedRow, Chunk.tokens_eq_reports, same,
      Location.start_after, closedText]

end TeamScript
