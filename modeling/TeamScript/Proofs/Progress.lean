/-
# TeamScript.Proofs.Progress -- every call returns, and the stream ends

A call turns in a loop as long as it meets gaps.  Each turn consumes something,
so the loop has ended when there is nothing left (`Lexer.seekWithin_of_lt`).  Then
either a token was found, and the lexer stands further on, or the text has ended,
and the lexer stays where it is for good (`Lexer.Progress`).

So the stream of a text is finite: one end token behind as many tokens as there
are characters, at most.  The iterator hands out this stream and then nothing,
which `Lexer.item_eq` says of each of its answers.

None of this depends on what the characters are.  The sentinel is a character like
any other as long as text is left, and a text is at its end only when none is.
-/
import TeamScript.Proofs.Calls

namespace TeamScript

set_option autoImplicit false

namespace Lexer

/-! ## The loop inside a call -/

/-- What `seek` finds within so many turns of its loop, each turn one piece of the text. -/
def seekWithin (l : Lexer) : Nat → Option (Lexer × Option Reading)
  | 0 => none
  | turns + 1 =>
      match l.rest with
      | [] => some (l, none)
      | c :: more =>
          match Piece.read l.policy c more with
          | .gap span rest => (l.pass span rest).seekWithin turns
          | .token reading => some (l, some reading)

/-- There are fewer turns than characters left, but for the last one. -/
theorem seekWithin_of_lt {l : Lexer} {turns : Nat} (enough : l.rest.length < turns) :
    l.seekWithin turns = some l.seek := by
  induction turns generalizing l with
  | zero => omega
  | succ turns ih =>
      cases ahead : l.rest with
      | nil => simp only [seekWithin, ahead, seek_of_nil ahead]
      | cons c more =>
          have shorter := Piece.read_rest_length_lt l.policy c more
          rw [ahead] at enough
          cases found : Piece.read l.policy c more with
          | gap span rest =>
              have left : (l.pass span rest).rest.length < turns := by
                rw [found] at shorter
                show rest.length < turns
                simp only [Piece.rest] at shorter
                omega
              simp only [seekWithin, ahead, found, seek_of_gap ahead found, ih left]
          | token reading => simp only [seekWithin, ahead, found, seek_of_token ahead found]

/-! ## A call moves the lexer, or it has come to the end -/

theorem step_of_empty {l : Lexer} (empty : l.rest = []) :
    l.step = ⟨.ending l.location, [], [], l⟩ := by
  rw [step, seek_of_nil empty]

theorem afterCalls_of_empty {l : Lexer} (empty : l.rest = []) (n : Nat) : l.afterCalls n = l := by
  induction n with
  | zero => rfl
  | succ n ih =>
      show l.step.next.afterCalls n = l
      rw [step_of_empty empty]
      exact ih

/-- A step finds a token and stands further on, or it has consumed all text and found none. -/
theorem step_moves_or_ends (l : Lexer) :
    l.step.token.isEnding = false ∧ l.offset < l.step.next.offset ∨
      l.step.token = .ending (l.location.after l.rest) ∧ l.step.next = l.pass l.rest [] := by
  obtain ⟨chunks, row, ahead⟩ := Chunk.exists_row l.policy l.rest
  rcases Chunk.gaps_or_token chunks with ⟨gaps, rfl⟩ | ⟨gaps, span, outcome, later, rfl⟩
  · rw [Chunk.text_map_gap] at ahead
    rw [step_of_gaps row (by rw [Chunk.text_map_gap, ahead]), ahead]
    exact .inr ⟨rfl, rfl⟩
  · obtain ⟨token, -, next⟩ := step_of_token row ahead.symm
    have consumed : 0 < span.length :=
      List.length_pos_iff.2 (Chunk.row_append.1 row).2.1.span_ne_nil
    refine .inl ⟨by rw [token]; exact isEnding_tokenOf _ _, ?_⟩
    rw [next]
    simp only [pass, List.length_append]
    omega

/-- What a call of `nextToken` does to a lexer that stands in the text. -/
structure Progress (text : List Char) (l : Lexer) : Prop where
  /-- The loop of the call ends. -/
  returns : l.seekWithin (l.rest.length + 1) = some l.seek
  /-- A token moves the lexer. -/
  moves : l.nextToken.1.isEnding = false → l.offset < l.nextToken.2.offset
  /-- The end token stands behind all text. -/
  ends : l.nextToken.1.isEnding = true →
    l.nextToken.1 = .ending (.behind text) ∧ l.nextToken.2.offset = text.length ∧
      l.nextToken.2.rest = []
  /-- Behind the end token no call moves the lexer, and each finds the same end token. -/
  stays : l.nextToken.1.isEnding = true → ∀ n,
    l.nextToken.2.afterCalls n = l.nextToken.2 ∧
      (l.nextToken.2.afterCalls n).nextToken.1 = l.nextToken.1

theorem StandsIn.progress {text : List Char} {l : Lexer} (stands : l.StandsIn text) :
    l.Progress text := by
  have returns := @seekWithin_of_lt l _ (Nat.lt_succ_self _)
  rcases l.step_moves_or_ends with ⟨more, further⟩ | ⟨token, next⟩
  · have other : l.nextToken.1.isEnding ≠ true := by
      rw [nextToken, more]
      decide
    exact ⟨returns, fun _ => further, fun ending => absurd ending other,
      fun ending => absurd ending other⟩
  · have empty : l.step.next.rest = [] := by
      rw [next]
      rfl
    have reached : l.step.next.offset = text.length := by
      rw [next, ← stands.offset]
      rfl
    have located : l.step.next.location = l.location.after l.rest := by
      rw [next]
      rfl
    refine ⟨returns, fun more => ?_, fun _ => ⟨?_, reached, empty⟩, fun _ n => ?_⟩
    · rw [nextToken, token] at more
      cases more
    · rw [← stands.location]
      exact token
    · have stays : l.step.next.afterCalls n = l.step.next := afterCalls_of_empty empty n
      refine ⟨stays, ?_⟩
      show (l.step.next.afterCalls n).step.token = l.step.token
      rw [stays, step_of_empty empty, token, located]

/-! ## The iterator hands out the stream -/

/-- The lexer behind so many calls of the iterator. -/
def afterItems (l : Lexer) : Nat → Lexer
  | 0 => l
  | n + 1 => l.next?.2.afterItems n

theorem afterItems_of_exhausted {l : Lexer} (done : l.exhausted = true) (n : Nat) :
    l.afterItems n = l := by
  induction n with
  | zero => rfl
  | succ n ih =>
      have same : l.next?.2 = l := by simp [next?, done]
      rw [afterItems, same, ih]

theorem step_exhausted (l : Lexer) : l.step.next.exhausted = l.exhausted := by
  obtain ⟨consumed, -, passed⟩ := step_passes l
  rw [passed]
  rfl

/-- Behind its first items the iterator hands out the tokens of the remaining steps, one by one,
and behind the last of them nothing. -/
theorem item_eq {l : Lexer} (fresh : l.exhausted = false) (n : Nat) :
    (l.afterItems n).next?.1 = (l.steps.map Step.token)[n]? := by
  have item : l.next? =
      (some l.step.token, { l.step.next with exhausted := l.step.token.isEnding }) := by
    simp [next?, fresh]
  cases more : l.step.token.isEnding with
  | true =>
      rw [steps_of_ending more]
      cases n with
      | zero => simp [afterItems, item]
      | succ n =>
          rw [afterItems, item, more, afterItems_of_exhausted rfl]
          rfl
  | false =>
      -- a step keeps the flag, so a fresh lexer is left as the step leaves it
      have same : { l.step.next with exhausted := false } = l.step.next := by
        rw [← fresh, ← step_exhausted l]
      rw [steps_of_more more]
      cases n with
      | zero => simp [afterItems, item]
      | succ n =>
          rw [afterItems, item, more, same]
          exact item_eq ((step_exhausted l).trans fresh) n
termination_by n

end Lexer

/-! ## The stream -/

namespace Chunk

theorem isEnding_of_mem_reports {location : Location} {chunks : List Chunk} :
    ∀ t ∈ reports location chunks, t.isEnding = false := by
  induction chunks generalizing location with
  | nil => simp [reports]
  | cons chunk chunks ih =>
      cases chunk with
      | gap span => exact ih
      | token span outcome =>
          exact List.forall_mem_cons.2 ⟨Lexer.isEnding_tokenOf outcome location, ih⟩

/-- There is at least one character to each token. -/
theorem Row.length_reports_le {policy : Policy} {chunks : List Chunk} {ahead : Option Char}
    (row : Row policy chunks ahead) (location : Location) :
    (reports location chunks).length ≤ (text chunks).length := by
  induction chunks generalizing location with
  | nil => exact Nat.le_refl 0
  | cons chunk chunks ih =>
      obtain ⟨stands, others⟩ := row
      rw [text_cons, List.length_append]
      cases chunk with
      | gap span => exact Nat.le_trans (ih others _) (Nat.le_add_left _ _)
      | token span outcome =>
          have nonempty : 0 < span.length := List.length_pos_iff.2 stands.span_ne_nil
          have fewer := ih others (location.after span)
          show (reports (location.after span) chunks).length + 1 ≤
            span.length + (text chunks).length
          omega

end Chunk

/-- Whatever was asked of a lexer before, a call returns, and either a token moves it or it has
reached the end of the text for good.  The stream is at most one token longer than the text and
has one end token, its last; the iterator hands it out and then nothing. -/
theorem tokenize_progress (policy : Policy) (text : List Char) :
    (∀ calls, ((Session.ofText policy text).after calls).current.Progress text) ∧
      (∃ tokens, tokenize policy text = tokens ++ [.ending (.behind text)] ∧
        (∀ t ∈ tokens, t.isEnding = false) ∧ tokens.length ≤ text.length) ∧
      ∀ n, ((Lexer.ofText policy text).afterItems n).next?.1 = (tokenize policy text)[n]? := by
  refine ⟨fun calls => (Session.standing policy text calls).current.progress, ?_,
    Lexer.item_eq rfl⟩
  obtain ⟨chunks, row, rfl⟩ := Chunk.exists_row policy text
  refine ⟨Chunk.reports .start chunks, ?_, Chunk.isEnding_of_mem_reports,
    row.length_reports_le .start⟩
  rw [tokenize_of_row row, Chunk.tokens_eq_reports, Location.start_after]

end TeamScript
