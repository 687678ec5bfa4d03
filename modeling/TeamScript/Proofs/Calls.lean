/-
# TeamScript.Proofs.Calls -- a lexer asked again and again

`afterCalls` is the lexer behind so many calls of `nextToken`, and `answers` are
the tokens those calls gave.  As long as none of them is the end token, the calls
use up the first chunks of the row in front of the lexer, one token a call
(`Chunk.Served`).

* `exists_served`: the calls have used up a front part of the row;
* `Served.calls`: that part alone tells the answers and where the lexer stands.

Whatever is asked of a lexer, it keeps standing in its text (`Lexer.StandsIn`);
`Session.standing` says so for every row of calls, the iterator's, saving and
loading among them.
-/
import TeamScript.Lexer.Session
import TeamScript.Proofs.Row

namespace TeamScript

set_option autoImplicit false

/-- The chunks that so many calls use up: each call a token and the gaps in front of it. -/
inductive Chunk.Served : Nat → List Chunk → Prop
  | start : Served 0 []
  | call {n : Nat} {gaps : List (List Char)} {span : List Char}
      {outcome : Except Fault Lexeme} {others : List Chunk} (served : Served n others) :
      Served (n + 1) (gaps.map .gap ++ .token span outcome :: others)

namespace Lexer

open Chunk

/-- The lexer behind so many calls of `nextToken`. -/
def afterCalls (l : Lexer) : Nat → Lexer
  | 0 => l
  | n + 1 => l.nextToken.2.afterCalls n

/-- The tokens that so many calls of `nextToken` answer with. -/
def answers (l : Lexer) : Nat → List Token
  | 0 => []
  | n + 1 => l.nextToken.1 :: l.nextToken.2.answers n

/-! ## Where a lexer stands after some calls -/

theorem afterCalls_passes (l : Lexer) (n : Nat) :
    ∃ consumed, l.rest = consumed ++ (l.afterCalls n).rest ∧
      l.afterCalls n = l.pass consumed (l.afterCalls n).rest := by
  induction n generalizing l with
  | zero => exact ⟨[], rfl, (pass_nil l).symm⟩
  | succ n ih =>
      obtain ⟨first, front, stepped⟩ := step_passes l
      obtain ⟨consumed, behind, called⟩ := ih l.step.next
      refine ⟨first ++ consumed, ?_, ?_⟩
      · rw [front, behind, List.append_assoc]
        rfl
      · show l.step.next.afterCalls n = l.pass _ (l.step.next.afterCalls n).rest
        generalize (l.step.next.afterCalls n).rest = rest at called
        rw [called, stepped, pass_pass]

end Lexer

/-! ## Calls along a row -/

namespace Chunk

open Lexer

variable {l : Lexer}

/-- Calls that do not reach the end of the text use up a front part of the row. -/
theorem exists_served {chunks : List Chunk} (row : Row l.policy chunks none)
    (ahead : l.rest = text chunks) {n : Nat} (more : ∀ t ∈ l.answers n, t.isEnding = false) :
    ∃ front later, chunks = front ++ later ∧ Served n front := by
  induction n generalizing l chunks with
  | zero => exact ⟨[], chunks, rfl, .start⟩
  | succ n ih =>
      obtain ⟨first, others⟩ := List.forall_mem_cons.1 more
      rcases gaps_or_token chunks with ⟨gaps, rfl⟩ | ⟨gaps, span, outcome, rest, rfl⟩
      · -- only the end token is left
        have stepped := step_of_gaps row ahead
        rw [nextToken, stepped] at first
        cases first
      · obtain ⟨restRow, behind⟩ := row_of_step row ahead
        obtain ⟨front, later, rfl, served⟩ := ih (l := l.step.next) restRow behind others
        exact ⟨gaps.map gap ++ .token span outcome :: front, later, by simp, .call served⟩

/-- Calls that use up a front part of the row answer with its tokens and leave the lexer
behind its text, whatever follows. -/
theorem Served.calls {n : Nat} {front later : List Chunk} (served : Served n front)
    (row : Row l.policy (front ++ later) none) (ahead : l.rest = text (front ++ later)) :
    l.answers n = reports l.location front ∧
      l.afterCalls n = l.pass (text front) (text later) := by
  induction served generalizing l with
  | start =>
      have same : l.rest = text later := ahead
      exact ⟨rfl, by rw [← same]; rfl⟩
  | @call n gaps span outcome others served ih =>
      rw [List.append_assoc, List.cons_append] at row ahead
      obtain ⟨token, -, next⟩ := step_of_token row ahead
      obtain ⟨restRow, behind⟩ := row_of_step row ahead
      obtain ⟨answered, called⟩ := ih restRow behind
      constructor
      · show l.step.token :: l.step.next.answers n = _
        rw [answered, token, next, reports_gaps, reports, ← Location.after_append]
        rfl
      · show l.step.next.afterCalls n = _
        rw [called, next, pass_pass, text_append, text_map_gap, text_cons, List.append_assoc]
        rfl

end Chunk

/-! ## Standing in a text -/

namespace Lexer

/-- The lexer stands behind a front part of the text and has the rest of it left. -/
def StandsIn (text : List Char) (l : Lexer) : Prop :=
  ∃ before, text = before ++ l.rest ∧ l.Behind before

variable {text : List Char} {l : Lexer}

theorem standsIn_ofText (policy : Policy) (text : List Char) :
    (ofText policy text).StandsIn text :=
  ⟨[], rfl, behind_ofText policy text⟩

theorem StandsIn.step (stands : l.StandsIn text) : l.step.next.StandsIn text := by
  obtain ⟨before, rfl, behind⟩ := stands
  obtain ⟨consumed, front, passed⟩ := step_passes l
  refine ⟨before ++ consumed, ?_, ?_⟩
  · rw [List.append_assoc, ← front]
  · rw [passed]
    exact behind.pass consumed _

/-- Whether the iterator is exhausted makes no difference to where the lexer stands. -/
theorem StandsIn.exhausting (stands : l.StandsIn text) (exhausted : Bool) :
    StandsIn text { l with exhausted := exhausted } := by
  obtain ⟨before, whole, behind⟩ := stands
  exact ⟨before, whole, behind.offset, behind.location⟩

/-- The lexer behind the last of all its steps still stands in the text. -/
theorem StandsIn.steps {l : Lexer} (stands : l.StandsIn text) {s : Step}
    (last : l.steps.getLast? = some s) : s.next.StandsIn text := by
  cases more : l.step.token.isEnding with
  | true =>
      rw [steps_of_ending more] at last
      cases last
      exact stands.step
  | false =>
      rw [steps_of_more more, List.getLast?_cons] at last
      cases later : l.step.next.steps.getLast? with
      | none =>
          rw [later] at last
          cases last
          exact stands.step
      | some final =>
          rw [later] at last
          cases last
          exact stands.step.steps later
termination_by l.rest.length
decreasing_by exact step_rest_length_lt l more

theorem StandsIn.location (stands : l.StandsIn text) :
    l.location.after l.rest = Location.behind text := by
  obtain ⟨before, rfl, behind⟩ := stands
  rw [behind.location, Location.behind_after]

theorem StandsIn.offset (stands : l.StandsIn text) : l.offset + l.rest.length = text.length := by
  obtain ⟨before, rfl, behind⟩ := stands
  rw [behind.offset, List.length_append]

end Lexer

namespace Session

/-- The session behind a row of calls. -/
def after (s : Session) : List Call → Session
  | [] => s
  | call :: calls => (s.perform call).2.after calls

/-- Both lexers of the session stand in the text. -/
structure StandsIn (text : List Char) (s : Session) : Prop where
  current : s.current.StandsIn text
  saved : s.saved.StandsIn text

theorem StandsIn.perform {text : List Char} {s : Session} (stands : s.StandsIn text)
    (call : Call) : (s.perform call).2.StandsIn text := by
  obtain ⟨current, saved⟩ := stands
  cases call with
  | nextToken => exact ⟨current.step, saved⟩
  | next =>
      refine ⟨?_, saved⟩
      show s.current.next?.2.StandsIn text
      unfold Lexer.next?
      split
      · exact current
      · exact current.step.exhausting _
  | collect =>
      refine ⟨?_, saved⟩
      show s.current.collect.2.StandsIn text
      unfold Lexer.collect
      split
      · exact current
      · cases last : s.current.steps.getLast? with
        | none => simpa [last] using current.exhausting true
        | some final => simpa [last] using (current.steps last).exhausting true
  | location => exact ⟨current, saved⟩
  | save => exact ⟨current, current⟩
  | load => exact ⟨saved, saved⟩

/-- Whatever is asked of a session, its lexers stand in the text. -/
theorem standing (policy : Policy) (text : List Char) (calls : List Call) :
    ((ofText policy text).after calls).StandsIn text := by
  have run : ∀ s : Session, s.StandsIn text → (s.after calls).StandsIn text := by
    induction calls with
    | nil => exact fun _ stands => stands
    | cons call calls ih => exact fun _ stands => ih _ (stands.perform call)
  exact run _ ⟨Lexer.standsIn_ofText policy text, Lexer.standsIn_ofText policy text⟩

end Session

end TeamScript
