/-
# TeamScript.Proofs.History -- what a lexer answers depends on what it has answered

`Lexer.nextToken` and the iterator draw from one stream, that of the text with its
end token repeated for ever (`endless`).  What a lexer has answered so far tells
where it stands in that stream: each token it gave has moved it one place further.
The iterator has ended if the lexer has handed out an end token as an iterator;
one that `nextToken` gave does not count.

Saving copies a lexer together with what it has answered, and loading brings both
back.  So a session has two histories, and each of its lexers follows its own
(`Lexer.Drew`, kept by every call: `Drew.perform`).
-/
import TeamScript.Proofs.Progress

namespace TeamScript

set_option autoImplicit false

/-- The stream of a text, continued by its end token for ever. -/
def endless (policy : Policy) (text : List Char) (n : Nat) : Token :=
  (tokenize policy text).getD n ((tokenize policy text).getLastD (.ending .start))

/-! ## Histories -/

namespace Session

/-- The tokens that a reply holds. -/
def Reply.drawn : Reply → List Token
  | .token t => [t]
  | .item t? => t?.toList
  | .items ts => ts
  | _ => []

/-- The tokens that the iterator handed out with a reply. -/
def Reply.handed : Reply → List Token
  | .item t? => t?.toList
  | .items ts => ts
  | _ => []

/-- All tokens that a lexer gave with its replies, whichever way it was asked for them. -/
def drawn (given : List Reply) : List Token := given.flatMap Reply.drawn

/-- The iterator has handed out an end token. -/
def ended (given : List Reply) : Bool := (given.flatMap Reply.handed).any Token.isEnding

theorem ended_append (given : List Reply) (reply : Reply) :
    ended (given ++ [reply]) = (ended given || reply.handed.any Token.isEnding) := by
  simp [ended]

/-- The replies that the current lexer has given itself, and those of the saved one. -/
structure History where
  current : List Reply
  saved : List Reply

/-- A copy of a lexer takes the history of the lexer with it. -/
def History.record (h : History) : Call → Reply → History
  | .save, _ => { h with saved := h.current }
  | .load, _ => { h with current := h.saved }
  | _, reply => { h with current := h.current ++ [reply] }

/-- The histories behind a row of calls. -/
def historyFrom (h : History) (s : Session) : List Call → History
  | [] => h
  | call :: calls =>
      let (reply, next) := s.perform call
      historyFrom (h.record call reply) next calls

end Session

namespace Lexer

open Chunk Session

/-! ## The stream call by call -/

/-- At the end of its text a lexer answers with the end token, and before it with the tokens of
its steps. -/
theorem token_afterCalls (l : Lexer) (n : Nat) :
    (l.afterCalls n).step.token =
      (l.steps.map Step.token).getD n (.ending (l.location.after l.rest)) := by
  induction n generalizing l with
  | zero =>
      cases more : l.step.token.isEnding with
      | true => simp [afterCalls, steps_of_ending more]
      | false => simp [afterCalls, steps_of_more more]
  | succ n ih =>
      show (l.step.next.afterCalls n).step.token = _
      rcases l.step_moves_or_ends with ⟨more, -⟩ | ⟨token, next⟩
      · obtain ⟨consumed, front, passed⟩ := step_passes l
        have behind : l.step.next.location.after l.step.next.rest = l.location.after l.rest := by
          rw [front, Location.after_append, passed]
          rfl
        rw [ih, steps_of_more more, behind]
        rfl
      · have ending : l.step.token.isEnding = true := by rw [token]; rfl
        have empty : (l.pass l.rest []).rest = [] := rfl
        rw [steps_of_ending ending, next, afterCalls_of_empty empty, step_of_empty empty]
        rfl

theorem token_afterCalls_ofText (policy : Policy) (text : List Char) (n : Nat) :
    ((ofText policy text).afterCalls n).step.token = endless policy text n := by
  have last : (tokenize policy text).getLastD (.ending .start) = .ending (.behind text) := by
    obtain ⟨chunks, row, rfl⟩ := exists_row policy text
    rw [tokenize_of_row row, tokens_eq_reports, Location.start_after]
    simp
  rw [token_afterCalls, endless, last, ← Location.start_after]
  rfl

theorem afterCalls_add (l : Lexer) (m n : Nat) :
    l.afterCalls (m + n) = (l.afterCalls m).afterCalls n := by
  induction m generalizing l with
  | zero => rw [Nat.zero_add]; rfl
  | succ m ih =>
      rw [Nat.add_right_comm]
      exact ih l.step.next

/-! ## Whether the iterator has ended does not matter to `nextToken` -/

/-- The lexer, its iterator exhausted or not. -/
def exhausting (l : Lexer) (exhausted : Bool) : Lexer := { l with exhausted := exhausted }

theorem step_exhausting (l : Lexer) (exhausted : Bool) :
    (l.exhausting exhausted).step.token = l.step.token ∧
      (l.exhausting exhausted).step.next = l.step.next.exhausting exhausted := by
  obtain ⟨chunks, row, ahead⟩ := exists_row l.policy l.rest
  rcases gaps_or_token chunks with ⟨gaps, rfl⟩ | ⟨gaps, span, outcome, later, rfl⟩
  · rw [step_of_gaps (l := l) row ahead.symm,
      step_of_gaps (l := l.exhausting exhausted) row ahead.symm]
    exact ⟨rfl, rfl⟩
  · obtain ⟨token, -, next⟩ := step_of_token (l := l) row ahead.symm
    obtain ⟨token', -, next'⟩ := step_of_token (l := l.exhausting exhausted) row ahead.symm
    rw [token, token', next, next']
    exact ⟨rfl, rfl⟩

theorem afterCalls_exhausting (l : Lexer) (exhausted : Bool) (n : Nat) :
    (l.exhausting exhausted).afterCalls n = (l.afterCalls n).exhausting exhausted := by
  induction n generalizing l with
  | zero => rfl
  | succ n ih =>
      show (l.exhausting exhausted).step.next.afterCalls n = _
      rw [(step_exhausting l exhausted).2, ih]
      rfl

theorem next?_of_fresh {l : Lexer} (fresh : l.exhausted = false) :
    l.next? = (some l.step.token, l.step.next.exhausting l.step.token.isEnding) := by
  simp [Lexer.next?, fresh, exhausting]

/-! ## All steps are as many calls -/

theorem steps_of_calls (l : Lexer) :
    l.steps.map Step.token =
        (List.range l.steps.length).map (fun n => (l.afterCalls n).step.token) ∧
      (l.steps.getLast?.map Step.next).getD l = l.afterCalls l.steps.length ∧
      (l.steps.map Step.token).any Token.isEnding = true := by
  cases more : l.step.token.isEnding with
  | true =>
      rw [steps_of_ending more]
      exact ⟨rfl, rfl, by simpa using more⟩
  | false =>
      obtain ⟨tokens, last, ending⟩ := steps_of_calls l.step.next
      rw [steps_of_more more]
      refine ⟨?_, ?_, ?_⟩
      · rw [List.map_cons, tokens, List.length_cons, List.range_succ_eq_map, List.map_cons,
          List.map_map]
        rfl
      · rw [List.length_cons]
        show _ = l.step.next.afterCalls l.step.next.steps.length
        rw [← last, List.getLast?_cons]
        cases l.step.next.steps.getLast? <;> rfl
      · rw [List.map_cons, List.any_cons, ending, Bool.or_true]
termination_by l.rest.length
decreasing_by exact step_rest_length_lt l more

/-! ## A lexer and its history -/

/-- The lexer has given these replies: it has drawn the first tokens of the stream, each of them
once, and stands behind them, and its iterator has ended if it has handed out an end token. -/
structure Drew (policy : Policy) (text : List Char) (given : List Reply) (l : Lexer) : Prop where
  drawn : drawn given = (List.range (drawn given).length).map (endless policy text)
  place :
    l = ((ofText policy text).afterCalls (Session.drawn given).length).exhausting (ended given)

variable {policy : Policy} {text : List Char} {given : List Reply} {l : Lexer}

theorem drew_ofText (policy : Policy) (text : List Char) :
    Drew policy text [] (ofText policy text) :=
  ⟨rfl, rfl⟩

theorem Drew.exhausted (drew : Drew policy text given l) : l.exhausted = ended given := by
  rw [drew.place]
  rfl

/-- Further calls answer with the stream from where the lexer stands. -/
theorem Drew.token_afterCalls (drew : Drew policy text given l) (n : Nat) :
    (l.afterCalls n).step.token = endless policy text ((Session.drawn given).length + n) := by
  rw [drew.place, afterCalls_exhausting, (step_exhausting _ _).1, ← afterCalls_add,
    token_afterCalls_ofText]

/-- A reply that holds the next tokens of the stream moves the lexer as many calls further. -/
theorem Drew.draw (drew : Drew policy text given l) {reply : Reply} {n : Nat}
    (next : reply.drawn = (List.range n).map fun i => (l.afterCalls i).step.token)
    {after : Lexer} (moved : after = (l.afterCalls n).exhausting (ended (given ++ [reply]))) :
    Drew policy text (given ++ [reply]) after := by
  have all : Session.drawn (given ++ [reply]) = Session.drawn given ++ reply.drawn := by
    simp [Session.drawn]
  have count : reply.drawn.length = n := by simp [next]
  have length : (Session.drawn (given ++ [reply])).length = (Session.drawn given).length + n := by
    rw [all, List.length_append, count]
  constructor
  · rw [length, all, List.range_add, List.map_append, ← drew.drawn, next, List.map_map]
    congr 2
    funext i
    exact drew.token_afterCalls i
  · rw [moved, length, afterCalls_add]
    conv => lhs; rw [drew.place, afterCalls_exhausting]
    rfl

theorem Drew.nextToken (drew : Drew policy text given l) :
    Drew policy text (given ++ [.token l.nextToken.1]) l.nextToken.2 := by
  refine drew.draw (n := 1) rfl ?_
  have same : ended (given ++ [.token l.nextToken.1]) = l.step.next.exhausted := by
    rw [ended_append, ← drew.exhausted, step_exhausted]
    exact Bool.or_false _
  rw [same]
  rfl

theorem Drew.next? (drew : Drew policy text given l) :
    Drew policy text (given ++ [.item l.next?.1]) l.next?.2 := by
  cases done : l.exhausted with
  | true =>
      have item : l.next? = (none, l) := by simp [Lexer.next?, done]
      rw [item]
      refine drew.draw (n := 0) rfl ?_
      rw [ended_append, ← drew.exhausted]
      exact congrArg l.exhausting (Bool.or_false _).symm
  | false =>
      rw [next?_of_fresh done]
      refine drew.draw (n := 1) rfl ?_
      rw [ended_append, ← drew.exhausted, done, Bool.false_or]
      exact congrArg l.step.next.exhausting (Bool.or_false _).symm

theorem Drew.collect (drew : Drew policy text given l) :
    Drew policy text (given ++ [.items l.collect.1]) l.collect.2 := by
  cases done : l.exhausted with
  | true =>
      have items : l.collect = ([], l) := by simp [Lexer.collect, done]
      rw [items]
      refine drew.draw (n := 0) rfl ?_
      rw [ended_append, ← drew.exhausted]
      exact congrArg l.exhausting (Bool.or_false _).symm
  | false =>
      obtain ⟨tokens, last, ending⟩ := steps_of_calls l
      have items : l.collect =
          (l.steps.map Step.token, (l.afterCalls l.steps.length).exhausting true) := by
        rw [← last]
        simp [Lexer.collect, done, exhausting]
      rw [items]
      have drawn : (Reply.items (l.steps.map Step.token)).drawn =
          (List.range l.steps.length).map fun i => (l.afterCalls i).step.token := tokens
      refine drew.draw drawn ?_
      rw [ended_append, ← drew.exhausted, done, Bool.false_or, Reply.handed, ending]

theorem Drew.location (drew : Drew policy text given l) :
    Drew policy text (given ++ [.location l.location]) l := by
  refine drew.draw (n := 0) rfl ?_
  rw [ended_append, ← drew.exhausted]
  exact congrArg l.exhausting (Bool.or_false _).symm

/-! ## What the history tells -/

end Lexer

namespace Session

/-- Both lexers of the session follow their histories. -/
structure Drew (policy : Policy) (text : List Char) (h : History) (s : Session) : Prop where
  current : s.current.Drew policy text h.current
  saved : s.saved.Drew policy text h.saved

variable {policy : Policy} {text : List Char} {h : History} {s : Session}

theorem Drew.perform (drew : Drew policy text h s) (call : Call) :
    Drew policy text (h.record call (s.perform call).1) (s.perform call).2 := by
  obtain ⟨current, saved⟩ := drew
  cases call with
  | nextToken => exact ⟨current.nextToken, saved⟩
  | next => exact ⟨current.next?, saved⟩
  | collect => exact ⟨current.collect, saved⟩
  | location => exact ⟨current.location, saved⟩
  | save => exact ⟨current, current⟩
  | load => exact ⟨saved, saved⟩

theorem Drew.after (drew : Drew policy text h s) (calls : List Call) :
    Drew policy text (historyFrom h s calls) (s.after calls) := by
  induction calls generalizing h s with
  | nil => exact drew
  | cons call calls ih => exact ih (drew.perform call)

end Session

end TeamScript
