/-
# TeamScript.Lexer -- the token stream, one token at a time

A lexer stands somewhere in a text.  `Lexer.step` moves it over the gaps before
the next token and over that token; at the end of the text it answers with the
end token and stays there, however often it is asked.

As an iterator (`Lexer.next?`) a lexer hands out the end token once and then
nothing.  Only the iterator's own end token exhausts it: one that `step` handed
out does not count.

`Lexer.steps` takes every step up to the one that answers with the end token.
It comes to an end because a step that finds another token leaves less text
(`step_rest_length_lt`).
-/
import TeamScript.Piece

namespace TeamScript

set_option autoImplicit false

structure Lexer where
  policy : Policy
  /-- The text not consumed yet. -/
  rest : List Char
  /-- How many characters are consumed. -/
  offset : Nat
  /-- The location of the first character of `rest`. -/
  location : Location
  /-- The iterator has handed out the end token. -/
  exhausted : Bool

/-- What one step finds: a token, the text it was read from, what the log says about it,
and the lexer behind it.  The end token was read from no text. -/
structure Step where
  token : Token
  span : List Char
  notices : List Notice
  next : Lexer

namespace Lexer

def ofText (policy : Policy) (text : List Char) : Lexer :=
  ⟨policy, text, 0, .start, false⟩

/-- The lexer behind `span`, where `rest` is still to come. -/
def pass (l : Lexer) (span rest : List Char) : Lexer :=
  { l with rest := rest, offset := l.offset + span.length, location := l.location.after span }

/-! ## Steps -/

/-- The lexer behind the gaps in front of it, and the reading of the token that
stands there; no reading at the end of the text. -/
def seek (l : Lexer) : Lexer × Option Reading :=
  match _ahead : l.rest with
  | [] => (l, none)
  | c :: more =>
      match _found : Piece.read l.policy c more with
      | .gap span rest => (l.pass span rest).seek
      | .token reading => (l, some reading)
termination_by l.rest.length
decreasing_by
  have shorter := Piece.read_rest_length_lt l.policy c more
  rw [_found] at shorter
  rw [_ahead]
  exact shorter

def step (l : Lexer) : Step :=
  match l.seek with
  | (here, none) => ⟨.ending here.location, [], [], here⟩
  | (here, some reading) =>
      ⟨reading.token here.location, reading.span, reading.notices,
        here.pass reading.span reading.rest⟩

theorem seek_of_nil {l : Lexer} (ahead : l.rest = []) : l.seek = (l, none) := by
  unfold seek
  split
  · rfl
  · rename_i other
    rw [ahead] at other
    cases other

theorem seek_of_gap {l : Lexer} {c : Char} {more span rest : List Char}
    (ahead : l.rest = c :: more) (found : Piece.read l.policy c more = .gap span rest) :
    l.seek = (l.pass span rest).seek := by
  rw [seek]
  split
  · rename_i other
    rw [ahead] at other
    cases other
  · rename_i other
    rw [ahead] at other
    cases other
    split <;> rename_i again <;> rw [found] at again <;> cases again
    rfl

theorem seek_of_token {l : Lexer} {c : Char} {more : List Char} {reading : Reading}
    (ahead : l.rest = c :: more) (found : Piece.read l.policy c more = .token reading) :
    l.seek = (l, some reading) := by
  rw [seek]
  split
  · rename_i other
    rw [ahead] at other
    cases other
  · rename_i other
    rw [ahead] at other
    cases other
    split <;> rename_i again <;> rw [found] at again <;> cases again
    rfl

/-- The reading that `seek` finds leaves less text than there was. -/
theorem seek_rest_length_lt (l : Lexer) {here : Lexer} {reading : Reading}
    (found : l.seek = (here, some reading)) : reading.rest.length < l.rest.length := by
  match ahead : l.rest with
  | [] =>
      rw [seek_of_nil ahead] at found
      cases found
  | c :: more =>
      have shorter := Piece.read_rest_length_lt l.policy c more
      match piece : Piece.read l.policy c more with
      | .gap span rest =>
          rw [piece] at shorter
          rw [seek_of_gap ahead piece] at found
          exact Nat.lt_trans (seek_rest_length_lt (l.pass span rest) found) shorter
      | .token other =>
          rw [piece] at shorter
          rw [seek_of_token ahead piece] at found
          cases found
          exact shorter
termination_by l.rest.length
decreasing_by
  have shorter := Piece.read_rest_length_lt l.policy c more
  rw [piece] at shorter
  rw [ahead]
  exact shorter

theorem step_rest_length_lt (l : Lexer) (more : l.step.token.isEnding = false) :
    l.step.next.rest.length < l.rest.length := by
  unfold step at more ⊢
  match found : l.seek with
  | (here, none) =>
      rw [found] at more
      cases more
  | (here, some reading) => exact seek_rest_length_lt l found

/-- All steps up to the one that finds the end token. -/
def steps (l : Lexer) : List Step :=
  let s := l.step
  if _more : s.token.isEnding = false then s :: s.next.steps else [s]
termination_by l.rest.length
decreasing_by exact step_rest_length_lt l _more

/-! ## Driving a lexer -/

/-- The next token, whether or not the iterator is exhausted. -/
def nextToken (l : Lexer) : Token × Lexer :=
  let s := l.step
  (s.token, s.next)

/-- The iterator's next token. -/
def next? (l : Lexer) : Option Token × Lexer :=
  if l.exhausted then (none, l)
  else
    let s := l.step
    (some s.token, { s.next with exhausted := s.token.isEnding })

/-- All the tokens that the iterator has left. -/
def collect (l : Lexer) : List Token × Lexer :=
  if l.exhausted then ([], l)
  else
    let steps := l.steps
    (steps.map Step.token,
      { (steps.getLast?.map Step.next).getD l with exhausted := true })

end Lexer

/-- The whole token stream of a text; its last token is the end token. -/
def tokenize (policy : Policy) (text : List Char) : List Token :=
  (Lexer.ofText policy text).steps.map Step.token

end TeamScript
