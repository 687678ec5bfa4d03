/-
# TeamScript.Proofs.Machine.Counters -- 64 bits are enough for the counters

A machine that is called again and again answers as a lexer does and stands where the
lexer stands (`Machine.leads_calls`), and in all states on the way its counters are
in range.  Each call takes at least one step, so these are all states there are
(`Machine.inRange_after`).

Counters in range leave room for one more in 64 bits, as long as the text has fewer
than 2^63 characters (`InRange.roomy`).  So the machine that counts in 64 bits goes
through the same states as the one that counts without bound, no increment wraps
around, and nothing ever saturates (`counters_exact`).
-/
import Mathlib.Algebra.Group.Nat.Defs
import TeamScript.Proofs.History
import TeamScript.Proofs.Machine.Search

namespace TeamScript

set_option autoImplicit false

open Counting (unbounded word word_next word_more word_less)

variable {α : Type} {policy : Policy} {text : List Char}

/-! ## Calls -/

theorem Lexer.answers_succ (l : Lexer) (n : Nat) :
    l.answers (n + 1) = l.answers n ++ [(l.afterCalls n).step.token] := by
  induction n generalizing l with
  | zero => rfl
  | succ n ih =>
      show l.step.token :: l.step.next.answers (n + 1) = _
      rw [ih]
      rfl

namespace Machine

variable {m : Machine Nat} {l : Lexer}

/-- The machine waits for the next call where the lexer stands.  Whether the lexer's iterator is
exhausted is nothing that the machine knows. -/
structure Awaits (m : Machine Nat) (l : Lexer) : Prop where
  todo : m.todo = Walk.nextToken m.policy
  lexer : m.hand.cursor.lexer m.policy = l.exhausting false

/-- A call answers with the lexer's next token and leaves the machine where the lexer then is. -/
theorem leads_call (sound : m.hand.Sound) (awaits : m.Awaits l) :
    ∃ n m', m.after unbounded (n + 1) = m' ∧ (∀ j ≤ n, (m.after unbounded j).InRange) ∧
      m'.hand.Sound ∧ m'.given = m.given ++ [l.step.token] ∧ m'.Awaits l.step.next := by
  obtain ⟨policy, h, given, todo⟩ := m
  obtain ⟨todo_, lexer⟩ := awaits
  dsimp only at sound todo_ lexer ⊢
  subst todo_
  obtain ⟨s', takes, there⟩ := Walk.nextToken_finds policy h.stance
  obtain ⟨h', goes, sound', same⟩ := takes h sound rfl
  have here : h.stance.cursor.lexer policy = l.exhausting false := lexer
  obtain ⟨token, next⟩ := Lexer.step_exhausting l false
  rw [here, token] at goes
  rw [here, next, ← same] at there
  obtain ⟨n, reached, inRange⟩ := goes policy given .done
  let returned : Machine Nat := ⟨policy, h', given, .done l.step.token⟩
  have returnedInRange : returned.InRange :=
    sound'.inRange (fun _ _ _ other => by cases other) (fun _ _ _ other => by cases other)
  refine ⟨n, returned.step unbounded, ?_, fun j early => ?_, sound', rfl, rfl, there⟩
  · rw [after_succ]
    exact congrArg (step unbounded) reached
  · rcases Nat.lt_or_eq_of_le early with before | rfl
    · exact inRange j before
    · exact reached ▸ returnedInRange

theorem sound_ofText (text : List Char) : (Hand.ofText unbounded text).Sound :=
  ⟨Cursor.sound_ofText text, Cursor.sound_ofText text, Nat.zero_le _, Nat.zero_le _⟩

/-- Behind as many calls, the machine has given the lexer's answers and stands where it does. -/
theorem leads_calls (policy : Policy) (text : List Char) (calls : Nat) :
    ∃ n, calls ≤ n ∧ (∀ j < n, ((ofText unbounded policy text).after unbounded j).InRange) ∧
      let m := (ofText unbounded policy text).after unbounded n
      m.hand.Sound ∧ m.given = (Lexer.ofText policy text).answers calls ∧
        m.Awaits ((Lexer.ofText policy text).afterCalls calls) := by
  induction calls with
  | zero =>
      exact ⟨0, Nat.le_refl 0, fun _ less => absurd less (Nat.not_lt_zero _), sound_ofText text, rfl,
        rfl, rfl⟩
  | succ calls ih =>
      obtain ⟨n, enough, inRange, sound, given, awaits⟩ := ih
      obtain ⟨k, _, rfl, inRange', sound', given', awaits'⟩ := leads_call sound awaits
      rw [← after_add] at sound' given' awaits'
      refine ⟨n + (k + 1), by omega, fun j less => ?_, sound', ?_, ?_⟩
      · by_cases early : j < n
        · exact inRange j early
        · obtain ⟨i, rfl⟩ := Nat.exists_eq_add_of_le (Nat.le_of_not_lt early)
          rw [after_add]
          exact inRange' i (by omega)
      · rw [given', given, Lexer.answers_succ]
      · rw [Lexer.afterCalls_add]
        exact awaits'

/-- The counters are in range in every state, for no number of steps is beyond all calls. -/
theorem inRange_after (policy : Policy) (text : List Char) (n : Nat) :
    ((ofText unbounded policy text).after unbounded n).InRange := by
  obtain ⟨steps, enough, inRange, -⟩ := leads_calls policy text (n + 1)
  exact inRange n (by omega)

end Machine

/-! ## The text stays -/

theorem Instruction.perform_buffer {ν : Type} (k : Counting ν) (h : Hand ν) (i : Instruction α) :
    (i.perform k h).2.buffer = h.buffer := by
  cases i with
  | advance =>
      rw [perform]
      split <;> rfl
  | _ => rfl

namespace Machine

theorem after_buffer {ν : Type} (k : Counting ν) (m : Machine ν) (n : Nat) :
    (m.after k n).hand.buffer = m.hand.buffer := by
  induction n with
  | zero => rfl
  | succ n ih =>
      rw [after_succ, ← ih]
      generalize m.after k n = m
      obtain ⟨policy, hand, given, todo⟩ := m
      cases todo with
      | act i next => exact i.perform_buffer k hand
      | _ => rfl

/-! ## Room in 64 bits -/

theorem InRange.roomy {m : Machine Nat} (inRange : m.InRange)
    (short : m.hand.buffer.length < 2 ^ 63) : m.hand.Roomy := by
  obtain ⟨line, column, location, offset, eaten, depth, -, -⟩ := inRange
  have size : UInt64.size = 2 ^ 64 := rfl
  constructor <;> omega

end Machine

/-- The instruction counts by one, without wrapping around and without coming to a bound. -/
def Instruction.Exact (h : Hand UInt64) : Instruction α → Prop
  | advance =>
      (word.next h.spot.offset).toNat = h.spot.offset.toNat + 1 ∧
        (word.next h.spot.line).toNat = h.spot.line.toNat + 1 ∧
        (word.next h.spot.column).toNat = h.spot.column.toNat + 1
  | countEaten => (word.more h.eaten).toNat = h.eaten.toNat + 1
  | openComment => (word.more h.depth).toNat = h.depth.toNat + 1
  | closeComment => (word.less h.depth).toNat + 1 = h.depth.toNat
  | _ => True

theorem Instruction.exact_of_fits {h : Hand UInt64} (roomy : (h.numbers word).Roomy)
    {i : Instruction α} (fits : i.Fits (h.numbers word)) : i.Exact h := by
  obtain ⟨-, offset, line, column, eaten, depth⟩ := roomy
  cases i with
  | advance => exact ⟨word_next offset, word_next line, word_next column⟩
  | countEaten => exact word_more eaten
  | openComment => exact word_more depth
  | closeComment =>
      have some_ : 1 ≤ h.depth.toNat := fits.2.1
      show (word.less h.depth).toNat + 1 = h.depth.toNat
      rw [word_less, Nat.sub_add_cancel some_]
  | _ => trivial

namespace Machine

/-! ## The machine in 64 bits -/

theorem numbers_ofText (policy : Policy) (text : List Char) :
    (ofText word policy text).numbers word = ofText unbounded policy text := rfl

/-- What holds of the machine in 64 bits behind so many steps over a text. -/
structure Faithful (policy : Policy) (text : List Char) (n : Nat) (m : Machine UInt64) : Prop where
  buffer : m.hand.buffer = text
  /-- Its counters say what counters without bound say. -/
  numbers : m.numbers word = (ofText unbounded policy text).after unbounded n
  inRange : (m.numbers word).InRange
  exact : ∀ (β : Type) (i : Instruction β) next, m.todo = .act i next → i.Exact m.hand

/-- Over a text of fewer than 2^63 characters, the machine in 64 bits counts exactly and stays in
range in every state; it answers each call as a lexer does, and wherever a session has its lexers
it comes to stand. -/
theorem counters_exact (policy : Policy) {text : List Char} (short : text.length < 2 ^ 63) :
    (∀ n, Faithful policy text n ((ofText word policy text).after word n)) ∧
    (∀ calls, ∃ n, let m := ((ofText word policy text).after word n).numbers word
      m.given = (Lexer.ofText policy text).answers calls ∧
        m.Awaits ((Lexer.ofText policy text).afterCalls calls)) ∧
    ∀ calls, let s := (Session.ofText policy text).after calls
      (∃ n, (((ofText word policy text).after word n).numbers word).Awaits s.current) ∧
        ∃ n, (((ofText word policy text).after word n).numbers word).Awaits s.saved := by
  have roomy (n : Nat) : ((ofText unbounded policy text).after unbounded n).hand.Roomy := by
    apply (inRange_after policy text n).roomy
    rw [after_buffer]
    exact short
  have same (n : Nat) : ((ofText word policy text).after word n).numbers word =
      (ofText unbounded policy text).after unbounded n := by
    rw [numbers_after (m := ofText word policy text) (fun j _ => roomy j), numbers_ofText]
  have answered (calls : Nat) : ∃ n, let m := ((ofText word policy text).after word n).numbers word
      m.given = (Lexer.ofText policy text).answers calls ∧
        m.Awaits ((Lexer.ofText policy text).afterCalls calls) := by
    obtain ⟨n, -, -, -, given, awaits⟩ := leads_calls policy text calls
    exact ⟨n, by rw [same]; exact ⟨given, awaits⟩⟩
  have standing {given : List Session.Reply} {l : Lexer} (drew : l.Drew policy text given) :
      ∃ n, (((ofText word policy text).after word n).numbers word).Awaits l := by
    obtain ⟨n, -, todo, lexer⟩ := answered (Session.drawn given).length
    rw [drew.place]
    exact ⟨n, todo, lexer⟩
  refine ⟨fun n => ⟨?_, same n, ?_, ?_⟩, answered, fun calls => ?_⟩
  · exact after_buffer word _ n
  · rw [same]
    exact inRange_after policy text n
  · intro β i next todo
    have inRange := inRange_after policy text n
    have room := roomy n
    rw [← same] at inRange room
    exact Instruction.exact_of_fits room (inRange.performing β i next todo)
  · have fresh := Lexer.drew_ofText policy text
    have drew : (Session.ofText policy text).Drew policy text ⟨[], []⟩ := ⟨fresh, fresh⟩
    obtain ⟨current, saved⟩ := drew.after calls
    exact ⟨standing current, standing saved⟩

/-- Between the openers of two comments, both of which are left open. -/
theorem counters_exact_nested :
    let m := (ofText word .refuse "/*/*+".toList).after word 23
    "/*/*+".toList.length < 2 ^ 63 ∧ Faithful .refuse "/*/*+".toList 23 m ∧
      m.hand.depth = 2 ∧ m.hand.opened = 2 ∧ m.hand.spot.offset = 4 := by
  have short : "/*/*+".toList.length < 2 ^ 63 := by decide
  exact ⟨short, (counters_exact .refuse short).1 23, rfl, rfl, rfl⟩

end Machine

end TeamScript
