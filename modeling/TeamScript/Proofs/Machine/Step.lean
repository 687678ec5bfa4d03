/-
# TeamScript.Proofs.Machine.Step -- a machine that walks, and how it counts

A machine holds a text, its counters, the tokens it has given and the walk it has
still to do.  A step performs one instruction or enters one loop; behind a token it
begins the walk for the next one, so a machine never stops.

How the counters count is left open (`Counting`).  With numbers of any size they are
`Counting.unbounded`; in 64 bits (`Counting.word`) an unchecked increment wraps
around, and a saturating one stays where it is.  Where every counter leaves room for
one more, the two do the same: a step of the one, read as numbers, is a step of the
other (`Machine.numbers_step`).
-/
import TeamScript.Proofs.Machine.Walk

namespace TeamScript

set_option autoImplicit false

/-! ## Counting -/

/-- What can be done with a counter of type `ν`. -/
structure Counting (ν : Type) where
  value : ν → Nat
  zero : ν
  one : ν
  /-- One more, unchecked. -/
  next : ν → ν
  /-- One more, or the greatest counter. -/
  more : ν → ν
  /-- One less, or zero. -/
  less : ν → ν
  /-- So many more, if there is such a counter. -/
  plus? : ν → Nat → Option ν

namespace Counting

def unbounded : Counting Nat where
  value n := n
  zero := 0
  one := 1
  next n := n + 1
  more n := n + 1
  less n := n - 1
  plus? n k := some (n + k)

def word : Counting UInt64 where
  value n := n.toNat
  zero := 0
  one := 1
  next n := n + 1
  more n := if n.toNat + 1 < UInt64.size then n + 1 else n
  less n := if n = 0 then 0 else n - 1
  plus? n k := if n.toNat + k < UInt64.size then some (n + .ofNat k) else none

theorem word_next {n : UInt64} (room : n.toNat + 1 < UInt64.size) :
    (word.next n).toNat = n.toNat + 1 := by
  show (n + 1).toNat = n.toNat + 1
  rw [UInt64.toNat_add]
  exact Nat.mod_eq_of_lt room

theorem word_more {n : UInt64} (room : n.toNat + 1 < UInt64.size) :
    (word.more n).toNat = n.toNat + 1 := by
  rw [word]
  dsimp only
  rw [if_pos room]
  exact word_next room

theorem word_less (n : UInt64) : (word.less n).toNat = n.toNat - 1 := by
  rw [word]
  dsimp only
  split
  · rename_i zero
    rw [zero]
    rfl
  · rename_i some_
    have positive : n.toNat ≠ 0 := fun none_ => some_ (UInt64.toNat.inj none_)
    have one : (1 : UInt64) ≤ n := by
      rw [UInt64.le_iff_toNat_le]
      exact Nat.one_le_iff_ne_zero.2 positive
    rw [UInt64.toNat_sub_of_le _ _ one]
    rfl

theorem word_plus? {n : UInt64} {k : Nat} (fits : n.toNat + k < UInt64.size) :
    (n + .ofNat k).toNat = n.toNat + k := by
  have small : k < UInt64.size := by omega
  rw [UInt64.toNat_add, UInt64.toNat_ofNat', Nat.mod_eq_of_lt small]
  exact Nat.mod_eq_of_lt fits

end Counting

/-! ## What a machine holds -/

/-- An offset and the line and the column there. -/
structure Spot (ν : Type) where
  offset : ν
  line : ν
  column : ν

structure Hand (ν : Type) where
  buffer : List Char
  spot : Spot ν
  /-- The place that was kept. -/
  marked : Spot ν
  /-- How many characters are eaten. -/
  eaten : ν
  /-- The offset at which eating began.  It is there to be compared with; no instruction reads it. -/
  since : ν
  /-- How many comments are open. -/
  depth : ν
  /-- The offset behind the first opener, which no instruction reads either. -/
  opened : ν

structure Machine (ν : Type) where
  policy : Policy
  hand : Hand ν
  /-- The tokens of all calls that have returned. -/
  given : List Token
  /-- What is left of the call that has not. -/
  todo : Walk Token

variable {ν α : Type}

/-! ## Instructions and steps -/

namespace Spot

def start (k : Counting ν) : Spot ν := ⟨k.zero, k.one, k.one⟩

def next (k : Counting ν) (s : Spot ν) (c : Char) : Spot ν :=
  if c = '\n' then ⟨k.next s.offset, k.next s.line, k.one⟩
  else ⟨k.next s.offset, s.line, k.next s.column⟩

end Spot

def Hand.ofText (k : Counting ν) (text : List Char) : Hand ν :=
  ⟨text, .start k, .start k, k.zero, k.zero, k.zero, k.zero⟩

/-- The answer to an instruction, and what the machine holds behind it. -/
def Instruction.perform (k : Counting ν) (h : Hand ν) : Instruction α → α × Hand ν
  | atEnd => (decide (h.buffer.length ≤ k.value h.spot.offset), h)
  | peekAt n =>
      (((k.plus? h.spot.offset n).bind (h.buffer[k.value ·]?)).getD sentinel, h)
  | advance =>
      match h.buffer[k.value h.spot.offset]? with
      | none => (sentinel, h)
      | some c => (c, { h with spot := h.spot.next k c })
  | location => (⟨k.value h.spot.line, k.value h.spot.column⟩, h)
  | mark => ((), { h with marked := h.spot })
  | restore => ((), { h with spot := h.marked })
  | textSince =>
      (if k.value h.spot.offset ≤ h.buffer.length then
        (h.buffer.take (k.value h.spot.offset)).drop (k.value h.marked.offset) else [], h)
  | beginEating => ((), { h with eaten := k.zero, since := h.spot.offset })
  | countEaten => ((), { h with eaten := k.more h.eaten })
  | eaten => (k.value h.eaten, h)
  | beginComment => ((), { h with depth := k.one, opened := h.spot.offset })
  | openComment => ((), { h with depth := k.more h.depth })
  | closeComment =>
      (decide (k.value (k.less h.depth) = 0), { h with depth := k.less h.depth })

namespace Machine

/-- A machine that is about to be called for the first time. -/
def ofText (k : Counting ν) (policy : Policy) (text : List Char) : Machine ν :=
  ⟨policy, .ofText k text, [], Walk.nextToken policy⟩

def step (k : Counting ν) (m : Machine ν) : Machine ν :=
  match m.todo with
  | .done token => { m with given := m.given ++ [token], todo := Walk.nextToken m.policy }
  | .act i next =>
      { m with hand := (i.perform k m.hand).2, todo := next (i.perform k m.hand).1 }
  | .loop l next => { m with todo := l.body >>= next }

/-- The machine behind so many steps. -/
def after (k : Counting ν) (m : Machine ν) : Nat → Machine ν
  | 0 => m
  | n + 1 => (m.step k).after k n

theorem after_add (k : Counting ν) (m : Machine ν) (a b : Nat) :
    m.after k (a + b) = (m.after k a).after k b := by
  induction a generalizing m with
  | zero => rw [Nat.zero_add]; rfl
  | succ a ih =>
      rw [Nat.add_right_comm]
      exact ih (m.step k)

theorem after_succ (k : Counting ν) (m : Machine ν) (n : Nat) :
    m.after k (n + 1) = (m.after k n).step k :=
  after_add k m n 1

end Machine

/-! ## Read as numbers -/

def Spot.numbers (k : Counting ν) (s : Spot ν) : Spot Nat :=
  ⟨k.value s.offset, k.value s.line, k.value s.column⟩

def Hand.numbers (k : Counting ν) (h : Hand ν) : Hand Nat :=
  ⟨h.buffer, h.spot.numbers k, h.marked.numbers k, k.value h.eaten, k.value h.since,
    k.value h.depth, k.value h.opened⟩

/-- The machine with the numbers that its counters stand for. -/
def Machine.numbers (k : Counting ν) (m : Machine ν) : Machine Nat :=
  ⟨m.policy, m.hand.numbers k, m.given, m.todo⟩

/-- Every counter that an instruction increments leaves room for one more in 64 bits. -/
structure Hand.Roomy (h : Hand Nat) : Prop where
  buffer : h.buffer.length < UInt64.size
  offset : h.spot.offset + 1 < UInt64.size
  line : h.spot.line + 1 < UInt64.size
  column : h.spot.column + 1 < UInt64.size
  eaten : h.eaten + 1 < UInt64.size
  depth : h.depth + 1 < UInt64.size

open Counting

theorem Spot.numbers_next {s : Spot UInt64} (offset : s.offset.toNat + 1 < UInt64.size)
    (line : s.line.toNat + 1 < UInt64.size) (column : s.column.toNat + 1 < UInt64.size) (c : Char) :
    (s.next word c).numbers word = (s.numbers word).next unbounded c := by
  unfold Spot.next
  split
  · exact Spot.mk.injEq .. ▸ ⟨word_next offset, word_next line, rfl⟩
  · exact Spot.mk.injEq .. ▸ ⟨word_next offset, rfl, word_next column⟩

namespace Instruction

theorem advance_of_none {k : Counting ν} {h : Hand ν}
    (ahead : h.buffer[k.value h.spot.offset]? = none) :
    advance.perform k h = (sentinel, h) := by
  simp only [perform, ahead]

theorem advance_of_some {k : Counting ν} {h : Hand ν} {c : Char}
    (ahead : h.buffer[k.value h.spot.offset]? = some c) :
    advance.perform k h = (c, { h with spot := h.spot.next k c }) := by
  simp only [perform, ahead]

/-- With room for one more, an instruction does the same in 64 bits as with numbers of any size. -/
theorem perform_numbers {h : Hand UInt64} (roomy : (h.numbers word).Roomy) (i : Instruction α) :
    (i.perform word h).1 = (i.perform unbounded (h.numbers word)).1 ∧
      (i.perform word h).2.numbers word = (i.perform unbounded (h.numbers word)).2 := by
  obtain ⟨buffer, offset, line, column, eaten, depth⟩ := roomy
  cases i with
  | peekAt n =>
      refine ⟨congrArg (Option.getD · sentinel) ?_, rfl⟩
      show (if h.spot.offset.toNat + n < UInt64.size then some (h.spot.offset + .ofNat n) else none).bind
        (h.buffer[·.toNat]?) = h.buffer[h.spot.offset.toNat + n]?
      split
      · rename_i fits
        exact congrArg (h.buffer[·]?) (word_plus? fits)
      · rename_i beyond
        -- there is no such counter, and no such character either
        symm
        apply List.getElem?_eq_none
        exact Nat.le_trans (Nat.le_of_lt buffer) (Nat.le_of_not_lt beyond)
  | advance =>
      cases ahead : h.buffer[h.spot.offset.toNat]? with
      | none =>
          rw [advance_of_none (k := word) ahead, advance_of_none (k := unbounded) ahead]
          exact ⟨rfl, rfl⟩
      | some c =>
          rw [advance_of_some (k := word) ahead, advance_of_some (k := unbounded) ahead]
          have moved := Spot.numbers_next offset line column c
          exact ⟨rfl, congrArg (fun s => { h.numbers word with spot := s }) moved⟩
  | countEaten =>
      exact ⟨rfl, congrArg (fun n => { h.numbers word with eaten := n }) (word_more eaten)⟩
  | openComment =>
      exact ⟨rfl, congrArg (fun n => { h.numbers word with depth := n }) (word_more depth)⟩
  | closeComment =>
      have less := word_less h.depth
      exact ⟨congrArg (fun n => decide (n = 0)) less,
        congrArg (fun n => { h.numbers word with depth := n }) less⟩
  | _ => exact ⟨rfl, rfl⟩

end Instruction

namespace Machine

theorem numbers_step {m : Machine UInt64} (roomy : (m.numbers word).hand.Roomy) :
    (m.step word).numbers word = (m.numbers word).step unbounded := by
  obtain ⟨policy, hand, given, todo⟩ := m
  cases todo with
  | done token => rfl
  | act i next =>
      obtain ⟨answer, moved⟩ := Instruction.perform_numbers roomy i
      show Machine.mk policy ((i.perform word hand).2.numbers word) given
          (next (i.perform word hand).1) = _
      rw [answer, moved]
      rfl
  | loop l next => rfl

/-- As long as there is room in each state, the machine goes through the same states. -/
theorem numbers_after {m : Machine UInt64} {n : Nat}
    (roomy : ∀ j < n, ((m.numbers word).after unbounded j).hand.Roomy) :
    (m.after word n).numbers word = (m.numbers word).after unbounded n := by
  induction n with
  | zero => rfl
  | succ n ih =>
      have same := ih fun j less => roomy j (Nat.lt_succ_of_lt less)
      have room := roomy n (Nat.lt_succ_self n)
      rw [← same] at room
      rw [after_succ, after_succ, numbers_step room, same]

end Machine

end TeamScript
