/-
# TeamScript.Proofs.Machine.Run -- where a walk leads

A walk that comes to its end leads the machine from one hand to another and has an
answer (`Walk.Goes`), whatever is to be done behind it; and in every state on the
way the counters are in range (`Machine.InRange`).  Walks are composed by
`Goes.bind`, and a loop leads where its body does (`Goes.enter`).

Readers care for less than a hand holds: where the cursor stands, which place is
marked, how many comments are open.  `Walk.Takes` says of a walk what it does to
these (`Stance`), from any sound hand.  The lemmas about it speak of the text that is
left, as the readers do.
-/
import TeamScript.Proofs.Bearings
import TeamScript.Proofs.Lookahead
import TeamScript.Proofs.Machine.Step

namespace TeamScript

set_option autoImplicit false

open Counting (unbounded)

variable {α β : Type}

/-! ## Counters in range -/

/-- So many characters may have been eaten: they were consumed since eating began. -/
def Hand.MayHaveEaten (h : Hand Nat) (count : Nat) : Prop :=
  h.since ≤ h.spot.offset ∧ count ≤ h.spot.offset - h.since

/-- So many comments may be open: one, and others that took two characters each to open. -/
def Hand.MayHaveOpen (h : Hand Nat) (depth : Nat) : Prop :=
  h.opened ≤ h.spot.offset ∧ 1 ≤ depth ∧ depth ≤ 1 + (h.spot.offset - h.opened) / 2

/-- The counter of a loop is in range where the loop is entered. -/
def Loop.Fits (h : Hand Nat) : Loop α → Prop
  | eating _ => h.MayHaveEaten h.eaten
  | comment => h.MayHaveOpen h.depth
  | _ => True

/-- The counter of a loop is in range where it is read or changed, and still is when it has been
increased. -/
def Instruction.Fits (h : Hand Nat) : Instruction α → Prop
  | countEaten => h.MayHaveEaten (h.eaten + 1)
  | eaten => h.MayHaveEaten h.eaten
  | openComment => h.MayHaveOpen (h.depth + 1)
  | closeComment => h.MayHaveOpen h.depth
  | _ => True

/-- No counter goes beyond the text, and where a loop is entered or its counter is used, that
counter does not go beyond what the loop has consumed. -/
structure Machine.InRange (m : Machine Nat) : Prop where
  line : 1 ≤ m.hand.spot.line
  column : 1 ≤ m.hand.spot.column
  location : (m.hand.spot.line - 1) + (m.hand.spot.column - 1) ≤ m.hand.spot.offset
  offset : m.hand.spot.offset ≤ m.hand.buffer.length
  eaten : m.hand.eaten ≤ m.hand.buffer.length
  depth : m.hand.depth ≤ 1 + m.hand.buffer.length / 2
  performing : ∀ (β : Type) (i : Instruction β) next, m.todo = .act i next → i.Fits m.hand
  entering : ∀ (β : Type) (l : Loop β) next, m.todo = .loop l next → l.Fits m.hand

def Spot.place (s : Spot Nat) : Place := ⟨s.offset, s.line, s.column⟩

def Hand.cursor (h : Hand Nat) : Cursor := ⟨h.buffer, h.spot.place⟩

/-- What holds of a hand in every state. -/
structure Hand.Sound (h : Hand Nat) : Prop where
  cursor : h.cursor.Sound
  marked : (h.cursor.restore h.marked.place).Sound
  eaten : h.eaten ≤ h.buffer.length
  depth : h.depth ≤ 1 + h.buffer.length / 2

/-- Of the characters in front of a location each counts for one line or one column at most. -/
theorem Location.behind_le (text : List Char) :
    ((behind text).line - 1) + ((behind text).column - 1) ≤ text.length := by
  have counted (rev : List Char) :
      rev.count '\n' + (rev.takeWhile (· != '\n')).length ≤ rev.length := by
    induction rev with
    | nil => exact Nat.le_refl 0
    | cons c rev ih =>
        by_cases feed : c = '\n'
        · have fewer := List.count_le_length (a := '\n') (l := rev)
          simp [feed, fewer]
        · simp only [List.count_cons, beq_iff_eq, feed, if_false, List.takeWhile_cons, bne_iff_ne,
            ne_eq, not_false_eq_true, if_true, List.length_cons]
          omega
  have reversed := counted text.reverse
  rw [List.count_reverse, List.length_reverse] at reversed
  simp only [behind]
  omega

theorem Hand.Sound.inRange {m : Machine Nat} (sound : m.hand.Sound)
    (performing : ∀ (β : Type) (i : Instruction β) next, m.todo = .act i next → i.Fits m.hand)
    (entering : ∀ (β : Type) (l : Loop β) next, m.todo = .loop l next → l.Fits m.hand) :
    m.InRange := by
  have placed : (⟨m.hand.spot.line, m.hand.spot.column⟩ : Location) =
      .behind (m.hand.buffer.take m.hand.spot.offset) := sound.cursor.location
  have inside : m.hand.spot.offset ≤ m.hand.buffer.length := sound.cursor.offset
  have bound := Location.behind_le (m.hand.buffer.take m.hand.spot.offset)
  rw [← placed, List.length_take, Nat.min_eq_left inside] at bound
  obtain ⟨line, column⟩ := Location.mk.inj placed
  refine ⟨?_, ?_, bound, inside, sound.eaten, sound.depth, performing, entering⟩
  · rw [line]
    exact Nat.le_add_right 1 _
  · rw [column]
    exact Nat.le_add_right 1 _

/-! ## Leading from state to state -/

/-- The machine comes to the second state, and until then its counters are in range. -/
def Machine.Leads (m m' : Machine Nat) : Prop :=
  ∃ n, m.after unbounded n = m' ∧ ∀ j < n, (m.after unbounded j).InRange

namespace Machine

variable {m m' m'' : Machine Nat}

theorem leads_refl (m : Machine Nat) : m.Leads m :=
  ⟨0, rfl, fun _ less => absurd less (Nat.not_lt_zero _)⟩

theorem Leads.trans (first : m.Leads m') (second : m'.Leads m'') : m.Leads m'' := by
  obtain ⟨a, rfl, inRange⟩ := first
  obtain ⟨b, rfl, inRange'⟩ := second
  refine ⟨a + b, after_add _ m a b, fun j less => ?_⟩
  by_cases early : j < a
  · exact inRange j early
  · obtain ⟨k, rfl⟩ := Nat.exists_eq_add_of_le (Nat.le_of_not_lt early)
    rw [after_add]
    exact inRange' k (by omega)

theorem leads_step (inRange : m.InRange) : m.Leads (m.step unbounded) := by
  refine ⟨1, rfl, fun j less => ?_⟩
  obtain rfl : j = 0 := by omega
  exact inRange

end Machine

/-! ## Walks between hands -/

/-- The walk ends with the answer, and the machine then holds `h'`, whatever is to be done
behind the walk. -/
def Walk.Goes (w : Walk α) (h : Hand Nat) (a : α) (h' : Hand Nat) : Prop :=
  ∀ policy given (next : α → Walk Token),
    Machine.Leads ⟨policy, h, given, w >>= next⟩ ⟨policy, h', given, next a⟩

namespace Walk

section Goes

variable {w : Walk α} {f : α → Walk β} {a : α} {b : β} {h h' h'' : Hand Nat}

theorem goes_pure (a : α) (h : Hand Nat) : Goes (pure a) h a h :=
  fun _ _ _ => Machine.leads_refl _

theorem Goes.bind (first : w.Goes h a h') (second : (f a).Goes h' b h'') :
    (w >>= f).Goes h b h'' := by
  intro policy given next
  rw [bind_assoc]
  exact (first policy given _).trans (second policy given next)

theorem goes_tell {i : Instruction α} (sound : h.Sound) (fits : i.Fits h)
    (performed : i.perform unbounded h = (a, h')) : (tell i).Goes h a h' := by
  intro policy given next
  have inRange : Machine.InRange ⟨policy, h, given, tell i >>= next⟩ := by
    refine sound.inRange ?_ (fun _ _ _ other => by cases other)
    intro _ _ _ same
    cases same
    exact fits
  have led := Machine.leads_step inRange
  have stepped : Machine.step unbounded ⟨policy, h, given, tell i >>= next⟩ =
      ⟨policy, (i.perform unbounded h).2, given, next (i.perform unbounded h).1⟩ := rfl
  rwa [stepped, performed] at led

/-- A loop leads where its body does. -/
theorem Goes.enter {l : Loop α} (body : l.body.Goes h a h') (sound : h.Sound) (fits : l.Fits h) :
    (Walk.enter l).Goes h a h' := by
  intro policy given next
  have inRange : Machine.InRange ⟨policy, h, given, Walk.enter l >>= next⟩ := by
    refine sound.inRange (fun _ _ _ other => by cases other) ?_
    intro _ _ _ same
    cases same
    exact fits
  exact (Machine.leads_step inRange).trans (body policy given next)

end Goes

end Walk

/-! ## What a walk does to the place and the comments -/

structure Stance where
  cursor : Cursor
  marked : Place
  depth : Nat
  opened : Nat

namespace Stance

/-- The text that is left. -/
def rest (s : Stance) : List Char := s.cursor.rest

def pass (s : Stance) (span : List Char) : Stance := { s with cursor := s.cursor.pass span }

/-- The stance with the place of its cursor marked. -/
def marking (s : Stance) : Stance := { s with marked := s.cursor.place }

/-- The stance behind the first opener of a comment. -/
def beginning (s : Stance) : Stance := { s with depth := 1, opened := s.cursor.offset }

/-- So many comments may be open. -/
def Nests (s : Stance) (depth : Nat) : Prop :=
  s.opened ≤ s.cursor.offset ∧ 1 ≤ depth ∧ depth ≤ 1 + (s.cursor.offset - s.opened) / 2

section Nests

variable {s : Stance} {depth : Nat}

theorem Nests.pass (nests : s.Nests depth) (span : List Char) : (s.pass span).Nests depth := by
  obtain ⟨began, some_, few⟩ := nests
  have further : (s.pass span).cursor.offset = s.cursor.offset + span.length := rfl
  refine ⟨?_, some_, ?_⟩
  · rw [further]
    exact Nat.le_add_right_of_le began
  · rw [further]
    show depth ≤ 1 + (s.cursor.offset + span.length - s.opened) / 2
    omega

/-- With two characters more, one comment more. -/
theorem Nests.opening (nests : s.Nests depth) (c d : Char) : (s.pass [c, d]).Nests (depth + 1) := by
  obtain ⟨began, -, few⟩ := nests
  refine ⟨Nat.le_add_right_of_le began, Nat.le_add_left 1 _, ?_⟩
  show depth + 1 ≤ 1 + (s.cursor.offset + 2 - s.opened) / 2
  omega

theorem Nests.fewer (nests : s.Nests depth) {less : Nat} (some_ : 1 ≤ less) (le : less ≤ depth) :
    s.Nests less :=
  ⟨nests.1, some_, Nat.le_trans le nests.2.2⟩

end Nests

theorem pass_cursor (s : Stance) (span : List Char) :
    (s.pass span).cursor = s.cursor.pass span := rfl

@[simp] theorem pass_nil (s : Stance) : s.pass [] = s := rfl

@[simp] theorem pass_pass (s : Stance) (a b : List Char) : (s.pass a).pass b = s.pass (a ++ b) := by
  simp [pass, Cursor.pass_pass]

theorem rest_pass {s : Stance} {span more : List Char} (ahead : s.rest = span ++ more) :
    (s.pass span).rest = more :=
  Cursor.rest_pass ahead

/-- Behind one character there is the rest. -/
theorem rest_cons {s : Stance} {d : Char} {more : List Char} (ahead : s.rest = d :: more) :
    (s.pass [d]).rest = more :=
  @rest_pass s [d] more ahead

end Stance

def Hand.stance (h : Hand Nat) : Stance := ⟨h.cursor, h.marked.place, h.depth, h.opened⟩

/-- From any sound hand the walk takes the one stance to the other, with the answer. -/
def Walk.Takes (w : Walk α) (s : Stance) (a : α) (s' : Stance) : Prop :=
  ∀ h : Hand Nat, h.Sound → h.stance = s →
    ∃ h', w.Goes h a h' ∧ h'.Sound ∧ h'.stance = s'

namespace Walk

variable {w : Walk α} {f : α → Walk β} {a : α} {b : β} {s s' s'' : Stance}

theorem takes_pure (a : α) (s : Stance) : Takes (pure a) s a s :=
  fun h sound same => ⟨h, goes_pure a h, sound, same⟩

theorem Takes.bind (first : w.Takes s a s') (second : (f a).Takes s' b s'') :
    (w >>= f).Takes s b s'' := by
  intro h sound same
  obtain ⟨h', goes, sound', same'⟩ := first h sound same
  obtain ⟨h'', goes', sound'', same''⟩ := second h' sound' same'
  exact ⟨h'', goes.bind goes', sound'', same''⟩

theorem Takes.enter {l : Loop α} (body : l.body.Takes s a s')
    (fits : ∀ h : Hand Nat, h.stance = s → l.Fits h) : (Walk.enter l).Takes s a s' := by
  intro h sound same
  obtain ⟨h', goes, sound', same'⟩ := body h sound same
  exact ⟨h', goes.enter sound (fits h same), sound', same'⟩

/-! ### Instructions -/

theorem takes_tell {i : Instruction α} (fits : ∀ h : Hand Nat, h.stance = s → i.Fits h)
    (performed : ∀ h : Hand Nat, h.Sound → h.stance = s →
      ∃ h', i.perform unbounded h = (a, h') ∧ h'.Sound ∧ h'.stance = s') :
    (tell i).Takes s a s' := by
  intro h sound same
  obtain ⟨h', told, sound', same'⟩ := performed h sound same
  exact ⟨h', goes_tell sound (fits h same) told, sound', same'⟩

theorem takes_atEnd (s : Stance) : (tell .atEnd).Takes s s.cursor.atEnd s :=
  takes_tell (fun _ _ => trivial) fun h sound same => ⟨h, same ▸ rfl, sound, same⟩

theorem takes_peekAt (k : Nat) (s : Stance) : (tell (.peekAt k)).Takes s (s.cursor.peekAt k) s :=
  takes_tell (fun _ _ => trivial) fun h sound same => ⟨h, same ▸ rfl, sound, same⟩

theorem takes_location (s : Stance) : (tell .location).Takes s s.cursor.location s :=
  takes_tell (fun _ _ => trivial) fun h sound same => ⟨h, same ▸ rfl, sound, same⟩

/-- Keeps the place where the cursor stands. -/
theorem takes_mark (s : Stance) : (tell .mark).Takes s () s.marking :=
  takes_tell (fun _ _ => trivial) fun _ sound same =>
    ⟨_, rfl, ⟨sound.cursor, sound.cursor, sound.eaten, sound.depth⟩, same ▸ rfl⟩

theorem takes_textSince {span more : List Char} (ahead : s.rest = span ++ more) :
    (tell .textSince).Takes (s.marking.pass span) span (s.marking.pass span) :=
  takes_tell (fun _ _ => trivial) fun h sound same => by
    have text : h.cursor.textSince h.marked.place = span := by
      have passed : (s.cursor.pass span).textSince s.cursor.place = span :=
        Cursor.textSince_pass ahead
      rw [← passed]
      exact congrArg (fun t : Stance => t.cursor.textSince t.marked) same
    exact ⟨h, congrArg (·, h) text, sound, same⟩

/-- Goes back to where the text in between began. -/
theorem takes_restore (s : Stance) (span : List Char) :
    (tell .restore).Takes (s.marking.pass span) () s.marking :=
  takes_tell (fun _ _ => trivial) fun _ sound same =>
    ⟨_, rfl, ⟨sound.marked, sound.marked, sound.eaten, sound.depth⟩,
      congrArg (fun t : Stance => { t with cursor := t.cursor.restore t.marked }) same⟩

theorem takes_beginComment (s : Stance) : (tell .beginComment).Takes s () s.beginning :=
  takes_tell (fun _ _ => trivial) fun _ sound same =>
    ⟨_, rfl, ⟨sound.cursor, sound.marked, sound.eaten, Nat.le_add_right 1 _⟩, same ▸ rfl⟩

theorem takes_openComment (nested : s.Nests (s.depth + 1)) :
    (tell .openComment).Takes s () { s with depth := s.depth + 1 } := by
  refine takes_tell (fun h same => ?_) fun h sound same => ?_
  · subst same
    exact nested
  · subst same
    refine ⟨_, rfl, ⟨sound.cursor, sound.marked, sound.eaten, ?_⟩, rfl⟩
    obtain ⟨-, -, few⟩ := nested
    have inside : h.spot.offset ≤ h.buffer.length := sound.cursor.offset
    have within : (h.spot.offset - h.opened) / 2 ≤ h.buffer.length / 2 := by omega
    exact Nat.le_trans few (Nat.add_le_add_left within 1)

theorem takes_closeComment (nested : s.Nests s.depth) :
    (tell .closeComment).Takes s (decide (s.depth - 1 = 0)) { s with depth := s.depth - 1 } := by
  refine takes_tell (fun h same => ?_) fun h sound same => ?_
  · subst same
    exact nested
  · subst same
    have fewer : h.depth - 1 ≤ 1 + h.buffer.length / 2 :=
      Nat.le_trans (Nat.sub_le _ 1) sound.depth
    exact ⟨_, rfl, ⟨sound.cursor, sound.marked, sound.eaten, fewer⟩, rfl⟩

theorem advance_of_cons {h : Hand Nat} (sound : h.Sound) {d : Char} {more : List Char}
    (ahead : h.cursor.rest = d :: more) :
    ∃ h', Instruction.advance.perform unbounded h = (d, h') ∧ h'.Sound ∧
      h'.stance = h.stance.pass [d] ∧ h'.eaten = h.eaten ∧ h'.since = h.since := by
  have front : h.buffer[h.spot.offset]? = some d := by
    rw [← List.head?_drop]
    exact congrArg List.head? ahead
  have moved : (h.spot.next unbounded d).place = (h.cursor.pass [d]).place := by
    show _ = Place.mk (h.spot.offset + 1) (Location.next ⟨h.spot.line, h.spot.column⟩ d)
    unfold Spot.next Location.next
    split <;> rfl
  have cursor : Hand.cursor { h with spot := h.spot.next unbounded d } = h.cursor.pass [d] :=
    congrArg (Cursor.mk h.buffer) moved
  refine ⟨_, Instruction.advance_of_some front, ⟨?_, sound.marked, sound.eaten, sound.depth⟩, ?_,
    rfl, rfl⟩
  · rw [cursor]
    exact sound.cursor.pass ahead
  · exact congrArg (fun c => { h.stance with cursor := c }) cursor

theorem takes_advance {d : Char} {more : List Char} (ahead : s.rest = d :: more) :
    (tell .advance).Takes s d (s.pass [d]) :=
  takes_tell (fun _ _ => trivial) fun h sound same => by
    subst same
    obtain ⟨h', told, sound', same', -⟩ := advance_of_cons sound ahead
    exact ⟨h', told, sound', same'⟩

/-! ### Looking and eating -/

theorem takes_peek {d : Char} {more : List Char} (ahead : s.rest = d :: more) :
    peek.Takes s d s := by
  rw [← Cursor.peek_of_cons ahead]
  exact takes_peekAt 0 s

theorem takes_eatIf {p : Char → Bool} {d : Char} {more : List Char} (ahead : s.rest = d :: more)
    (holds : p d = true) : (eatIf p).Takes s true (s.pass [d]) := by
  refine .bind (takes_atEnd s) ?_
  rw [Cursor.atEnd_of_cons ahead, if_neg Bool.false_ne_true]
  refine .bind (takes_peek ahead) ?_
  rw [if_pos holds]
  exact .bind (takes_advance ahead) (takes_pure _ _)

theorem takes_eatIf_of_stops {p : Char → Bool} (stops : Stops p s.rest.head?) :
    (eatIf p).Takes s false s := by
  refine .bind (takes_atEnd s) ?_
  cases ahead : s.rest with
  | nil =>
      rw [if_pos ((Cursor.atEnd_iff _).2 ahead)]
      exact takes_pure _ _
  | cons d more =>
      rw [Cursor.atEnd_of_cons ahead, if_neg Bool.false_ne_true]
      refine .bind (takes_peek ahead) ?_
      rw [ahead, List.head?_cons, stops_some] at stops
      rw [stops, if_neg Bool.false_ne_true]
      exact takes_pure _ _

theorem takes_eat {c : Char} {more : List Char} (ahead : s.rest = c :: more) :
    (eat c).Takes s true (s.pass [c]) :=
  takes_eatIf ahead (beq_self_eq_true c)

theorem takes_eat_of_ne {c : Char} (other : s.rest.head? ≠ some c) : (eat c).Takes s false s :=
  takes_eatIf_of_stops (stops_singleton other)

theorem takes_consume {ended : β} {next : Char → Walk β} {d : Char} {more : List Char}
    (ahead : s.rest = d :: more) (later : (next d).Takes (s.pass [d]) b s') :
    (consume ended next).Takes s b s' := by
  refine .bind (takes_atEnd s) ?_
  rw [Cursor.atEnd_of_cons ahead, if_neg Bool.false_ne_true]
  exact .bind (takes_advance ahead) later

theorem takes_consume_of_nil {ended : β} {next : Char → Walk β} (ahead : s.rest = []) :
    (consume ended next).Takes s ended s := by
  refine .bind (takes_atEnd s) ?_
  rw [if_pos ((Cursor.atEnd_iff _).2 ahead)]
  exact takes_pure _ _

theorem goes_atEnd {h : Hand Nat} (sound : h.Sound) {ended : Bool}
    (known : h.cursor.atEnd = ended) : (tell .atEnd).Goes h ended h :=
  goes_tell sound trivial (congrArg (·, h) known)

theorem goes_peek {h : Hand Nat} (sound : h.Sound) {d : Char} {more : List Char}
    (ahead : h.cursor.rest = d :: more) : peek.Goes h d h :=
  goes_tell sound trivial (congrArg (·, h) (Cursor.peek_of_cons ahead))

/-- One more character is eaten: it is consumed first, so it is there to be counted. -/
theorem exists_eaten {p : Char → Bool} {h : Hand Nat} (sound : h.Sound)
    (fits : (Loop.eating p).Fits h) {d : Char} {more : List Char} (ahead : h.cursor.rest = d :: more) :
    ∃ moved counted, (tell .advance).Goes h d moved ∧ (tell .countEaten).Goes moved () counted ∧
      counted.Sound ∧ (Loop.eating p).Fits counted ∧ counted.stance = h.stance.pass [d] ∧
      counted.eaten = h.eaten + 1 := by
  obtain ⟨moved, told, soundMoved, stance, eaten, since⟩ := advance_of_cons sound ahead
  have further : moved.spot.offset = h.spot.offset + 1 :=
    congrArg (fun s => s.cursor.offset) stance
  have inside : moved.spot.offset ≤ moved.buffer.length := soundMoved.cursor.offset
  obtain ⟨began, few⟩ := fits
  have fitsMore : moved.MayHaveEaten (moved.eaten + 1) := by
    show moved.since ≤ moved.spot.offset ∧ moved.eaten + 1 ≤ moved.spot.offset - moved.since
    omega
  have within : moved.eaten + 1 ≤ moved.buffer.length := by
    obtain ⟨-, most⟩ := fitsMore
    omega
  refine ⟨moved, { moved with eaten := moved.eaten + 1 }, goes_tell sound trivial told,
    goes_tell soundMoved fitsMore rfl, ?_, fitsMore, stance, congrArg (· + 1) eaten⟩
  exact ⟨soundMoved.cursor, soundMoved.marked, within, soundMoved.depth⟩

/-- Eating counts on from what is eaten already. -/
theorem goes_eating (p : Char → Bool) {h : Hand Nat} (sound : h.Sound)
    (fits : (Loop.eating p).Fits h) :
    ∃ h', (enter (.eating p)).Goes h (h.eaten + (h.cursor.rest.takeWhile p).length) h' ∧
      h'.Sound ∧ h'.stance = h.stance.pass (h.cursor.rest.takeWhile p) := by
  generalize left : h.cursor.rest = text
  induction text generalizing h with
  | nil =>
      refine ⟨h, Goes.enter ?_ sound fits, sound, rfl⟩
      refine .bind (goes_atEnd sound ((Cursor.atEnd_iff _).2 left)) ?_
      rw [if_pos rfl]
      exact goes_tell sound fits rfl
  | cons d more ih =>
      have started := goes_atEnd sound (Cursor.atEnd_of_cons left)
      have looked := goes_peek sound left
      cases holds : p d with
      | false =>
          rw [List.takeWhile_cons_of_neg (by simp [holds])]
          refine ⟨h, Goes.enter (.bind started ?_) sound fits, sound, rfl⟩
          rw [if_neg Bool.false_ne_true]
          refine .bind looked ?_
          rw [holds, if_neg Bool.false_ne_true]
          exact goes_tell sound fits rfl
      | true =>
          obtain ⟨moved, counted, advanced, more_, soundCounted, fitsCounted, stance, eaten⟩ :=
            exists_eaten sound fits left
          have leftCounted : counted.stance.rest = more := by
            rw [stance]
            exact Stance.rest_cons left
          obtain ⟨h', goes, sound', same⟩ := ih soundCounted fitsCounted leftCounted
          rw [List.takeWhile_cons_of_pos holds, List.length_cons, Nat.add_comm _ 1, ← Nat.add_assoc,
            ← eaten]
          refine ⟨h', Goes.enter (.bind started ?_) sound fits, sound', ?_⟩
          · rw [if_neg Bool.false_ne_true]
            refine .bind looked ?_
            rw [if_pos holds]
            exact .bind advanced (.bind more_ goes)
          · rw [same, stance, Stance.pass_pass]
            rfl

theorem takes_eatWhile (p : Char → Bool) (s : Stance) :
    (eatWhile p).Takes s (s.rest.takeWhile p).length (s.pass (s.rest.takeWhile p)) := by
  rintro h sound rfl
  let begun : Hand Nat := { h with eaten := 0, since := h.spot.offset }
  have soundBegun : begun.Sound := ⟨sound.cursor, sound.marked, Nat.zero_le _, sound.depth⟩
  have fits : (Loop.eating p).Fits begun := ⟨Nat.le_refl _, Nat.zero_le _⟩
  obtain ⟨h', goes, sound', same⟩ := goes_eating p soundBegun fits
  have count : begun.eaten + (begun.cursor.rest.takeWhile p).length =
      (h.stance.rest.takeWhile p).length := Nat.zero_add _
  rw [count] at goes
  exact ⟨h', .bind (goes_tell sound trivial rfl) goes, sound', same⟩

/-- A run of characters is eaten up to the first that does not belong to it. -/
theorem takes_eatWhile_of_stops {p : Char → Bool} {run rest : List Char} (ahead : s.rest = run ++ rest)
    (inside : ∀ c ∈ run, p c = true) (stops : Stops p rest.head?) :
    (eatWhile p).Takes s run.length (s.pass run) := by
  have eaten := takes_eatWhile p s
  rwa [ahead, takeWhile_of_stops inside stops] at eaten

end Walk

end TeamScript
