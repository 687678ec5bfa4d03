/-
# TeamScript.Proofs.Bearings -- a cursor never loses its bearings

A cursor moves forward by consuming text, or goes back to a place where a cursor
over the same buffer has stood.  However such moves follow one another, its offset
lies in the buffer and its location is the one behind the text in front of the
offset (`Cursor.Sound`).

A forward move passes a front part of the remaining text, whatever the move is
(`Cursor.Forward`), and so keeps a cursor sound (`Sound.pass`); a place taken up
again was sound when it was left.  From these the invariant holds of every cursor
that is reached (`Reached.sound`), and with it

* locations compare as offsets do, because a longer front part of a text leads to a
  greater location (`Location.behind_take_lt`);
* the text since a place is what lies between the two offsets, so consecutive
  pieces of it make up the whole.

A desk that keeps to its text drives its cursor by such moves alone
(`Desk.Over.perform`).
-/
import TeamScript.Cursor.Script
import TeamScript.Proofs.Moves
import TeamScript.Proofs.Order

namespace TeamScript

set_option autoImplicit false

namespace Cursor

variable {c : Cursor}

/-! ## Forward moves -/

/-- The cursor `d` is `c` behind a front part of the text that `c` has left. -/
def Forward (c d : Cursor) : Prop :=
  ∃ span more, c.rest = span ++ more ∧ d = c.pass span

theorem forward_refl (c : Cursor) : c.Forward c :=
  ⟨[], c.rest, rfl, (pass_nil c).symm⟩

theorem forward_advance (c : Cursor) : c.Forward c.advance.2 := by
  unfold advance
  split
  · exact forward_refl c
  · rename_i d more ahead
    exact ⟨[d], more, ahead, rfl⟩

theorem forward_eatIf (c : Cursor) (p : Char → Bool) : c.Forward (c.eatIf p).2 := by
  unfold eatIf
  split
  · exact forward_refl c
  · rename_i d more ahead
    split
    · exact ⟨[d], more, ahead, rfl⟩
    · exact forward_refl c

theorem forward_eatWhile (c : Cursor) (p : Char → Bool) : c.Forward (c.eatWhile p).2 :=
  ⟨_, _, List.takeWhile_append_dropWhile.symm, rfl⟩

theorem forward_take {r : Reading} (splits : r.Splits c.rest) (start : Location) :
    c.Forward (c.take start r).2 :=
  ⟨r.span, r.rest, splits.symm, rfl⟩

theorem forward_scan (c : Cursor) (start : Location) (reader : Reader) :
    c.Forward (c.scan start reader).2 := by
  cases reader with
  | numeral => exact forward_take (Numeral.read_splits _) start
  | operator => exact forward_take (Operator.read_splits _) start
  | string => exact forward_take (StringLiteral.read_splits _) start
  | word => exact forward_take (Word.read_splits _) start
  | slash =>
      have whole := Comment.read_splits c.rest
      unfold scan
      dsimp only
      split <;> rename_i found <;> rw [found] at whole
      · exact ⟨_, _, whole.symm, rfl⟩
      · exact forward_take whole start
  | name =>
      unfold scan
      dsimp only
      split
      · rename_i found
        exact forward_take (Name.read?_splits found) start
      · exact forward_refl c

/-! ## Soundness -/

/-- The offset lies in the buffer, and the location is the one behind the text in front of it. -/
structure Sound (c : Cursor) : Prop where
  offset : c.offset ≤ c.buffer.length
  location : c.location = .behind (c.buffer.take c.offset)

theorem sound_ofText (text : List Char) : (ofText text).Sound :=
  ⟨Nat.zero_le _, rfl⟩

theorem Sound.pass (sound : c.Sound) {span more : List Char} (ahead : c.rest = span ++ more) :
    (c.pass span).Sound := by
  have whole : c.buffer = c.buffer.take c.offset ++ (span ++ more) := by
    rw [← ahead]
    exact (List.take_append_drop _ _).symm
  have front : (c.buffer.take c.offset).length = c.offset := by
    rw [List.length_take, Nat.min_eq_left sound.offset]
  constructor
  · have length := congrArg List.length whole
    rw [List.length_append, List.length_append, front] at length
    show c.offset + span.length ≤ c.buffer.length
    omega
  · have taken : c.buffer.take (c.offset + span.length) = c.buffer.take c.offset ++ span := by
      conv => lhs; rw [whole, ← List.append_assoc]
      rw [List.take_left']
      rw [List.length_append, front]
    show c.location.after span = .behind (c.buffer.take (c.offset + span.length))
    rw [taken, sound.location, Location.behind_after]

theorem Sound.forward (sound : c.Sound) {d : Cursor} (forward : c.Forward d) :
    d.Sound ∧ d.buffer = c.buffer := by
  obtain ⟨span, more, ahead, rfl⟩ := forward
  exact ⟨sound.pass ahead, rfl⟩

/-! ## What sound cursors over one buffer tell of each other -/

section Comparing

variable {text : List Char} {p q now : Cursor}

theorem location_lt_iff (sound : p.Sound) (sound' : q.Sound) (same : p.buffer = q.buffer) :
    p.location < q.location ↔ p.offset < q.offset := by
  rw [sound.location, sound'.location, same]
  exact Location.behind_take_lt_iff (same ▸ sound.offset) sound'.offset

theorem location_eq_iff (sound : p.Sound) (sound' : q.Sound) (same : p.buffer = q.buffer) :
    p.location = q.location ↔ p.offset = q.offset := by
  rw [sound.location, sound'.location, same]
  constructor
  · exact Location.behind_take_inj (same ▸ sound.offset) sound'.offset
  · exact fun here => by rw [here]

theorem compare_location (sound : p.Sound) (sound' : q.Sound) (same : p.buffer = q.buffer) :
    compare p.location q.location = compare p.offset q.offset := by
  show compareOfLessAndEq p.location q.location = compareOfLessAndEq p.offset q.offset
  unfold compareOfLessAndEq
  simp only [location_lt_iff sound sound' same, location_eq_iff sound sound' same]

theorem take_append_textSince (sound : now.Sound) (order : p.offset ≤ now.offset) :
    now.buffer.take p.offset ++ now.textSince p.place = now.buffer.take now.offset := by
  have front : (now.buffer.take now.offset).take p.offset = now.buffer.take p.offset := by
    rw [List.take_take, Nat.min_eq_left order]
  rw [textSince, if_pos sound.offset, ← front]
  exact List.take_append_drop _ _

theorem textSince_of_lt (ahead : now.offset < p.offset) : now.textSince p.place = [] := by
  unfold textSince
  split
  · apply List.drop_eq_nil_of_le
    rw [List.length_take]
    have less : now.offset < p.place.offset := ahead
    omega
  · rfl

theorem textSince_append (sound : q.Sound) (sound' : now.Sound) (same : q.buffer = now.buffer)
    (first : p.offset ≤ q.offset) (second : q.offset ≤ now.offset) :
    now.textSince p.place = q.textSince p.place ++ now.textSince q.place := by
  have long := take_append_textSince (p := p) sound' (Nat.le_trans first second)
  have short := take_append_textSince (p := p) sound first
  have rest := take_append_textSince (p := q) sound' second
  rw [same] at short
  rw [← rest, ← short, List.append_assoc] at long
  exact List.append_cancel_left long

end Comparing

end Cursor

/-! ## Every cursor that is reached -/

/-- The cursors to which moves over the text lead.  Going back to a place where one of these
cursors stood is a move like any other. -/
inductive Reached (text : List Char) : Cursor → Prop
  | start : Reached text (.ofText text)
  | advance {c : Cursor} (reached : Reached text c) : Reached text c.advance.2
  | eat {c : Cursor} (expected : Char) (reached : Reached text c) :
      Reached text (c.eat expected).2
  | eatAny {c : Cursor} (expected : List Char) (reached : Reached text c) :
      Reached text (c.eatAny expected).2
  | eatWhile {c : Cursor} (p : Char → Bool) (reached : Reached text c) :
      Reached text (c.eatWhile p).2
  | skipBlanks {c : Cursor} (reached : Reached text c) : Reached text c.skipBlanks
  | scan {c : Cursor} (start : Location) (reader : Reader) (reached : Reached text c) :
      Reached text (c.scan start reader).2
  | restore {c earlier : Cursor} (reached : Reached text c) (left : Reached text earlier) :
      Reached text (c.restore earlier.place)

theorem Reached.sound {text : List Char} {c : Cursor} (reached : Reached text c) :
    c.buffer = text ∧ c.Sound := by
  have moved {c d : Cursor} (ih : c.buffer = text ∧ c.Sound) (forward : c.Forward d) :
      d.buffer = text ∧ d.Sound := by
    obtain ⟨sound, same⟩ := ih.2.forward forward
    exact ⟨same.trans ih.1, sound⟩
  induction reached with
  | start => exact ⟨rfl, Cursor.sound_ofText text⟩
  | advance _ ih => exact moved ih (Cursor.forward_advance _)
  | eat expected _ ih => exact moved ih (Cursor.forward_eatIf _ _)
  | eatAny expected _ ih => exact moved ih (Cursor.forward_eatIf _ _)
  | eatWhile p _ ih => exact moved ih (Cursor.forward_eatWhile _ p)
  | skipBlanks _ ih => exact moved ih (Cursor.forward_eatWhile _ isBlank)
  | scan start reader _ ih => exact moved ih (Cursor.forward_scan _ start reader)
  | @restore c earlier _ _ ih left =>
      -- the buffer is the cursor's own, offset and location are those that were left
      have same : c.buffer = earlier.buffer := ih.1.trans left.1.symm
      refine ⟨ih.1, ⟨?_, ?_⟩⟩
      · show earlier.offset ≤ c.buffer.length
        rw [same]
        exact left.2.offset
      · show earlier.location = .behind (c.buffer.take earlier.offset)
        rw [same]
        exact left.2.location

namespace Desk

/-! ## A desk that keeps to its text -/

/-- The action puts another text on the desk. -/
def Action.loads : Action → Bool
  | .load _ => true
  | _ => false

/-- The cursor is reached, and each remembered place is one that a reached cursor had. -/
structure Over (text : List Char) (d : Desk) : Prop where
  cursor : Reached text d.cursor
  places : ∀ slot p, (slot, p) ∈ d.places → ∃ c, Reached text c ∧ c.place = p

variable {text : List Char} {d : Desk}

theorem over_ofText (text : List Char) : (ofText text).Over text :=
  ⟨.start, fun _ _ member => nomatch member⟩

theorem Over.place? (keeps : d.Over text) {slot : String} {p : Place}
    (found : d.place? slot = some p) : ∃ c, Reached text c ∧ c.place = p := by
  obtain ⟨before, _, whole, -⟩ := List.lookup_eq_some_iff.1 found
  exact keeps.places slot p (by simp [whole])

theorem Over.perform (keeps : d.Over text) {action : Action} (stays : action.loads = false)
    {reply : Reply} {next : Desk} (performed : d.perform? action = some (reply, next)) :
    next.Over text := by
  obtain ⟨cursor, places⟩ := keeps
  cases action with
  | load text => cases stays
  | advance => cases performed; exact ⟨.advance cursor, places⟩
  | eat expected => cases performed; exact ⟨.eat expected cursor, places⟩
  | eatAny expected => cases performed; exact ⟨.eatAny expected cursor, places⟩
  | eatWhile p => cases performed; exact ⟨.eatWhile p cursor, places⟩
  | skipBlanks => cases performed; exact ⟨.skipBlanks cursor, places⟩
  | scan reader start? => cases performed; exact ⟨.scan _ reader cursor, places⟩
  | remember slot =>
      cases performed
      refine ⟨cursor, fun other p member => ?_⟩
      rcases List.mem_cons.1 member with here | earlier
      · cases here
        exact ⟨d.cursor, cursor, rfl⟩
      · exact places other p earlier
  | restore slot =>
      obtain ⟨p, found, moved⟩ := Option.map_eq_some_iff.1 performed
      cases moved
      obtain ⟨earlier, left, rfl⟩ := Over.place? ⟨cursor, places⟩ found
      exact ⟨.restore cursor left, places⟩
  | isAt slot =>
      obtain ⟨p, -, same⟩ := Option.map_eq_some_iff.1 performed
      cases same
      exact ⟨cursor, places⟩
  | textSince slot =>
      obtain ⟨p, -, same⟩ := Option.map_eq_some_iff.1 performed
      cases same
      exact ⟨cursor, places⟩
  | _ => cases performed; exact ⟨cursor, places⟩

theorem Over.run (keeps : d.Over text) {actions : List Action}
    (stays : ∀ action ∈ actions, action.loads = false) {replies : List (Reply × Desk)}
    (ran : d.run? actions = some replies) : ∀ answered ∈ replies, answered.2.Over text := by
  induction actions generalizing d replies with
  | nil =>
      cases ran
      exact fun _ member => nomatch member
  | cons action actions ih =>
      obtain ⟨first, others⟩ := List.forall_mem_cons.1 stays
      simp only [run?, Option.bind_eq_bind, Option.bind_eq_some_iff] at ran
      obtain ⟨⟨reply, next⟩, performed, later, ran, same⟩ := ran
      cases same
      have overNext := keeps.perform first performed
      exact List.forall_mem_cons.2 ⟨overNext, ih overNext others ran⟩

end Desk

/-! ## The invariant and what follows from it -/

/-- Whatever a desk does with its text, its cursor and its places are reached; a reached cursor
is sound; and of three of them each tells the others' order and the text between them. -/
theorem reached_bearings (text : List Char) :
    (∀ actions replies, (∀ action ∈ actions, action.loads = false) →
      (Desk.ofText text).run? actions = some replies →
      ∀ answered ∈ replies, answered.2.Over text) ∧
    (∀ c, Reached text c → c.buffer = text ∧ c.offset ≤ text.length ∧
      c.location = .behind (text.take c.offset)) ∧
    ∀ p q now, Reached text p → Reached text q → Reached text now →
      ((p.location < q.location ↔ p.offset < q.offset) ∧
        (p.location = q.location ↔ p.offset = q.offset) ∧
        compare p.location q.location = compare p.offset q.offset) ∧
      (p.offset ≤ now.offset →
        text.take p.offset ++ now.textSince p.place = text.take now.offset) ∧
      (now.offset < p.offset → now.textSince p.place = []) ∧
      (p.offset ≤ q.offset → q.offset ≤ now.offset →
        now.textSince p.place = q.textSince p.place ++ now.textSince q.place) := by
  refine ⟨fun actions replies stays ran => (Desk.over_ofText text).run stays ran,
    fun c reached => ?_, fun p q now reachedP reachedQ reachedNow => ?_⟩
  · obtain ⟨rfl, sound⟩ := reached.sound
    exact ⟨rfl, sound.offset, sound.location⟩
  · obtain ⟨bufferP, soundP⟩ := reachedP.sound
    obtain ⟨bufferQ, soundQ⟩ := reachedQ.sound
    obtain ⟨rfl, sound⟩ := reachedNow.sound
    have same : p.buffer = q.buffer := bufferP.trans bufferQ.symm
    exact ⟨⟨Cursor.location_lt_iff soundP soundQ same, Cursor.location_eq_iff soundP soundQ same,
        Cursor.compare_location soundP soundQ same⟩,
      Cursor.take_append_textSince sound, Cursor.textSince_of_lt,
      Cursor.textSince_append soundQ sound bufferQ⟩

/-- A cursor that goes back over a line feed, and a desk that does so. -/
theorem reached_bearings_restored :
    let text := "1\n2".toList
    let far := (Cursor.ofText text).advance.2.advance.2
    let back := far.restore (Cursor.ofText text).place
    (Reached text far ∧ Reached text back) ∧ (back.location < far.location ∧
      text.take 0 ++ far.textSince back.place = text.take 2 ∧ back.textSince far.place = []) ∧
      ∃ replies, (Desk.ofText text).run? [.remember "a", .advance, .advance, .restore "a"] =
          some replies ∧ ∀ answered ∈ replies, answered.2.Over text := by
  intro text far back
  let actions : List Desk.Action := [.remember "a", .advance, .advance, .restore "a"]
  have stays : ∀ action ∈ actions, action.loads = false := by decide
  have reachedFar : Reached text far := .advance (.advance .start)
  have reachedBack : Reached text back := .restore reachedFar .start
  obtain ⟨desks, -, pairs⟩ := reached_bearings text
  obtain ⟨⟨order, -, -⟩, whole, -, -⟩ := pairs back far far reachedBack reachedFar reachedFar
  obtain ⟨-, -, behind, -⟩ := pairs far far back reachedFar reachedFar reachedBack
  have before : back.offset < far.offset := Nat.zero_lt_succ 1
  exact ⟨⟨reachedFar, reachedBack⟩,
    ⟨order.2 before, whole (Nat.le_of_lt before), behind before⟩,
    ⟨_, rfl, desks actions _ stays rfl⟩⟩

end TeamScript
