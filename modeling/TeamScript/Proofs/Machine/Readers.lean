/-
# TeamScript.Proofs.Machine.Readers -- each walk finds what its reader finds

A reader tells at once what is in front of a text; the walk of the same name finds it
out.  From any stance, the walk answers with the token of the reading and arrives
behind its span (`Walk.Arrives`).

The walks with a loop are followed turn by turn: a string by the content in front
(`takes_content`), a comment by the number of comments that are open, which is what
its counter says at each turn (`comment_closes`).
-/
import TeamScript.Proofs.Grammar.Chunk
import TeamScript.Proofs.Machine.Run
import TeamScript.Proofs.NameAttempt

namespace TeamScript

set_option autoImplicit false

variable {α β : Type}

/-- The walk answers and stops where the cursor is. -/
def Walk.Arrives (w : Walk α) (s : Stance) (a : α) (c : Cursor) : Prop :=
  ∃ s', w.Takes s a s' ∧ s'.cursor = c

namespace Walk

variable {w : Walk α} {f : α → Walk β} {a : α} {b : β} {s s' : Stance} {c : Cursor}

theorem arrives_pure (there : s.cursor = c) : Arrives (pure a) s a c := ⟨s, takes_pure a s, there⟩

/-- A walk goes on from where its first part leads. -/
theorem Arrives.bind (first : w.Takes s a s') (later : (f a).Arrives s' b c) :
    (w >>= f).Arrives s b c := by
  obtain ⟨s'', takes, there⟩ := later
  exact ⟨s'', first.bind takes, there⟩

theorem Arrives.enter {l : Loop α} (body : l.body.Arrives s a c)
    (fits : ∀ h : Hand Nat, h.stance = s → l.Fits h) : (Walk.enter l).Arrives s a c := by
  obtain ⟨s', takes, there⟩ := body
  exact ⟨s', takes.enter fits, there⟩

theorem arrives_consume {ended : β} {next : Char → Walk β} {d : Char} {more : List Char}
    (ahead : s.rest = d :: more) (later : (next d).Arrives (s.pass [d]) b c) :
    (consume ended next).Arrives s b c := by
  obtain ⟨s', takes, there⟩ := later
  exact ⟨s', takes_consume ahead takes, there⟩

theorem arrives_consume_of_nil {ended : β} {next : Char → Walk β} (ahead : s.rest = [])
    (there : s.cursor = c) : (consume ended next).Arrives s ended c :=
  ⟨s, takes_consume_of_nil ahead, there⟩

/-! ## Strings -/

section Strings

open StringLiteral

theorem takes_skipRestOfString (s : Stance) :
    skipRestOfString.Takes s () (s.pass (skipped s.rest)) := by
  have whole := List.takeWhile_append_dropWhile (p := fun c => c != '$' && c != '\n') (l := s.rest)
  have left := Stance.rest_pass whole.symm
  refine .bind (takes_eatWhile _ s) ?_
  unfold skipped
  dsimp only
  split
  · rename_i more found
    rw [found] at left
    rw [← Stance.pass_pass]
    exact .bind (takes_eat left) (takes_pure _ _)
  · rename_i other
    rw [List.append_nil]
    refine .bind (takes_eat_of_ne ?_) (takes_pure _ _)
    rw [left]
    intro dollar
    obtain ⟨more, front⟩ := List.head?_eq_some_iff.1 dollar
    exact other more front

variable {start : Location} {token : Token}

/-- The content in front is read turn by turn, and what is found behind it decides. -/
theorem takes_content (before : List Char)
    (behind : (stringTurn start (before ++ content s.rest)).Takes (s.pass (content s.rest)) token s') :
    (enter (.string start before)).Takes s token s' := by
  generalize left : s.rest = text at behind
  induction text generalizing s before with
  | nil =>
      refine .enter ?_ fun _ _ => trivial
      rwa [(content_of_ends rfl).1, List.append_nil, Stance.pass_nil] at behind
  | cons d more ih =>
      cases ends : ends (d :: more) with
      | true =>
          rw [(content_of_ends ends).1, List.append_nil, Stance.pass_nil] at behind
          exact .enter behind fun _ _ => trivial
      | false =>
          obtain ⟨inner, -⟩ := content_cons ends
          have goesOn : ¬ StringLiteral.ends (d :: more) = true := by simp [ends]
          rw [ends_iff] at goesOn
          simp only [reduceCtorEq, false_or, not_or, List.cons.injEq] at goesOn
          obtain ⟨dollar, feed, escape⟩ := goesOn
          have notDollar : d ≠ '$' := fun same => dollar ⟨more, same, rfl⟩
          have notFeed : d ≠ '\n' := fun same => feed ⟨more, same, rfl⟩
          have leftMore := Stance.rest_cons left
          -- the character is content, and the next turn has it
          have later : (enter (.string start (before ++ [d]))).Takes (s.pass [d]) token s' := by
            refine ih _ leftMore ?_
            rw [inner] at behind
            simpa using behind
          refine .enter (takes_consume left ?_) fun _ _ => trivial
          rw [if_neg notDollar, if_neg notFeed]
          by_cases backslash : d = '\\'
          · rw [if_pos backslash]
            refine .bind (takes_eat_of_ne ?_) later
            rw [leftMore]
            intro n
            obtain ⟨others, rfl⟩ := List.head?_eq_some_iff.1 n
            exact escape ⟨others, backslash, rfl⟩
          · rw [if_neg backslash]
            exact later

/-- The content of a string has ended, in front of what ends it. -/
theorem string_of_stop {body stop : List Char} (opened : s.rest = '$' :: body)
    (ended : afterContent body = stop)
    (behind : ∀ t : Stance, t.rest = stop → t.cursor = s.cursor.pass ('$' :: content body) →
      (stringTurn start (content body)).Arrives t token c) :
    (string start).Arrives s token c := by
  have left := Stance.rest_cons opened
  have inside := (content_append body).symm
  rw [ended] at inside
  have turn := behind ((s.pass ['$']).pass (content body))
    (Stance.rest_pass (left.trans inside)) (congrArg Stance.cursor (Stance.pass_pass _ _ _))
  obtain ⟨s', takes, there⟩ := turn
  refine .bind (takes_advance opened) ⟨s', takes_content [] ?_, there⟩
  rwa [left, List.nil_append]

theorem string_arrives {body : List Char} (opened : s.rest = '$' :: body) (start : Location) :
    (string start).Arrives s ((StringLiteral.read s.rest).token start)
      (s.cursor.pass (StringLiteral.read s.rest).span) := by
  rw [opened]
  rcases ends_iff.1 (ends_afterContent body) with nil | ⟨more, front⟩ | ⟨more, front⟩ | ⟨more, front⟩
  · rw [read_of_nil nil]
    refine string_of_stop opened nil fun t left there => ?_
    exact arrives_consume_of_nil left there
  · rw [read_of_dollar front]
    refine string_of_stop opened front fun t left there => ?_
    refine arrives_consume left ?_
    rw [if_pos rfl]
    refine arrives_pure ?_
    rw [Stance.pass_cursor, there, Cursor.pass_pass]
    rfl
  · rw [read_of_feed front]
    refine string_of_stop opened front fun t left there => ?_
    refine arrives_consume left ?_
    rw [if_neg (by decide), if_pos rfl]
    refine .bind (takes_skipRestOfString _) (arrives_pure ?_)
    rw [Stance.rest_cons left, Stance.pass_pass, Stance.pass_cursor, there,
      Cursor.pass_pass]
    rfl
  · rw [read_of_escape front]
    refine string_of_stop opened front fun t left there => ?_
    have leftMore := Stance.rest_cons left
    refine arrives_consume left ?_
    rw [if_neg (by decide), if_neg (by decide), if_pos rfl]
    refine .bind (takes_eat leftMore) ?_
    rw [if_pos rfl]
    refine .bind (takes_skipRestOfString _) (arrives_pure ?_)
    rw [Stance.rest_cons leftMore, Stance.pass_pass, Stance.pass_pass,
      Stance.pass_cursor, there, Cursor.pass_pass]
    rfl

end Strings

/-! ## Words and operators -/

theorem word_arrives (s : Stance) (start : Location) :
    (word start).Arrives s ((Word.read s.rest).token start)
      (s.cursor.pass (Word.read s.rest).span) := by
  have whole := (List.takeWhile_append_dropWhile (p := isLetter) (l := s.rest)).symm
  have eaten : (eatWhile isLetter).Takes s.marking _ (s.marking.pass (s.rest.takeWhile isLetter)) :=
    takes_eatWhile isLetter s.marking
  refine .bind (takes_mark s) (.bind eaten (.bind (takes_textSince whole) ?_))
  unfold Word.read
  dsimp only
  cases found : Keyword.ofWord? (String.ofList (s.rest.takeWhile isLetter)) with
  | none => exact arrives_pure rfl
  | some keyword =>
      have spelled := Keyword.word_of_ofWord? found
      rw [← spelled]
      exact arrives_pure rfl

theorem operator_arrives_of_pair {first second : Char} {more : List Char}
    (ahead : s.rest = first :: second :: more) (pair : Operator.isPair first second = true)
    (start : Location) :
    (operator start).Arrives s ⟨.operator, String.ofList [first, second], start⟩
      (s.cursor.pass [first, second]) := by
  have left := Stance.rest_cons ahead
  have there : ((s.pass [first]).pass [second]).cursor = s.cursor.pass [first, second] :=
    Cursor.pass_pass _ _ _
  refine .bind (takes_advance ahead) ?_
  rcases Operator.isPair_iff.1 pair with ⟨rfl, rfl | rfl | rfl | rfl⟩ | ⟨rfl, rfl⟩
  · rw [if_pos (.inl rfl)]
    exact .bind (takes_eat left) (arrives_pure there)
  · rw [if_pos (.inr rfl)]
    exact .bind (takes_eat left) (arrives_pure there)
  · rw [if_neg (by decide), if_pos rfl]
    exact .bind (takes_eat left) (arrives_pure there)
  · rw [if_neg (by decide), if_neg (by decide), if_pos rfl]
    exact .bind (takes_eat left) (arrives_pure there)
  · rw [if_neg (by decide), if_neg (by decide), if_pos rfl]
    refine .bind (takes_eat_of_ne (by simp [left])) ?_
    exact .bind (takes_eat left) (arrives_pure there)

theorem operator_arrives_of_single {first : Char} {more : List Char}
    (ahead : s.rest = first :: more) (stops : Stops (Operator.isPair first) more.head?)
    (start : Location) :
    (operator start).Arrives s ((Operator.readSingle first more).token start)
      (s.cursor.pass [first]) := by
  have left := congrArg List.head? (Stance.rest_cons ahead)
  obtain ⟨equal, greater⟩ := Operator.stops_isPair_iff.1 stops
  rw [← left] at equal greater
  refine .bind (takes_advance ahead) ?_
  unfold Operator.readSingle
  by_cases simple : first = '=' ∨ first = '>'
  · have bang : first ≠ '!' := by rintro rfl; revert simple; decide
    rw [if_pos simple, if_neg bang]
    refine .bind (takes_eat_of_ne (equal ?_)) (arrives_pure rfl)
    rcases simple with same | same
    · exact .inl same
    · exact .inr (.inl same)
  · rw [if_neg simple]
    by_cases bang : first = '!'
    · rw [if_pos bang, if_pos bang]
      exact .bind (takes_eat_of_ne (equal (.inr (.inr (.inl bang))))) (arrives_pure rfl)
    · rw [if_neg bang, if_neg bang]
      by_cases less : first = '<'
      · rw [if_pos less]
        refine .bind (takes_eat_of_ne (equal (.inr (.inr (.inr less))))) ?_
        exact .bind (takes_eat_of_ne (greater less)) (arrives_pure rfl)
      · rw [if_neg less]
        exact arrives_pure rfl

theorem operator_arrives {first : Char} {more : List Char} (ahead : s.rest = first :: more)
    (start : Location) :
    (operator start).Arrives s ((Operator.read s.rest).token start)
      (s.cursor.pass (Operator.read s.rest).span) := by
  rw [ahead]
  by_cases stops : Stops (Operator.isPair first) more.head?
  · rw [Operator.read_cons stops, Operator.readSingle_span]
    exact operator_arrives_of_single ahead stops start
  · simp only [Stops, Classical.not_forall, Bool.not_eq_false] at stops
    obtain ⟨second, next, pair⟩ := stops
    obtain ⟨more, rfl⟩ := List.head?_eq_some_iff.1 next
    rw [Operator.read, if_pos pair]
    exact operator_arrives_of_pair ahead pair start

/-! ## Names -/

theorem takes_shows (word : List Char) (k : Nat) (s : Stance) :
    (shows k word).Takes s ((word.zipIdx k).all fun (d, k) => s.cursor.peekAt k == d) s := by
  induction word generalizing k with
  | nil => exact takes_pure _ _
  | cons d word ih =>
      refine .bind (takes_peekAt k s) ?_
      rw [List.zipIdx_cons, List.all_cons]
      by_cases same : s.cursor.peekAt k = d
      · have seen : (s.cursor.peekAt k == d) = true := beq_iff_eq.2 same
        rw [if_pos same]
        dsimp only
        rw [seen, Bool.true_and]
        exact ih (k + 1)
      · have unseen : (s.cursor.peekAt k == d) = false := beq_false_of_ne same
        rw [if_neg same]
        dsimp only
        rw [unseen, Bool.false_and]
        exact takes_pure _ _

theorem takes_findCode (codes : List String) (s : Stance) :
    (findCode codes).Takes s (codes.find? fun code => s.cursor.shows code.toList) s := by
  induction codes with
  | nil => exact takes_pure _ _
  | cons code codes ih =>
      refine .bind (takes_shows code.toList 0 s) ?_
      rw [List.find?_cons]
      show Takes (if s.cursor.shows code.toList = true then _ else _) s _ s
      cases s.cursor.shows code.toList with
      | true => exact takes_pure _ _
      | false => exact ih

theorem takes_advances {span more : List Char} (ahead : s.rest = span ++ more) :
    (advances span.length).Takes s () (s.pass span) := by
  induction span generalizing s with
  | nil => exact takes_pure _ _
  | cons d span ih =>
      refine .bind (takes_advance ahead) ?_
      have later := ih (Stance.rest_cons ahead)
      rwa [Stance.pass_pass] at later

/-- The walk is the attempt at a name, move by move. -/
theorem name_arrives (s : Stance) (start : Location) :
    (name start).Arrives s (s.cursor.scan start .name).1 (s.cursor.scan start .name).2 := by
  rw [← Cursor.attempt_eq, Cursor.attempt]
  refine .bind (takes_findCode Name.teamCodes s) ?_
  cases found : Name.teamCodes.find? fun code => s.cursor.shows code.toList with
  | none => exact arrives_pure rfl
  | some code =>
      rw [Cursor.find?_shows] at found
      have ahead := (Name.append_drop_of_code? found).symm
      generalize s.cursor.rest.drop code.toList.length = body at ahead
      have split : s.rest =
          code.toList ++ body.takeWhile isNamePart ++ body.dropWhile isNamePart := by
        rw [List.append_assoc, List.takeWhile_append_dropWhile]
        exact ahead
      have eaten := takes_eatWhile isNamePart (s.marking.pass code.toList)
      rw [Stance.rest_pass (s := s.marking) ahead, Stance.pass_pass] at eaten
      have seen := takes_peekAt 0 (s.marking.pass code.toList)
      refine .bind (takes_mark s) (.bind (takes_advances (s := s.marking) ahead) (.bind seen ?_))
      dsimp only
      rw [Cursor.advances_append ahead, Cursor.eatWhile_eq, Cursor.rest_pass ahead,
        Cursor.pass_pass, Cursor.textSince_pass split]
      cases begins : isNameStart (s.cursor.pass code.toList).peek with
      | true =>
          have begins' : isNameStart ((s.marking.pass code.toList).cursor.peekAt 0) = true := begins
          rw [if_pos begins', if_pos rfl]
          exact .bind eaten (.bind (takes_textSince split) (arrives_pure rfl))
      | false =>
          have begins' : isNameStart ((s.marking.pass code.toList).cursor.peekAt 0) = false := begins
          rw [begins', if_neg Bool.false_ne_true, if_neg Bool.false_ne_true]
          exact .bind (takes_restore s code.toList) (arrives_pure rfl)

/-! ## Comments -/

section Comments

open Comment

/-- Inside a comment: behind `passed`, with `text` left, and with as many comments open as the
counter says. -/
structure Inside (s : Stance) (c : Cursor) (passed text : List Char) : Prop where
  cursor : s.cursor = c.pass passed
  rest : s.rest = text
  nests : s.Nests s.depth

/-- The walk finds out that the count of open comments comes to an end there, or nowhere. -/
def Closes (w : Walk Bool) (s : Stance) (c : Cursor) (whole : List Char) (found : Option Nat) :
    Prop :=
  w.Arrives s found.isSome (c.pass (whole.take (found.getD whole.length)))

variable {passed text : List Char}

theorem Inside.pass {span more : List Char} (inside : Inside s c passed (span ++ more)) :
    Inside (s.pass span) c (passed ++ span) more where
  cursor := by rw [Stance.pass_cursor, inside.cursor, Cursor.pass_pass]
  rest := Stance.rest_pass inside.rest
  nests := inside.nests.pass span

/-- In each stance further on, the count is known. -/
def Onward (c : Cursor) (passed text : List Char) : Prop :=
  ∀ (t : Stance) (span more : List Char), span ≠ [] → text = span ++ more →
    Inside t c (passed ++ span) more →
    Closes (enter .comment) t c (passed ++ text) (blockEnd t.depth (passed.length + span.length) more)

theorem commentTurn_of_open {more : List Char} (inside : Inside s c passed ('/' :: '*' :: more))
    (onward : Onward c passed ('/' :: '*' :: more)) :
    Closes commentTurn s c (passed ++ '/' :: '*' :: more)
      (blockEnd s.depth passed.length ('/' :: '*' :: more)) := by
  have moved : Inside (s.pass ['/', '*']) c (passed ++ ['/', '*']) more := inside.pass
  have nests : (s.pass ['/', '*']).Nests (s.depth + 1) := inside.nests.opening '/' '*'
  rw [blockEnd_open]
  have later := onward { s.pass ['/', '*'] with depth := s.depth + 1 } ['/', '*'] more (by simp) rfl
    ⟨moved.cursor, moved.rest, nests⟩
  refine arrives_consume inside.rest ?_
  rw [if_pos rfl]
  refine .bind (takes_eat (Stance.rest_cons inside.rest)) ?_
  rw [if_pos rfl, Stance.pass_pass]
  exact .bind (takes_openComment nests) later

theorem commentTurn_of_slash {more : List Char} (inside : Inside s c passed ('/' :: more))
    (single : more.head? ≠ some '*') (onward : Onward c passed ('/' :: more)) :
    Closes commentTurn s c (passed ++ '/' :: more)
      (blockEnd s.depth passed.length ('/' :: more)) := by
  have moved : Inside (s.pass ['/']) c (passed ++ ['/']) more := inside.pass
  rw [blockEnd_pass _ _ (fun _ => single) (by simp)]
  refine arrives_consume inside.rest ?_
  rw [if_pos rfl]
  refine .bind (takes_eat_of_ne ?_) ?_
  · rwa [moved.rest]
  · exact onward _ ['/'] more (by simp) rfl moved

theorem commentTurn_of_other {d : Char} {more : List Char} (inside : Inside s c passed (d :: more))
    (slash : d ≠ '/') (star : d ≠ '*') (onward : Onward c passed (d :: more)) :
    Closes commentTurn s c (passed ++ d :: more) (blockEnd s.depth passed.length (d :: more)) := by
  rw [blockEnd_pass _ _ (fun same => absurd same slash) (fun same => absurd same star)]
  refine arrives_consume inside.rest ?_
  rw [if_neg slash, if_neg star]
  exact onward _ [d] more (by simp) rfl inside.pass

/-- A run of stars as a whole. -/
theorem exists_stars (text : List Char) :
    ∃ more after, text = List.replicate more '*' ++ after ∧ after.head? ≠ some '*' := by
  refine ⟨(text.takeWhile (· == '*')).length, text.dropWhile (· == '*'), ?_, ?_⟩
  · have stars : text.takeWhile (· == '*') = List.replicate _ '*' :=
      List.eq_replicate_of_mem fun c member => beq_iff_eq.1 (of_mem_takeWhile c member)
    rw [← stars, List.takeWhile_append_dropWhile]
  · intro star
    have refused := stops_dropWhile (· == '*') text _ star
    simp at refused

section Stars

variable {more : Nat} {after : List Char}

theorem takes_stars (inside : Inside s c passed ('*' :: (List.replicate more '*' ++ after)))
    (ended : after.head? ≠ some '*') :
    (eatWhile (· == '*')).Takes (s.pass ['*']) more (s.pass (List.replicate (more + 1) '*')) := by
  have left := Stance.rest_cons inside.rest
  have eaten := takes_eatWhile_of_stops (p := (· == '*')) left (by simp) (stops_singleton ended)
  rwa [List.length_replicate, Stance.pass_pass] at eaten

theorem commentTurn_of_stars
    (inside : Inside s c passed ('*' :: (List.replicate more '*' ++ after)))
    (ended : after.head? ≠ some '*') (single : after.head? ≠ some '/')
    (onward : Onward c passed ('*' :: (List.replicate more '*' ++ after))) :
    Closes commentTurn s c (passed ++ '*' :: (List.replicate more '*' ++ after))
      (blockEnd s.depth passed.length ('*' :: (List.replicate more '*' ++ after))) := by
  have moved : Inside (s.pass (List.replicate (more + 1) '*')) c
      (passed ++ List.replicate (more + 1) '*') after := inside.pass
  have later := onward _ (List.replicate (more + 1) '*') after (by simp) rfl moved
  have counted := blockEnd_pass_stars single s.depth (more + 1) passed.length
  rw [List.length_replicate] at later
  rw [List.replicate_succ, List.cons_append] at counted
  rw [counted]
  refine arrives_consume inside.rest ?_
  rw [if_neg (by decide), if_pos rfl]
  refine .bind (takes_stars inside ended) (.bind (takes_eat_of_ne ?_) later)
  rwa [moved.rest]

/-- Stars and a slash close one comment; the walk ends if no other is open. -/
theorem commentTurn_of_close
    (inside : Inside s c passed ('*' :: (List.replicate more '*' ++ '/' :: after)))
    (onward : Onward c passed ('*' :: (List.replicate more '*' ++ '/' :: after))) :
    Closes commentTurn s c (passed ++ '*' :: (List.replicate more '*' ++ '/' :: after))
      (blockEnd s.depth passed.length ('*' :: (List.replicate more '*' ++ '/' :: after))) := by
  have slash : (s.pass (List.replicate (more + 1) '*')).rest = '/' :: after :=
    Stance.rest_pass inside.rest
  obtain ⟨span, spanned⟩ : ∃ span, span = List.replicate (more + 1) '*' ++ ['/'] := ⟨_, rfl⟩
  have whole : '*' :: (List.replicate more '*' ++ '/' :: after) = span ++ after := by
    simp [spanned, List.replicate_succ]
  have length : span.length = more + 2 := by simp [spanned]
  have moved : Inside (s.pass span) c (passed ++ span) after := (whole ▸ inside).pass
  have closed := takes_closeComment moved.nests
  have eaten := takes_eat slash
  rw [Stance.pass_pass, ← spanned] at eaten
  refine arrives_consume inside.rest ?_
  rw [if_neg (by decide), if_pos rfl]
  refine .bind (takes_stars inside (by simp)) (.bind eaten ?_)
  rw [if_pos rfl]
  refine .bind closed ?_
  obtain ⟨depth, deep⟩ := Nat.exists_eq_add_of_le' inside.nests.2.1
  have left : (s.pass span).depth - 1 = depth := by
    show s.depth - 1 = depth
    rw [deep, Nat.add_sub_cancel]
  rw [deep, blockEnd_close_stars, ← length, left]
  by_cases last : depth = 0
  · rw [if_pos last, if_pos (decide_eq_true last)]
    refine arrives_pure ?_
    have taken : (passed ++ (span ++ after)).take (passed.length + span.length) =
        passed ++ span := by
      rw [← List.append_assoc, ← List.length_append, List.take_left]
    show (s.pass span).cursor = c.pass _
    rw [moved.cursor, whole, Option.getD_some, taken]
  · have nests : (s.pass span).Nests depth :=
      moved.nests.fewer (Nat.one_le_iff_ne_zero.2 last) (left ▸ Nat.sub_le _ 1)
    rw [if_neg last, if_neg (by simp [last])]
    exact onward { s.pass span with depth := depth } span after (by simp [spanned]) whole
      ⟨moved.cursor, moved.rest, nests⟩

end Stars

theorem commentTurn_closes (inside : Inside s c passed text) (onward : Onward c passed text) :
    Closes commentTurn s c (passed ++ text) (blockEnd s.depth passed.length text) := by
  match text with
  | [] =>
      refine arrives_consume_of_nil inside.rest ?_
      rw [inside.cursor, List.append_nil]
      exact congrArg c.pass (List.take_length).symm
  | d :: more =>
      by_cases slash : d = '/'
      · subst slash
        by_cases star : more.head? = some '*'
        · obtain ⟨more, rfl⟩ := List.head?_eq_some_iff.1 star
          exact commentTurn_of_open inside onward
        · exact commentTurn_of_slash inside star onward
      · by_cases star : d = '*'
        · subst star
          obtain ⟨stars, after, rfl, ended⟩ := exists_stars more
          by_cases closes : after.head? = some '/'
          · obtain ⟨after, rfl⟩ := List.head?_eq_some_iff.1 closes
            exact commentTurn_of_close inside onward
          · exact commentTurn_of_stars inside ended closes onward
        · exact commentTurn_of_other inside slash star onward

/-- At every turn the counter says how many comments are open. -/
theorem comment_closes {s : Stance} {passed text : List Char} (inside : Inside s c passed text) :
    Closes (enter .comment) s c (passed ++ text) (blockEnd s.depth passed.length text) := by
  have onward : Onward c passed text := by
    intro t span more nonempty whole moved
    have shorter := congrArg List.length whole
    have some_ := List.length_pos_iff.2 nonempty
    have later := comment_closes moved
    rwa [List.append_assoc, ← whole, List.length_append] at later
  refine .enter (commentTurn_closes inside onward) fun h same => ?_
  subst same
  exact inside.nests
termination_by text.length
decreasing_by
  rw [shorter, List.length_append]
  omega

theorem skipBlockComment_arrives (s : Stance) :
    skipBlockComment.Arrives s (blockEnd 1 0 s.rest).isSome
      (s.cursor.pass (s.rest.take ((blockEnd 1 0 s.rest).getD s.rest.length))) := by
  have inside : Inside s.beginning s.cursor [] s.rest :=
    ⟨rfl, rfl, Nat.le_refl _, Nat.le_refl 1, Nat.le_add_right 1 _⟩
  exact .bind (takes_beginComment s) (comment_closes inside)

theorem takes_skipLine (s : Stance) : skipLine.Takes s () (s.pass (line s.rest)) := by
  have whole := List.takeWhile_append_dropWhile (p := (· != '\n')) (l := s.rest)
  have left := Stance.rest_pass whole.symm
  refine .bind (takes_eatWhile _ s) ?_
  unfold line
  cases found : s.rest.dropWhile (· != '\n') with
  | nil =>
      rw [List.take_nil, List.append_nil]
      refine .bind (takes_eat_of_ne ?_) (takes_pure _ _)
      simp [left, found]
  | cons d more =>
      obtain rfl : d = '\n' := by
        have refused := stops_dropWhile (· != '\n') s.rest d (by rw [found]; rfl)
        simpa using refused
      rw [found] at left
      rw [← Stance.pass_pass]
      exact .bind (takes_eat left) (takes_pure _ _)

theorem slash_arrives {more : List Char} (ahead : s.rest = '/' :: more) (start : Location) :
    (slash start).Arrives s (s.cursor.scan start .slash).1 (s.cursor.scan start .slash).2 := by
  have left := Stance.rest_cons ahead
  have front : s.cursor.rest = '/' :: more := ahead
  refine .bind (takes_advance ahead) ?_
  by_cases line : more.head? = some '/'
  · obtain ⟨text, rfl⟩ := List.head?_eq_some_iff.1 line
    have behind := Stance.rest_cons left
    rw [Cursor.scan_slash_of_gap front (read_line text)]
    refine .bind (takes_eat left) (.bind (takes_skipLine _) (arrives_pure ?_))
    rw [behind, Stance.pass_pass, Stance.pass_pass]
    rfl
  · by_cases block : more.head? = some '*'
    · obtain ⟨text, rfl⟩ := List.head?_eq_some_iff.1 block
      have behind := Stance.rest_cons left
      obtain ⟨s', skipped, there⟩ := skipBlockComment_arrives ((s.pass ['/']).pass ['*'])
      rw [behind] at skipped there
      rw [Stance.pass_pass, Stance.pass_cursor, Cursor.pass_pass] at there
      refine .bind (takes_eat_of_ne (by simp [left])) (.bind (takes_eat left) (.bind skipped ?_))
      cases ended : blockEnd 1 0 text with
      | none =>
          rw [ended, Option.getD_none, List.take_length] at there
          rw [Cursor.scan_slash_of_token front (read_of_open ended)]
          exact arrives_pure there
      | some length =>
          rw [ended, Option.getD_some] at there
          rw [Cursor.scan_slash_of_gap front (read_of_blockEnd ended)]
          exact arrives_pure there
    · rw [Cursor.scan_slash_of_token front (read_slash line block)]
      rw [← left] at line block
      exact .bind (takes_eat_of_ne line) (.bind (takes_eat_of_ne block) (arrives_pure rfl))

end Comments

end Walk

end TeamScript
