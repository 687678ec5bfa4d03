/-
# TeamScript.Proofs.Machine.Numeral -- the walk through a numeral

A numeral is walked through from a mark: what has been consumed since then is its
text, and it is told only at the end.  So each lemma speaks of the part behind the
mark and of the text behind that part, which decides how the walk goes on: by its
first character where the walk looks at one (`arrives_look`), by the exponent in
front where it reads one (`takes_eatExponent`).

`finishNumeral_arrives` follows the walk behind a mantissa, `numeral_arrives` from
the mark on.
-/
import TeamScript.Proofs.Machine.Readers

namespace TeamScript.Walk

set_option autoImplicit false

open Numeral

variable {α : Type} {a : α} {s s' : Stance} {c : Cursor}

/-! ## Looking ahead -/

/-- A class without the sentinel tells what is in front, and nothing if the text has ended. -/
theorem arrives_look {p : Char → Bool} (foreign : p sentinel = false) {yes no : Walk α}
    (later : (if s.rest.head?.any p = true then yes else no).Arrives s a c) :
    (peek >>= fun d => if p d = true then yes else no).Arrives s a c := by
  refine .bind (takes_peekAt 0 s) ?_
  have seen : p (s.cursor.peekAt 0) = s.rest.head?.any p := Cursor.class_peek foreign s.cursor
  rwa [seen]

theorem isEmpty_digits (text : List Char) : (digits text).isEmpty = !text.head?.any isDigit := by
  cases text with
  | nil => rfl
  | cons d more => cases digit : isDigit d <;> simp [digits, digit]

/-! ## Exponents -/

theorem takes_sign (s : Stance) : ∃ signed, (eatAny signs).Takes s signed (s.pass (sign s.rest)) := by
  have same (d : Char) : signs.contains d = isSign d := by
    simp only [signs, isSign, List.contains_cons, List.contains_nil, Bool.or_false]
  cases ahead : s.rest with
  | nil =>
      refine ⟨false, takes_eatIf_of_stops ?_⟩
      simp [ahead]
  | cons d more =>
      cases signed : isSign d with
      | true =>
          refine ⟨true, ?_⟩
          rw [sign, if_pos signed]
          exact takes_eatIf ahead ((same d).trans signed)
      | false =>
          refine ⟨false, ?_⟩
          rw [sign, signed, if_neg Bool.false_ne_true]
          refine takes_eatIf_of_stops ?_
          rw [ahead, List.head?_cons, stops_some, same, signed]

theorem takes_digits (s : Stance) :
    (eatWhile isDigit).Takes s (digits s.rest).length (s.pass (digits s.rest)) :=
  takes_eatWhile isDigit s

section Exponent

variable {e : Exponent} {text rest : List Char}

theorem unmarked_of_none (missing : exponent? text = none) :
    text.head?.any isExponentMark = false := by
  have stops := exponent?_eq_none_iff.1 missing
  cases next : text.head? with
  | none => rfl
  | some d => exact stops d next

theorem marked_of_some (found : exponent? text = some (e, rest)) :
    text.head?.any isExponentMark = true := by
  rw [← exponent?_append found]
  exact (exponent?_formed found).1.mark

theorem takes_eatMark (found : exponent? s.rest = some (e, rest)) :
    eatMark.Takes s () (s.pass (e.mark :: e.sign)) := by
  cases ahead : s.rest with
  | nil =>
      rw [ahead] at found
      cases found
  | cons d more =>
      rw [ahead, exponent?] at found
      split at found
      · cases found
        obtain ⟨b, signed⟩ := takes_sign (s.pass [d])
        rw [Stance.rest_cons ahead, Stance.pass_pass] at signed
        exact .bind (takes_advance ahead) (.bind signed (takes_pure _ _))
      · cases found

/-- Behind the mark and the sign of an exponent stand its digits. -/
theorem rest_behind_mark (found : exponent? s.rest = some (e, rest)) :
    (s.pass (e.mark :: e.sign)).rest = e.digits ++ rest := by
  refine Stance.rest_pass ?_
  rw [← exponent?_append found, Exponent.text]
  simp

theorem takes_power (found : exponent? s.rest = some (e, rest)) :
    (eatWhile isDigit).Takes (s.pass (e.mark :: e.sign)) e.digits.length (s.pass e.text) := by
  obtain ⟨formed, ends⟩ := exponent?_formed found
  have eaten := takes_eatWhile_of_stops (rest_behind_mark found) formed.digits ends.digit
  rwa [Stance.pass_pass] at eaten

theorem takes_eatExponent (found : exponent? s.rest = some (e, rest)) :
    eatExponent.Takes s () (s.pass e.text) :=
  .bind (takes_eatMark found) (.bind (takes_power found) (takes_pure _ _))

end Exponent

/-! ## Behind the mantissa -/

theorem faulty_arrives (fault : String → Fault) {span more : List Char}
    (ahead : s.rest = span ++ more) (start : Location) :
    (faulty fault start).Arrives (s.marking.pass span) ((fault (String.ofList span)).token start)
      (s.cursor.pass span) :=
  .bind (takes_textSince ahead) (arrives_pure rfl)

theorem classified_arrives (shape : Mantissa) (exponent : Bool) {span more : List Char}
    (ahead : s.rest = span ++ more) (start : Location) :
    (classified shape exponent start).Arrives (s.marking.pass span)
      (classify shape exponent (String.ofList span) start) (s.cursor.pass span) :=
  .bind (takes_textSince ahead) (arrives_pure rfl)

/-- An exponent without digits is a fault, and takes one letter along. -/
theorem finishExponent_of_bare (shape : Mantissa) {mantissa text rest : List Char} {e : Exponent}
    (ahead : s.rest = mantissa ++ text) (found : exponent? text = some (e, rest))
    (bare : e.digits = []) (start : Location) :
    (finishExponent shape start).Arrives (s.marking.pass mantissa)
      ((Fault.badExponent (String.ofList (mantissa ++ e.text ++ letter rest))).token start)
      (s.cursor.pass (mantissa ++ e.text ++ letter rest)) := by
  have left : (s.marking.pass mantissa).rest = text := Stance.rest_pass ahead
  rw [← left] at found
  have behind := rest_behind_mark found
  have text_ : e.text = e.mark :: e.sign := by rw [Exponent.text, bare, List.append_nil]
  have whole : s.rest = mantissa ++ e.text ++ rest := by
    rw [ahead, ← left, ← exponent?_append found, List.append_assoc]
  have noDigit : rest.head?.any isDigit = false := by
    have stops := (exponent?_formed found).2.digit
    cases rest with
    | nil => rfl
    | cons d more => simpa using stops
  rw [bare, List.nil_append] at behind
  have marked := takes_eatMark found
  rw [← text_, Stance.pass_pass] at marked behind
  refine .bind marked (arrives_look rfl ?_)
  rw [behind, noDigit, if_neg Bool.false_ne_true]
  refine arrives_look rfl ?_
  rw [behind]
  cases rest with
  | nil =>
      rw [letter, List.append_nil]
      exact faulty_arrives _ whole start
  | cons d more =>
      rw [letter, List.head?_cons, Option.any_some]
      cases one : isLetter d with
      | true =>
          rw [if_pos rfl, if_pos rfl]
          refine .bind (takes_advance behind) ?_
          rw [Stance.pass_pass]
          exact faulty_arrives _ (by simpa using whole) start
      | false =>
          rw [if_neg Bool.false_ne_true, if_neg Bool.false_ne_true, List.append_nil]
          exact faulty_arrives _ whole start

theorem finishExponent_of_power (shape : Mantissa) {mantissa text rest : List Char} {e : Exponent}
    (ahead : s.rest = mantissa ++ text) (found : exponent? text = some (e, rest))
    (power : e.digits ≠ []) (start : Location) :
    (finishExponent shape start).Arrives (s.marking.pass mantissa)
      (classify shape true (String.ofList (mantissa ++ e.text)) start)
      (s.cursor.pass (mantissa ++ e.text)) := by
  have left : (s.marking.pass mantissa).rest = text := Stance.rest_pass ahead
  rw [← left] at found
  have whole : s.rest = mantissa ++ e.text ++ rest := by
    rw [ahead, ← left, ← exponent?_append found, List.append_assoc]
  have digit : (e.digits ++ rest).head?.any isDigit = true := by
    obtain ⟨d, more, digits⟩ := List.exists_cons_of_ne_nil power
    have inside := (exponent?_formed found).1.digits d
    rw [digits] at inside ⊢
    simpa using inside
  have eaten := takes_power found
  rw [Stance.pass_pass (b := e.text)] at eaten
  refine .bind (takes_eatMark found) (arrives_look rfl ?_)
  rw [rest_behind_mark found, digit, if_pos rfl]
  exact .bind eaten (classified_arrives shape true whole start)

theorem finishExponent_arrives {shape : Mantissa} (complete : shape ≠ .dangling)
    {mantissa text rest : List Char} {e : Exponent} (ahead : s.rest = mantissa ++ text)
    (found : exponent? text = some (e, rest)) (start : Location) :
    (finishExponent shape start).Arrives (s.marking.pass mantissa)
      ((finish shape mantissa text).token start)
      (s.cursor.pass (finish shape mantissa text).span) := by
  unfold finish
  rw [found]
  cases digits : e.digits with
  | nil =>
      have arrives := finishExponent_of_bare shape ahead found digits start
      cases shape with
      | dangling => exact absurd rfl complete
      | _ =>
          dsimp only
          rw [digits, List.isEmpty_nil, if_pos rfl]
          exact arrives
  | cons d more =>
      have power : e.digits ≠ [] := by simp [digits]
      have arrives := finishExponent_of_power shape ahead found power start
      cases shape with
      | dangling => exact absurd rfl complete
      | _ =>
          dsimp only
          rw [digits, if_neg (by simp)]
          exact arrives

theorem finishNumeral_arrives (shape : Mantissa) {mantissa text : List Char}
    (ahead : s.rest = mantissa ++ text) (start : Location) :
    (finishNumeral shape start).Arrives (s.marking.pass mantissa)
      ((finish shape mantissa text).token start)
      (s.cursor.pass (finish shape mantissa text).span) := by
  have left : (s.marking.pass mantissa).rest = text := Stance.rest_pass ahead
  cases found : exponent? text with
  | none =>
      refine arrives_look rfl ?_
      rw [left, unmarked_of_none found, if_neg Bool.false_ne_true]
      have told := classified_arrives shape false ahead start
      unfold finish
      rw [found]
      cases shape <;> exact told
  | some er =>
      obtain ⟨e, rest⟩ := er
      refine arrives_look rfl ?_
      rw [left, marked_of_some found, if_pos rfl]
      by_cases dangling : shape = .dangling
      · have eaten := takes_eatExponent (left ▸ found)
        have whole : s.rest = mantissa ++ e.text ++ rest := by
          rw [ahead, ← exponent?_append found, List.append_assoc]
        rw [Stance.pass_pass] at eaten
        subst dangling
        rw [if_pos rfl]
        unfold finish
        rw [found]
        exact .bind eaten (faulty_arrives _ whole start)
      · rw [if_neg dangling]
        exact finishExponent_arrives dangling ahead found start

/-! ## From the mark on -/

theorem numeral_of_dot {more : List Char} (ahead : s.rest = '.' :: more) (start : Location) :
    (numeral start).Arrives s ((readDot more).token start) (s.cursor.pass (readDot more).span) := by
  have left : (s.marking.pass ['.']).rest = more := Stance.rest_pass ahead
  refine .bind (takes_mark s) (.bind (takes_peek (s := s.marking) ahead) ?_)
  rw [if_pos rfl]
  refine .bind (takes_advance (s := s.marking) ahead) (arrives_look rfl ?_)
  have look := isEmpty_digits more
  unfold readDot
  rw [left]
  cases digit : more.head?.any isDigit with
  | true =>
      have some_ : (digits more).isEmpty = false := by rw [look, digit]; rfl
      have eaten := takes_digits (s.marking.pass ['.'])
      have whole : s.rest = ('.' :: digits more) ++ afterDigits more := by
        rw [ahead, List.cons_append, digits_append]
      rw [left, Stance.pass_pass] at eaten
      rw [some_, if_pos rfl, if_neg Bool.false_ne_true]
      exact .bind eaten (finishNumeral_arrives .fractional whole start)
  | false =>
      have none_ : (digits more).isEmpty = true := by rw [look, digit]; rfl
      rw [none_, if_neg Bool.false_ne_true, if_pos rfl]
      refine arrives_look rfl ?_
      rw [left]
      cases found : exponent? more with
      | none =>
          rw [unmarked_of_none found, if_neg Bool.false_ne_true]
          refine .bind (takes_restore s ['.']) ?_
          exact .bind (takes_advance (s := s.marking) ahead) (arrives_pure rfl)
      | some er =>
          obtain ⟨e, rest⟩ := er
          have eaten := takes_eatExponent (left ▸ found)
          have whole : s.rest = ('.' :: e.text) ++ rest := by
            rw [ahead, List.cons_append, exponent?_append found]
          rw [Stance.pass_pass] at eaten
          rw [marked_of_some found, if_pos rfl]
          exact .bind eaten (faulty_arrives _ whole start)

/-- Behind the digits in front and a dot that no other dot follows. -/
theorem fraction_arrives {run more : List Char} (ahead : s.rest = run ++ '.' :: more)
    (single : more.head? ≠ some '.') (start : Location) :
    (eatWhile isDigit >>= fun count =>
      if 0 < count then finishNumeral .fractional start
      else finishNumeral .dangling start).Arrives (s.marking.pass (run ++ ['.']))
      ((readWhole run ('.' :: more)).token start)
      (s.cursor.pass (readWhole run ('.' :: more)).span) := by
  have left : (s.marking.pass (run ++ ['.'])).rest = more :=
    Stance.rest_pass (ahead.trans (by simp))
  have eaten := takes_digits (s.marking.pass (run ++ ['.']))
  have whole : s.rest = (run ++ '.' :: digits more) ++ afterDigits more := by
    simpa [digits_append] using ahead
  rw [left, Stance.pass_pass, List.append_assoc, List.singleton_append] at eaten
  refine .bind eaten ?_
  rw [readWhole_dot single]
  cases digits : digits more with
  | nil =>
      rw [digits] at whole
      rw [if_neg (by simp), List.isEmpty_nil, if_pos rfl]
      exact finishNumeral_arrives .dangling whole start
  | cons d others =>
      rw [digits] at whole
      rw [if_pos (by simp), if_neg (by simp)]
      exact finishNumeral_arrives .fractional whole start

theorem numeral_of_digit {first : Char} {more : List Char} (ahead : s.rest = first :: more)
    (digit : isDigit first = true) (start : Location) :
    (numeral start).Arrives s
      ((readWhole (digits (first :: more)) (afterDigits (first :: more))).token start)
      (s.cursor.pass (readWhole (digits (first :: more)) (afterDigits (first :: more))).span) := by
  have dot : first ≠ '.' := ne_of_class digit (by decide)
  have whole : s.rest = digits (first :: more) ++ afterDigits (first :: more) := by
    rw [ahead, digits_append]
  have eaten : (eatWhile isDigit).Takes s.marking _ (s.marking.pass (digits s.rest)) :=
    takes_digits s.marking
  have left : (s.marking.pass (digits s.rest)).rest = afterDigits s.rest :=
    Stance.rest_pass (digits_append s.rest).symm
  refine .bind (takes_mark s) (.bind (takes_peek (s := s.marking) ahead) ?_)
  rw [if_neg dot]
  refine .bind (takes_peek (s := s.marking) ahead) ?_
  rw [if_pos digit]
  refine .bind eaten ?_
  rw [ahead] at left ⊢
  generalize digits (first :: more) = run at whole left ⊢
  generalize afterDigits (first :: more) = behind at whole left ⊢
  by_cases one : behind.head? = some '.'
  · obtain ⟨behind, rfl⟩ := List.head?_eq_some_iff.1 one
    have leftDot := Stance.rest_cons left
    rw [Stance.pass_pass] at leftDot
    refine .bind (takes_eat left) ?_
    rw [if_pos rfl, Stance.pass_pass]
    by_cases two : behind.head? = some '.'
    · obtain ⟨behind, rfl⟩ := List.head?_eq_some_iff.1 two
      have leftDots := Stance.rest_cons leftDot
      have more := takes_digits ((s.marking.pass (run ++ ['.'])).pass ['.'])
      have span : run ++ ['.'] ++ ['.'] ++ digits behind = run ++ '.' :: '.' :: digits behind := by
        simp
      have split : s.rest = (run ++ '.' :: '.' :: digits behind) ++ afterDigits behind := by
        simp [whole, digits_append]
      rw [leftDots, Stance.pass_pass, Stance.pass_pass, span] at more
      refine .bind (takes_eat leftDot) ?_
      rw [if_pos rfl, Stance.pass_pass]
      exact .bind more (faulty_arrives _ split start)
    · refine .bind (takes_eat_of_ne (leftDot ▸ two)) ?_
      exact fraction_arrives whole two start
  · refine .bind (takes_eat_of_ne (left ▸ one)) ?_
    rw [readWhole_bare one]
    exact finishNumeral_arrives .whole whole start

theorem numeral_arrives {first : Char} {more : List Char} (ahead : s.rest = first :: more)
    (start : Location) :
    (numeral start).Arrives s ((Numeral.read s.rest).token start)
      (s.cursor.pass (Numeral.read s.rest).span) := by
  rw [ahead, Numeral.read]
  by_cases dot : first = '.'
  · subst dot
    rw [if_pos rfl]
    exact numeral_of_dot ahead start
  · rw [if_neg dot]
    by_cases digit : isDigit first = true
    · rw [if_pos digit]
      exact numeral_of_digit ahead digit start
    · rw [if_neg digit]
      refine .bind (takes_mark s) (.bind (takes_peek (s := s.marking) ahead) ?_)
      rw [if_neg dot]
      refine .bind (takes_peek (s := s.marking) ahead) ?_
      rw [if_neg digit]
      exact .bind (takes_advance (s := s.marking) ahead) (arrives_pure rfl)

end TeamScript.Walk
