/-
# TeamScript.Proofs.ConsoleText -- the text that a console takes

`rawLines` cuts the bytes at a console behind their line feeds, so that no byte is
lost (`flatten_rawLines`).  `typed` is the part in front of the closing line, byte
for byte.

`read_eq`: the console reads what was typed and nothing else, and what it takes is
the text of these bytes with two things changed: a carriage return at the end of a
line is dropped, and a last line without a line feed gets one.
-/
import Mathlib.Data.List.TakeWhile
import TeamScript.Proofs.LineEnds
import TeamScript.Proofs.Utf8

namespace TeamScript

set_option autoImplicit false

/-- The text with a line feed behind its last line. -/
def endLine (text : List Char) : List Char :=
  if text = [] ∨ text.getLast? = some '\n' then text else text ++ ['\n']

/-! ## Lines of a text -/

theorem endLine_append (above below : List Char) :
    endLine (above ++ '\n' :: below) = above ++ '\n' :: endLine below := by
  cases below with
  | nil => simp [endLine]
  | cons c below =>
      by_cases last : (c :: below).getLast? = some '\n'
      · simp [endLine, last]
      · simp [endLine, last]

theorem dropReturns_cons {c : Char} {text : List Char} (other : c = '\r' → text.head? ≠ some '\n') :
    dropReturns (c :: text) = c :: dropReturns text := by
  rw [dropReturns]
  rintro more rfl rfl
  exact other rfl rfl

/-- A line keeps its carriage returns, but for one between it and a line feed. -/
theorem dropReturns_append {line tail : List Char} (within : '\n' ∉ line)
    (border : line.getLast? = some '\r' → tail.head? ≠ some '\n') :
    dropReturns (line ++ tail) = line ++ dropReturns tail := by
  induction line with
  | nil => rfl
  | cons c line ih =>
      rw [List.mem_cons, not_or] at within
      cases line with
      | nil =>
          apply dropReturns_cons
          rintro rfl
          exact border rfl
      | cons d line =>
          rw [List.cons_append, dropReturns_cons, ih within.2]
          · rfl
          · intro last
            exact border (by simpa using last)
          · intro _ feed
            cases feed
            exact within.2 List.mem_cons_self

theorem count_dropReturns (text : List Char) :
    (dropReturns text).count '\n' = text.count '\n' := by
  fun_induction dropReturns text with
  | case1 => rfl
  | case2 text ih => simp [ih]
  | case3 c text _ ih => rw [List.count_cons, List.count_cons, ih]

theorem getLast?_dropReturns (text : List Char) : (dropReturns text).getLast? = text.getLast? := by
  fun_induction dropReturns text with
  | case1 => rfl
  | case2 text ih => simp [List.getLast?_cons, ih]
  | case3 c text _ ih => rw [List.getLast?_cons, List.getLast?_cons, ih]

namespace Console

/-! ## Lines of bytes -/

/-- The lines of the bytes, each with the line feed that ends it. -/
def rawLines : Bytes → List Bytes
  | [] => []
  | b :: bytes =>
      if b = lineFeed then [b] :: rawLines bytes
      else
        match rawLines bytes with
        | [] => [[b]]
        | line :: lines => (b :: line) :: lines

/-- A line without its line feed and without a carriage return right before it. -/
def stripped (raw : Bytes) : Bytes :=
  if raw.getLast? = some lineFeed then stripReturn raw.dropLast else raw

/-- The line ends the input. -/
def closes (raw : Bytes) : Bool := (stripped raw).text? == some "END".toList

theorem closes_eq (raw : Bytes) : closes raw = ((stripped raw).text? == some closing) := rfl

/-- The bytes in front of the line that ends the input, or all of them if there is none. -/
def typed (bytes : Bytes) : Bytes :=
  ((rawLines bytes).takeWhile fun raw => !closes raw).flatten

theorem flatten_rawLines (bytes : Bytes) : (rawLines bytes).flatten = bytes := by
  induction bytes with
  | nil => rfl
  | cons b bytes ih =>
      rw [rawLines]
      split
      · simp [ih]
      · split <;> rename_i found <;> rw [found] at ih <;> simp [← ih]

/-- Bytes are nothing, one line without a line feed, or a line in front of other bytes. -/
@[elab_as_elim]
theorem line_induction {P : Bytes → Prop} (nil : P [])
    (last : ∀ line, line ≠ [] → lineFeed ∉ line → P line)
    (more : ∀ line rest, lineFeed ∉ line → P rest → P (line ++ lineFeed :: rest))
    (bytes : Bytes) : P bytes := by
  by_cases feed : lineFeed ∈ bytes
  · obtain ⟨line, rest, whole, within⟩ := List.eq_append_cons_of_mem feed
    rw [whole]
    exact more line rest within (line_induction nil last more rest)
  · by_cases empty : bytes = []
    · rw [empty]
      exact nil
    · exact last bytes empty feed
termination_by bytes.length
decreasing_by
  rw [whole, List.length_append, List.length_cons]
  omega

variable {line rest : Bytes}

theorem rawLines_last (nonempty : line ≠ []) (within : lineFeed ∉ line) :
    rawLines line = [line] := by
  induction line with
  | nil => exact absurd rfl nonempty
  | cons b line ih =>
      rw [List.mem_cons, not_or] at within
      rw [rawLines, if_neg (Ne.symm within.1)]
      cases line with
      | nil => rfl
      | cons c line => rw [ih (by simp) within.2]

theorem rawLines_more (within : lineFeed ∉ line) :
    rawLines (line ++ lineFeed :: rest) = (line ++ [lineFeed]) :: rawLines rest := by
  induction line with
  | nil => rfl
  | cons b line ih =>
      rw [List.mem_cons, not_or] at within
      rw [List.cons_append, rawLines, if_neg (Ne.symm within.1), ih within.2]
      rfl

theorem inside_line (within : lineFeed ∉ line) : ∀ b ∈ line, (b != lineFeed) = true := by
  intro b member
  simpa using ne_of_mem_of_not_mem member within

theorem lines_last (nonempty : line ≠ []) (within : lineFeed ∉ line) : lines line = [line] := by
  obtain ⟨b, more, rfl⟩ := List.exists_cons_of_ne_nil nonempty
  have run := List.takeWhile_eq_self_iff.2 (inside_line within)
  have behind := List.dropWhile_eq_nil_iff.2 (inside_line within)
  rw [lines, run]
  split
  · rfl
  · rename_i other
    rw [behind] at other
    cases other

theorem lines_more (within : lineFeed ∉ line) :
    lines (line ++ lineFeed :: rest) = stripReturn line :: lines rest := by
  have run : (line ++ lineFeed :: rest).takeWhile (· != lineFeed) = line := by
    rw [List.takeWhile_append_of_pos (inside_line within), List.takeWhile_cons_of_neg (by simp),
      List.append_nil]
  have behind : (line ++ lineFeed :: rest).dropWhile (· != lineFeed) = lineFeed :: rest := by
    rw [List.dropWhile_append_of_pos (inside_line within), List.dropWhile_cons_of_neg (by simp)]
  obtain ⟨b, more, front⟩ : ∃ b more, line ++ lineFeed :: rest = b :: more := by
    cases line <;> exact ⟨_, _, rfl⟩
  rw [front] at run behind ⊢
  rw [lines, run]
  split
  · rename_i other
    rw [behind] at other
    cases other
  · rename_i other
    rw [behind] at other
    cases other
    rfl

/-! ## What was typed -/

theorem stripped_last (within : lineFeed ∉ line) : stripped line = line := by
  rw [stripped, if_neg]
  exact fun last => within (List.mem_of_getLast? last)

theorem stripped_more (line : Bytes) : stripped (line ++ [lineFeed]) = stripReturn line := by
  rw [stripped, if_pos List.getLast?_concat, List.dropLast_concat]

theorem typed_last (nonempty : line ≠ []) (within : lineFeed ∉ line) :
    typed line = if line.text? = some closing then [] else line := by
  rw [typed, rawLines_last nonempty within]
  by_cases last : line.text? = some closing
  · simp [closes_eq, stripped_last within, last]
  · simp [closes_eq, stripped_last within, last]

theorem typed_more (within : lineFeed ∉ line) :
    typed (line ++ lineFeed :: rest) =
      if (stripReturn line).text? = some closing then [] else line ++ lineFeed :: typed rest := by
  rw [typed, rawLines_more within]
  by_cases last : (stripReturn line).text? = some closing
  · simp [closes_eq, stripped_more, last]
  · simp [closes_eq, stripped_more, last, typed]

/-- Without a line that ends the input, all bytes are typed. -/
theorem typed_eq_self {bytes : Bytes} (open_ : ∀ raw ∈ rawLines bytes, closes raw = false) :
    typed bytes = bytes := by
  have inside : ∀ raw ∈ rawLines bytes, (!closes raw) = true := by
    intro raw member
    simp [open_ raw member]
  rw [typed, List.takeWhile_eq_self_iff.2 inside, flatten_rawLines]

/-- A line that ends the input is not typed, and nothing behind it is. -/
theorem typed_append_closing {above : Bytes}
    (whole : above = [] ∨ above.getLast? = some lineFeed) (within : lineFeed ∉ line)
    (last : (stripReturn line).text? = some closing) (below : Bytes) :
    typed (above ++ (line ++ lineFeed :: below)) = typed above := by
  induction above using line_induction with
  | nil =>
      rw [List.nil_append, typed_more within, if_pos last]
      rfl
  | last open_ nonempty unended =>
      rcases whole with empty | ended
      · exact absurd empty nonempty
      · exact absurd (List.mem_of_getLast? ended) unended
  | more first above inside ih =>
      have rest : above = [] ∨ above.getLast? = some lineFeed := by
        cases above with
        | nil => exact .inl rfl
        | cons b above => simpa using whole
      rw [List.append_assoc, List.cons_append, typed_more inside, typed_more inside, ih rest]

/-! ## What is read -/

theorem feed_single : Bytes.Single '\n' lineFeed := Bytes.single_of_toNat_eq rfl (by decide)

theorem return_single : Bytes.Single '\r' carriageReturn :=
  Bytes.single_of_toNat_eq rfl (by decide)

theorem feed_not_mem {text : List Char} (within : lineFeed ∉ line)
    (found : line.text? = some text) : '\n' ∉ text := by
  rw [Bytes.text?_eq_some_iff.1 found, feed_single.mem_ofText_iff] at within
  exact within

/-- The text of a line and of what is below it, without carriage returns at line ends. -/
theorem text?_more (within : lineFeed ∉ line) (rest : Bytes) :
    (line ++ lineFeed :: rest).text?.map dropReturns =
      (stripReturn line).text?.bind fun above =>
        rest.text?.map fun below => above ++ '\n' :: dropReturns below := by
  have below : Bytes.text? (lineFeed :: rest) = rest.text?.map fun below => '\n' :: below :=
    feed_single.text?_append_cons [] rest
  by_cases last : line.getLast? = some carriageReturn
  · obtain ⟨front, rfl⟩ := List.getLast?_eq_some_iff.1 last
    have inside : lineFeed ∉ front := fun member => within (List.mem_append_left _ member)
    rw [stripReturn, if_pos last, List.dropLast_concat, List.append_assoc, List.singleton_append,
      return_single.text?_append_cons, below]
    cases found : Bytes.text? front with
    | none => rfl
    | some above =>
        have dropped (tail : List Char) :
            dropReturns (above ++ '\r' :: '\n' :: tail) = above ++ '\n' :: dropReturns tail :=
          dropReturns_append (feed_not_mem inside found) (by simp)
        simp [Function.comp_def, dropped]
  · rw [stripReturn, if_neg last, feed_single.text?_append_cons]
    cases found : Bytes.text? line with
    | none => rfl
    | some above =>
        have kept : above.getLast? ≠ some '\r' := by
          rw [Bytes.text?_eq_some_iff.1 found] at last
          exact fun ends => last (return_single.getLast?_ofText_iff.2 ends)
        have dropped (tail : List Char) :
            dropReturns (above ++ '\n' :: tail) = above ++ '\n' :: dropReturns tail :=
          dropReturns_append (feed_not_mem within found) (fun ends => absurd ends kept)
        simp [Function.comp_def, dropped]

/-- The console takes the text of what was typed, with every line ended by a line feed alone. -/
theorem read_eq (bytes : Bytes) :
    read bytes = match (typed bytes).text? with
      | none => .error .notText
      | some text => .ok (endLine (dropReturns text)) := by
  have empty : Bytes.text? [] = some [] := Bytes.text?_eq_some_iff.2 rfl
  induction bytes using line_induction with
  | nil =>
      rw [typed, rawLines, List.takeWhile_nil, List.flatten_nil, empty, read, lines]
      rfl
  | last line nonempty within =>
      rw [read, lines_last nonempty within, typed_last nonempty within]
      cases found : Bytes.text? line with
      | none => simp [textOfLines, found]
      | some text =>
          by_cases last : text = closing
          · simp [textOfLines, found, last, empty, dropReturns, endLine]
          · have same : dropReturns (text ++ []) = text ++ dropReturns [] :=
              dropReturns_append (feed_not_mem within found) (by simp)
            rw [List.append_nil, dropReturns, List.append_nil] at same
            have lacks : endLine text = text ++ ['\n'] := by
              rw [endLine, if_neg]
              rintro (rfl | feed)
              · exact nonempty (Bytes.text?_eq_some_iff.1 found)
              · exact feed_not_mem within found (List.mem_of_getLast? feed)
            simp [textOfLines, found, last, same, lacks, Except.map]
  | more line rest within ih =>
      rw [read, lines_more within, typed_more within, textOfLines]
      cases found : (stripReturn line).text? with
      | none =>
          have none_ := text?_more within (typed rest)
          rw [found, Option.bind_none, Option.map_eq_none_iff] at none_
          simp [none_]
      | some above =>
          by_cases last : above = closing
          · simp [last, empty, dropReturns, endLine]
          · have whole := text?_more within (typed rest)
            rw [read] at ih
            rw [found, Option.bind_some] at whole
            simp only [last, if_false, ih, Option.some.injEq]
            cases below : (typed rest).text? with
            | none =>
                rw [below, Option.map_none, Option.map_eq_none_iff] at whole
                simp [whole, Except.map]
            | some text =>
                rw [below, Option.map_some, Option.map_eq_some_iff] at whole
                obtain ⟨joined, decoded, dropped⟩ := whole
                simp [decoded, dropped, endLine_append, Except.map]

end Console

end TeamScript
