/-
# TeamScript.Proofs.Machine.Search -- the search for the next token

The walk for the next token finds what a lexer at the same place finds, and arrives
where that lexer then is (`Walk.Finds`).  A turn of the walk skips the blanks and
either meets a gap, behind which it is as far as the lexer (`finds_behind_gap`), or
asks the reader of the token in front (`finds_reading`).  Which of these it is
depends on the first character, and each turn leaves less text
(`nextToken_finds`).
-/
import TeamScript.Proofs.Calls
import TeamScript.Proofs.Machine.Numeral

namespace TeamScript

set_option autoImplicit false

/-! ## A lexer in the place of a cursor -/

namespace Lexer

theorem step_of_seek {l l' : Lexer} (same : l.seek = l'.seek) : l.step = l'.step := by
  rw [step, step, same]

/-- Blanks in front make no difference to what is found. -/
theorem seek_of_blanks {l : Lexer} {run rest : List Char} (ahead : l.rest = run ++ rest)
    (blank : ∀ c ∈ run, isBlank c = true) : l.seek = (l.pass run rest).seek := by
  induction run generalizing l with
  | nil =>
      have same : l.rest = rest := ahead
      rw [← same, pass_nil]
  | cons c run ih =>
      obtain ⟨first, others⟩ := List.forall_mem_cons.1 blank
      have sought := ih (l := l.pass [c] (run ++ rest)) rfl others
      have front : l.rest = c :: (run ++ rest) := ahead
      rw [seek_of_gap front (Piece.read_blank first _), sought, pass_pass]
      rfl

end Lexer

/-- A lexer that stands where the cursor does. -/
def Cursor.lexer (policy : Policy) (c : Cursor) : Lexer :=
  ⟨policy, c.rest, c.offset, c.location, false⟩

theorem Cursor.lexer_pass {c : Cursor} {span more : List Char} (ahead : c.rest = span ++ more)
    (policy : Policy) : (c.pass span).lexer policy = (c.lexer policy).pass span more := by
  rw [lexer, rest_pass ahead]
  rfl

/-- The walk answers with the lexer's next token and arrives where the lexer then is. -/
def Walk.Finds (policy : Policy) (w : Walk Token) (s : Stance) : Prop :=
  ∃ s', w.Takes s (s.cursor.lexer policy).step.token s' ∧
    s'.cursor.lexer policy = (s.cursor.lexer policy).step.next

namespace Walk

variable {α : Type} {policy : Policy} {w : Walk α} {f : α → Walk Token} {a : α} {s s' : Stance}

/-- A part of the walk after which the lexer would still find the same. -/
theorem Finds.bind (first : w.Takes s a s')
    (same : (s.cursor.lexer policy).step = (s'.cursor.lexer policy).step)
    (later : (f a).Finds policy s') : (w >>= f).Finds policy s := by
  obtain ⟨s'', takes, there⟩ := later
  rw [← same] at takes there
  exact ⟨s'', first.bind takes, there⟩

section Front

variable {c : Char} {more : List Char}

/-- The reader that is asked for the token in front finds it. -/
theorem finds_reading {w : Walk Token} {r : Reading} (ahead : s.rest = c :: more)
    (found : Piece.read policy c more = .token r)
    (arrives : w.Arrives s (r.token s.cursor.location) (s.cursor.pass r.span)) :
    w.Finds policy s := by
  obtain ⟨s', takes, there⟩ := arrives
  have splits := Piece.read_splits policy c more
  rw [found, ← ahead] at splits
  have sought := Lexer.seek_of_token (l := s.cursor.lexer policy) ahead found
  rw [Finds, Lexer.step, sought]
  refine ⟨s', takes, ?_⟩
  rw [there]
  exact Cursor.lexer_pass splits.symm policy

theorem step_behind_gap {span rest : List Char} (ahead : s.rest = c :: more)
    (found : Piece.read policy c more = .gap span rest) (there : s'.cursor = s.cursor.pass span) :
    (s.cursor.lexer policy).step = (s'.cursor.lexer policy).step := by
  have splits := Piece.read_splits policy c more
  rw [found, ← ahead] at splits
  apply Lexer.step_of_seek
  rw [Lexer.seek_of_gap (l := s.cursor.lexer policy) ahead found, there]
  exact congrArg Lexer.seek (Cursor.lexer_pass splits.symm policy).symm

end Front

/-! ## Names and numerals -/

/-- Where there is no name, the token is that of the numeral. -/
theorem readNameOrNumeral_of_none {text : List Char} (missing : Name.read? text = none)
    (start : Location) :
    (Piece.readNameOrNumeral text).token start = (Numeral.read text).token start ∧
      (Piece.readNameOrNumeral text).span = (Numeral.read text).span := by
  unfold Piece.readNameOrNumeral
  rw [missing]
  dsimp only
  cases Name.bareCode? text with
  | none => exact ⟨rfl, rfl⟩
  | some code => exact ⟨rfl, rfl⟩

/-- All team codes begin with the same digit. -/
theorem read?_of_ne {c : Char} {more : List Char} (other : c ≠ '1') :
    Name.read? (c :: more) = none := by
  rw [Name.read?_eq_none_iff]
  rintro ⟨code, known, d, behind, same, -⟩
  simp only [List.mem_cons, List.not_mem_nil, or_false] at known
  rcases known with rfl | rfl | rfl <;> exact other (List.cons.inj same).1

/-! ## A turn -/

/-- With less text left, the search finds what the lexer finds. -/
def Shortens (policy : Policy) (s : Stance) : Prop :=
  ∀ t : Stance, t.rest.length < s.rest.length → (nextToken policy).Finds policy t

section Turn

variable {c : Char} {more : List Char}

theorem shorter_behind_gap {span rest : List Char} (ahead : s.rest = c :: more)
    (found : Piece.read policy c more = .gap span rest) (there : s'.cursor = s.cursor.pass span) :
    s'.rest.length < s.rest.length := by
  have splits := Piece.read_splits policy c more
  have shorter := Piece.read_rest_length_lt policy c more
  rw [found, ← ahead] at splits shorter
  have left : s'.rest = rest := by
    show s'.cursor.rest = rest
    rw [there]
    exact Cursor.rest_pass splits.symm
  rwa [left]

theorem slash_finds (ahead : s.rest = '/' :: more) (shortens : Shortens policy s) :
    (slash s.cursor.location >>= (orGoOn · (nextToken policy))).Finds policy s := by
  obtain ⟨s', takes, there⟩ := slash_arrives ahead s.cursor.location
  have front : s.cursor.rest = '/' :: more := ahead
  cases read : Comment.read ('/' :: more) with
  | gap span rest =>
      rw [Cursor.scan_slash_of_gap front read] at takes there
      have found : Piece.read policy '/' more = .gap span rest := read
      refine Finds.bind takes (step_behind_gap ahead found there) ?_
      exact shortens s' (shorter_behind_gap ahead found there)
  | token r =>
      rw [Cursor.scan_slash_of_token front read] at takes there
      have found : Piece.read policy '/' more = .token r := read
      exact finds_reading ahead found (.bind takes (arrives_pure there))

theorem name_finds (ahead : s.rest = '1' :: more) :
    (name s.cursor.location >>= (orGoOn · (numeral s.cursor.location))).Finds policy s := by
  obtain ⟨s', takes, there⟩ := name_arrives s s.cursor.location
  have found := @Piece.read_digit policy '1' rfl more
  have front : s.cursor.rest = '1' :: more := ahead
  refine finds_reading ahead found (.bind takes ?_)
  cases named : Name.read? ('1' :: more) with
  | some r =>
      have scanned : s.cursor.scan s.cursor.location .name = s.cursor.take s.cursor.location r := by
        rw [Cursor.scan, front, named]
      have reading : Piece.readNameOrNumeral ('1' :: more) = r := by
        rw [Piece.readNameOrNumeral, named]
      rw [scanned] at there ⊢
      rw [reading]
      exact arrives_pure there
  | none =>
      have scanned := Cursor.scan_name_of_none s.cursor.location (front ▸ named)
      obtain ⟨token, span⟩ := readNameOrNumeral_of_none named s.cursor.location
      rw [scanned] at there ⊢
      have left : s'.rest = '1' :: more := by
        show s'.cursor.rest = _
        rw [there, front]
      have arrives := numeral_arrives left s.cursor.location
      rwa [left, there, ← token, ← span] at arrives

theorem numeral_finds (ahead : s.rest = c :: more) (one : c ≠ '1')
    (first : isDigit c = true ∨ c = '.') : (numeral s.cursor.location).Finds policy s := by
  have arrives := numeral_arrives ahead s.cursor.location
  rw [ahead] at arrives
  rcases first with digit | rfl
  · obtain ⟨token, span⟩ := readNameOrNumeral_of_none (@read?_of_ne c more one)
      s.cursor.location
    rw [← token, ← span] at arrives
    exact finds_reading ahead (Piece.read_digit digit more) arrives
  · exact finds_reading ahead (Piece.read_dot more) arrives

end Turn

theorem dispatch_finds (stops : Stops isBlank s.rest.head?) (shortens : Shortens policy s) :
    (dispatch policy s.cursor.location).Finds policy s := by
  refine .bind (takes_atEnd s) rfl ?_
  cases ahead : s.rest with
  | nil =>
      have sought := Lexer.seek_of_nil (l := s.cursor.lexer policy) ahead
      rw [if_pos ((Cursor.atEnd_iff _).2 ahead), Finds, Lexer.step, sought]
      exact ⟨s, takes_pure _ s, rfl⟩
  | cons c more =>
      have blank : isBlank c = false := by simpa [ahead] using stops
      rw [Cursor.atEnd_of_cons ahead, if_neg Bool.false_ne_true]
      refine .bind (takes_peek ahead) rfl ?_
      by_cases slash : c = '/'
      · subst slash
        exact slash_finds ahead shortens
      rw [if_neg slash]
      by_cases dollar : c = '$'
      · subst dollar
        have arrives := string_arrives ahead s.cursor.location
        rw [ahead] at arrives
        exact finds_reading ahead (Piece.read_dollar more) arrives
      rw [if_neg dollar]
      by_cases one : c = '1'
      · subst one
        exact name_finds ahead
      rw [if_neg one]
      by_cases letter : isLetter c = true
      · have arrives := word_arrives s s.cursor.location
        rw [ahead] at arrives
        rw [if_pos letter]
        exact finds_reading ahead (Piece.read_letter letter more) arrives
      rw [if_neg letter]
      by_cases digit : isDigit c = true ∨ c = '.'
      · rw [if_pos digit]
        exact numeral_finds ahead one digit
      rw [if_neg digit]
      by_cases first : isOperatorStart c = true
      · have arrives := operator_arrives ahead s.cursor.location
        rw [ahead] at arrives
        rw [if_pos first]
        exact finds_reading ahead (Piece.read_operator first more) arrives
      rw [if_neg first]
      by_cases skips : policy.skips c = true
      · have found := Piece.read_punctuation skips more
        have advanced := takes_advance ahead
        rw [if_pos skips]
        refine .bind advanced (step_behind_gap ahead found rfl) ?_
        exact shortens _ (shorter_behind_gap ahead found rfl)
      rw [if_neg skips]
      have unknown : policy.knows c = false := by
        rw [not_or] at digit
        simp [Policy.knows, blank, slash, dollar, digit, letter, first, skips]
      exact finds_reading ahead (Piece.read_unknown unknown more)
        (.bind (takes_advance ahead) (arrives_pure rfl))

/-- The search finds what the lexer finds, from wherever it begins. -/
theorem nextToken_finds (policy : Policy) (s : Stance) : (nextToken policy).Finds policy s := by
  have whole := List.takeWhile_append_dropWhile (p := isBlank) (l := s.rest)
  have same := Lexer.seek_of_blanks (l := s.cursor.lexer policy) whole.symm of_mem_takeWhile
  have stops := stops_dropWhile isBlank s.rest
  have skipped := takes_eatWhile isBlank s
  have left := Stance.rest_pass whole.symm
  rw [← Cursor.lexer_pass whole.symm] at same
  rw [← left] at stops
  have shortens : Shortens policy (s.pass (s.rest.takeWhile isBlank)) := by
    intro t shorter
    have closer : t.rest.length < s.rest.length := by
      rw [left] at shorter
      exact Nat.lt_of_lt_of_le shorter (List.dropWhile_sublist isBlank).length_le
    exact nextToken_finds policy t
  have turn : (dispatchTurn policy).Finds policy s :=
    .bind skipped (Lexer.step_of_seek same) (.bind (takes_location _) rfl (dispatch_finds stops shortens))
  obtain ⟨s', takes, there⟩ := turn
  exact ⟨s', .enter takes fun _ _ => trivial, there⟩
termination_by s.rest.length
decreasing_by exact closer

end Walk

end TeamScript
