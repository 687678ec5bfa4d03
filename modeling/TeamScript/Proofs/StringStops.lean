/-
# TeamScript.Proofs.StringStops -- where a string stops and where reading goes on

Three things stop the content of a string: a dollar sign, a line feed, and a
backslash in front of an `n`.  The first stop behind the opening sign
(`isLeast_stopsAt_iff`) decides what the string is.  Only a dollar sign closes
it; behind the other two, reading looks for the next dollar sign or line feed
(`HaltsAt`), and goes on behind that dollar sign or in front of that line feed
(`ResumesAt`, `resumesAt_skipped`).  A backslash that stands anywhere else is
content like any other character, also in front of another backslash.

So what a string holds is clean, all clean text between two dollar signs is read
back as it is, and a broken string reaches over one line feed at most.
-/
import Mathlib.Order.Bounds.Basic
import TeamScript.Cursor.Scan
import TeamScript.Proofs.Grammar.StringLiteral
import TeamScript.Proofs.Layout

namespace TeamScript

set_option autoImplicit false

namespace StringLiteral

/-! ## The first stop -/

/-- What stands at the index stops the content of a string. -/
def StopsAt (text : List Char) (i : Nat) : Prop :=
  text[i]? = some '$' ∨ text[i]? = some '\n' ∨ text[i]? = some '\\' ∧ text[i + 1]? = some 'n'

variable {text : List Char} {i : Nat}

theorem stopsAt_zero_iff : StopsAt text 0 ↔ text ≠ [] ∧ ends text = true := by
  rw [ends_iff]
  cases text with
  | nil => simp [StopsAt]
  | cons c text => cases text <;> simp [StopsAt]

theorem stopsAt_cons_iff {c : Char} : StopsAt (c :: text) (i + 1) ↔ StopsAt text i := by
  simp [StopsAt]

theorem stopsAt_content (some_ : afterContent text ≠ []) : StopsAt text (content text).length := by
  induction text with
  | nil => exact absurd rfl some_
  | cons c text ih =>
      cases stop : ends (c :: text) with
      | true =>
          rw [(content_of_ends stop).1]
          exact stopsAt_zero_iff.2 ⟨List.cons_ne_nil _ _, stop⟩
      | false =>
          rw [(content_cons stop).2] at some_
          rw [(content_cons stop).1, List.length_cons, stopsAt_cons_iff]
          exact ih some_

/-- Nothing in the content is a stop. -/
theorem content_length_le (stop : StopsAt text i) :
    (content text).length ≤ i ∧ afterContent text ≠ [] := by
  induction text generalizing i with
  | nil => simp [StopsAt] at stop
  | cons c text ih =>
      cases front : ends (c :: text) with
      | true =>
          rw [(content_of_ends front).1, (content_of_ends front).2]
          exact ⟨Nat.zero_le i, List.cons_ne_nil _ _⟩
      | false =>
          rw [(content_cons front).1, (content_cons front).2]
          cases i with
          | zero =>
              rw [(stopsAt_zero_iff.1 stop).2] at front
              cases front
          | succ i =>
              obtain ⟨short, some_⟩ := ih (stopsAt_cons_iff.1 stop)
              exact ⟨Nat.succ_le_succ short, some_⟩

/-- The first stop is behind the content, if anything is. -/
theorem isLeast_stopsAt_iff :
    IsLeast {i | StopsAt text i} i ↔ i = (content text).length ∧ afterContent text ≠ [] := by
  constructor
  · rintro ⟨stop, least⟩
    obtain ⟨short, some_⟩ := content_length_le stop
    exact ⟨Nat.le_antisymm (least (stopsAt_content some_)) short, some_⟩
  · rintro ⟨rfl, some_⟩
    exact ⟨stopsAt_content some_, fun _ stop => (content_length_le stop).1⟩

theorem afterContent_of_no_stop (none_ : ∀ i, ¬ StopsAt text i) : afterContent text = [] := by
  apply Classical.byContradiction
  intro some_
  exact none_ _ (stopsAt_content some_)

theorem getElem?_behind (front text : List Char) (k : Nat) :
    (front ++ text)[front.length + k]? = text[k]? := by
  rw [List.getElem?_append_right (Nat.le_add_right _ _), Nat.add_sub_cancel_left]

/-- The character of the first stop. -/
theorem getElem?_content_length (text : List Char) :
    text[(content text).length]? = (afterContent text).head? := by
  have behind := getElem?_behind (content text) (afterContent text) 0
  rwa [content_append, Nat.add_zero, ← List.head?_eq_getElem?] at behind

/-- The content and what a fault or the closing sign adds to it. -/
theorem take_content_length (text : List Char) (k : Nat) :
    text.take ((content text).length + k) = content text ++ (afterContent text).take k := by
  have front := @List.take_length_add_append _ (content text) (afterContent text) k
  rwa [content_append] at front

/-! ## Where reading goes on -/

/-- A place from `m` on where the search for the end of a string comes to a halt. -/
def HaltsAt (text : List Char) (m j : Nat) : Prop :=
  m ≤ j ∧ (text[j]? = some '$' ∨ text[j]? = some '\n')

/-- Where reading goes on after a fault that reaches to `m`: behind a dollar sign or in front of a
line feed, whichever is next, or at the end of the text. -/
inductive ResumesAt (text : List Char) (m : Nat) : Nat → Prop
  | dollar {j : Nat} (first : IsLeast {j | HaltsAt text m j} j) (sign : text[j]? = some '$') :
      ResumesAt text m (j + 1)
  | feed {j : Nat} (first : IsLeast {j | HaltsAt text m j} j) (feed : text[j]? = some '\n') :
      ResumesAt text m j
  | ending (none_ : ∀ j, ¬ HaltsAt text m j) : ResumesAt text m text.length

section Skipping

variable {front inside rest : List Char} {j : Nat}

theorem getElem?_sign (front inside rest : List Char) (c : Char) :
    (front ++ (inside ++ c :: rest))[front.length + inside.length]? = some c := by
  rw [getElem?_behind, ← Nat.add_zero inside.length, getElem?_behind]
  rfl

/-- No place in what a fault skips is a halt. -/
theorem le_of_haltsAt (within : ∀ c ∈ inside, c ≠ '$' ∧ c ≠ '\n')
    (halts : HaltsAt (front ++ (inside ++ rest)) front.length j) :
    front.length + inside.length ≤ j ∧ rest ≠ [] := by
  obtain ⟨behind, sign⟩ := halts
  obtain ⟨k, rfl⟩ := Nat.exists_eq_add_of_le behind
  rw [getElem?_behind] at sign
  rcases Nat.lt_or_ge k inside.length with short | long
  · rw [List.getElem?_append_left short, List.getElem?_eq_getElem short] at sign
    obtain ⟨dollar, feed⟩ := within inside[k] (List.getElem_mem short)
    rcases sign with same | same
    · exact absurd (Option.some.inj same) dollar
    · exact absurd (Option.some.inj same) feed
  · refine ⟨Nat.add_le_add_left long _, ?_⟩
    rintro rfl
    rw [List.append_nil, List.getElem?_eq_none long] at sign
    simp at sign

theorem isLeast_haltsAt {c : Char} (front : List Char)
    (within : ∀ c ∈ inside, c ≠ '$' ∧ c ≠ '\n') (sign : c = '$' ∨ c = '\n') :
    IsLeast {j | HaltsAt (front ++ (inside ++ c :: rest)) front.length j}
      (front.length + inside.length) := by
  refine ⟨⟨Nat.le_add_right _ _, ?_⟩, fun j halts => (le_of_haltsAt within halts).1⟩
  rw [getElem?_sign]
  rcases sign with rfl | rfl
  · exact .inl rfl
  · exact .inr rfl

/-- Reading goes on behind what a fault skips. -/
theorem resumesAt_skipped (front text : List Char) :
    ResumesAt (front ++ text) front.length (front.length + (skipped text).length) := by
  have skips := skips_skipped text
  have whole := skipped_append text
  generalize skipped text = span at skips whole
  generalize resumed text = rest at skips whole
  subst whole
  cases skips with
  | @closed inside _ within =>
      have first := @isLeast_haltsAt inside rest '$' front within (.inl rfl)
      have split : inside ++ ['$'] ++ rest = inside ++ '$' :: rest := by simp
      rw [split, List.length_append, ← Nat.add_assoc]
      exact .dollar first (getElem?_sign front inside rest '$')
  | open_ within stops =>
      cases rest with
      | nil =>
          have none_ : ∀ j, ¬ HaltsAt (front ++ (span ++ [])) front.length j :=
            fun j halts => (le_of_haltsAt within halts).2 rfl
          have ends := ResumesAt.ending none_
          simpa using ends
      | cons c rest =>
          obtain rfl : c = '\n' := stops c rfl
          have first := @isLeast_haltsAt span rest '\n' front within (.inr rfl)
          exact .feed first (getElem?_sign front span rest '\n')

end Skipping

/-- The character of the first stop is the one behind the content. -/
theorem first_stop {d : Char} (first : IsLeast {i | StopsAt text i} i) (stop : text[i]? = some d) :
    ∃ more, i = (content text).length ∧ afterContent text = d :: more := by
  obtain ⟨rfl, -⟩ := isLeast_stopsAt_iff.1 first
  rw [getElem?_content_length] at stop
  obtain ⟨more, front⟩ := List.head?_eq_some_iff.1 stop
  exact ⟨more, rfl, front⟩

/-- A backslash behind the content belongs to an escape. -/
theorem escape_of_ends {behind : List Char} (front : afterContent text = '\\' :: behind) :
    ∃ more, afterContent text = '\\' :: 'n' :: more := by
  have stop := ends_afterContent text
  rw [front, ends_iff] at stop
  simpa [front] using stop

/-- A fault takes the text up to the place where reading goes on. -/
theorem exists_resumesAt {fault more : List Char} (stop : afterContent text = fault ++ more) :
    ∃ e, ResumesAt text ((content text).length + fault.length) e ∧
      text.take e = content text ++ (fault ++ skipped more) := by
  have resumes := resumesAt_skipped (content text ++ fault) more
  have whole : content text ++ fault ++ more = text := by
    rw [List.append_assoc, ← stop, content_append]
  rw [whole, List.length_append] at resumes
  refine ⟨_, resumes, ?_⟩
  have skip := List.prefix_iff_eq_take.1 ⟨resumed more, skipped_append more⟩
  rw [Nat.add_assoc, take_content_length, stop, List.take_length_add_append, ← skip]

/-! ## The tokens of strings -/

theorem kind_read_iff (text : List Char) (start : Location) :
    ((read ('$' :: text)).token start).kind = .string ↔ (afterContent text).head? = some '$' := by
  rcases ends_iff.1 (ends_afterContent text) with nil | ⟨more, dollar⟩ | ⟨more, feed⟩ | ⟨more, escape⟩
  · rw [read_of_nil nil, nil]
    exact ⟨nofun, nofun⟩
  · rw [read_of_dollar dollar, dollar]
    exact ⟨fun _ => rfl, fun _ => rfl⟩
  · rw [read_of_feed feed, feed]
    exact ⟨nofun, nofun⟩
  · rw [read_of_escape escape, escape]
    exact ⟨nofun, nofun⟩

theorem clean_lexeme {start : Location}
    (string : ((read ('$' :: text)).token start).kind = .string) :
    Clean ((read ('$' :: text)).token start).lexeme.toList := by
  obtain ⟨more, stop⟩ := List.head?_eq_some_iff.1 ((kind_read_iff text start).1 string)
  have lexeme : ((read ('$' :: text)).token start).lexeme = String.ofList (content text) := by
    rw [read_of_dollar stop]
    rfl
  rw [lexeme, String.toList_ofList]
  exact clean_content text

/-- A broken string reaches over its own line feed and no other. -/
theorem count_feed_read (text : List Char) : (read ('$' :: text)).span.count '\n' ≤ 1 := by
  have follows := read_follows text
  unfold Reading.Follows at follows
  generalize (read ('$' :: text)).span = span, (read ('$' :: text)).outcome = outcome,
    (read ('$' :: text)).rest.head? = ahead at follows
  cases follows with
  | closed clean => simp [clean.count_feed]
  | cut clean => simp [clean.count_feed]
  | broken clean skips => simp [clean.count_feed, skips.count_feed]
  | escape clean skips => simp [clean.count_feed, skips.count_feed]

end StringLiteral

namespace Cursor

open StringLiteral

variable {c : Cursor} {r more : List Char}

section Opened

variable (opened : c.rest = '$' :: r) (start : Location)

include opened

theorem scan_of_dollar (stop : afterContent r = '$' :: more) :
    c.scan start .string =
      (.token ⟨.string, String.ofList (content r), start⟩, c.pass ('$' :: (content r ++ ['$']))) := by
  rw [scan, opened, read_of_dollar stop]
  rfl

theorem scan_of_feed (stop : afterContent r = '\n' :: more) :
    c.scan start .string = (.token ⟨.error, "unterminated string", start⟩,
      c.pass ('$' :: (content r ++ '\n' :: skipped more))) := by
  rw [scan, opened, read_of_feed stop]
  rfl

theorem scan_of_escape (stop : afterContent r = '\\' :: 'n' :: more) :
    c.scan start .string = (.token ⟨.error, "string contains forbidden \\n", start⟩,
      c.pass ('$' :: (content r ++ '\\' :: 'n' :: skipped more))) := by
  rw [scan, opened, read_of_escape stop]
  rfl

theorem scan_of_no_stop (stop : afterContent r = []) :
    c.scan start .string =
      (.token ⟨.error, "unterminated string", start⟩, c.pass ('$' :: content r)) := by
  rw [scan, opened, read_of_nil stop]
  rfl

end Opened

/-- The first stop behind the opening sign decides.  A dollar sign closes the string; in front of a
line feed or a forbidden escape it is broken, and reading goes on where a dollar sign or a line feed
is next; and without a stop it reaches to the end of the text.  So strings are clean, clean text is
read as it stands, and a broken string reaches over one line feed at most. -/
theorem scan_string_stops (opened : c.rest = '$' :: r) (start : Location) :
    (∀ i, IsLeast {i | StopsAt r i} i →
      (c.scan start .string =
          (.token ⟨.string, String.ofList (r.take i), start⟩, c.pass ('$' :: r.take (i + 1))) ↔
        r[i]? = some '$') ∧
      (r[i]? = some '\n' → ∃ e, ResumesAt r (i + 1) e ∧
        c.scan start .string =
          (.token ⟨.error, "unterminated string", start⟩, c.pass ('$' :: r.take e))) ∧
      (r[i]? = some '\\' → ∃ e, ResumesAt r (i + 2) e ∧
        c.scan start .string =
          (.token ⟨.error, "string contains forbidden \\n", start⟩,
            c.pass ('$' :: r.take e)))) ∧
    ((∀ i, ¬ StopsAt r i) →
      c.scan start .string = (.token ⟨.error, "unterminated string", start⟩, c.pass c.rest)) ∧
    (∃ t span, c.scan start .string = (.token t, c.pass span) ∧
      c.rest = span ++ (c.pass span).rest ∧
      (t.kind = .string ↔ ∃ i, IsLeast {i | StopsAt r i} i ∧ r[i]? = some '$') ∧
      (t.kind = .string → Clean t.lexeme.toList) ∧
      span.count '\n' ≤ 1) ∧
    ∀ content rest, Clean content → r = content ++ '$' :: rest →
      c.scan start .string =
        (.token ⟨.string, String.ofList content, start⟩, c.pass ('$' :: (content ++ ['$']))) := by
  have scanned : c.scan start .string = c.take start (read ('$' :: r)) := by rw [scan, opened]
  refine ⟨fun i first => ⟨⟨fun closed => ?_, fun dollar => ?_⟩, fun feed => ?_, fun escape => ?_⟩,
    fun none_ => ?_, ⟨_, _, scanned, ?_, ?_, clean_lexeme, count_feed_read r⟩, ?_⟩
  · obtain ⟨rfl, -⟩ := isLeast_stopsAt_iff.1 first
    rw [scanned] at closed
    have same := Scanned.token.inj (Prod.mk.inj closed).1
    rw [getElem?_content_length, ← kind_read_iff r start, same]
  · obtain ⟨more, rfl, stop⟩ := first_stop first dollar
    have lexeme := take_content_length r 0
    rw [Nat.add_zero, List.take_zero, List.append_nil] at lexeme
    rw [scan_of_dollar opened start stop, take_content_length, stop, lexeme]
    rfl
  · obtain ⟨more, rfl, stop⟩ := first_stop first feed
    obtain ⟨e, resumes, taken⟩ := @exists_resumesAt r ['\n'] more stop
    refine ⟨e, resumes, ?_⟩
    rw [scan_of_feed opened start stop, taken]
    rfl
  · obtain ⟨behind, rfl, front⟩ := first_stop first escape
    obtain ⟨more, stop⟩ := escape_of_ends front
    obtain ⟨e, resumes, taken⟩ := @exists_resumesAt r ['\\', 'n'] more stop
    refine ⟨e, resumes, ?_⟩
    rw [scan_of_escape opened start stop, taken]
    rfl
  · have stop := afterContent_of_no_stop none_
    have whole := content_append r
    rw [stop, List.append_nil] at whole
    rw [scan_of_no_stop opened start stop, whole, opened]
  · have whole := read_splits ('$' :: r)
    rw [← opened] at whole ⊢
    rw [rest_pass whole.symm, whole]
  · rw [kind_read_iff, ← getElem?_content_length]
    constructor
    · intro dollar
      have some_ : afterContent r ≠ [] := by
        intro nil
        rw [getElem?_content_length, nil] at dollar
        cases dollar
      exact ⟨_, isLeast_stopsAt_iff.2 ⟨rfl, some_⟩, dollar⟩
    · rintro ⟨i, first, dollar⟩
      obtain ⟨rfl, -⟩ := isLeast_stopsAt_iff.1 first
      exact dollar
  · rintro content rest clean rfl
    obtain ⟨inner, stop⟩ := content_append_of_clean clean ('$' :: rest) rfl
    rw [scan_of_dollar opened start stop, inner]

/-- Backslashes in front of another one and of the closing sign, and a string that a line feed
breaks. -/
theorem scan_string_stops_broken :
    (mk "7$a\\\\$b".toList ⟨1, ⟨1, 2⟩⟩).scan ⟨1, 2⟩ .string =
        (.token ⟨.string, "a\\\\", ⟨1, 2⟩⟩, .mk "7$a\\\\$b".toList ⟨6, ⟨1, 7⟩⟩) ∧
      IsLeast {i | StopsAt "a\nb$c\n".toList i} 1 ∧
      ∃ e, ResumesAt "a\nb$c\n".toList 2 e ∧
        (ofText "$a\nb$c\n".toList).scan .start .string =
          (.token ⟨.error, "unterminated string", .start⟩,
            (ofText "$a\nb$c\n".toList).pass ('$' :: "a\nb$c\n".toList.take e)) := by
  have clean : Clean "a\\\\".toList := ⟨by decide, by decide, by decide⟩
  have first : IsLeast {i | StopsAt "a\nb$c\n".toList i} 1 :=
    isLeast_stopsAt_iff.2 ⟨by decide, by decide⟩
  obtain ⟨-, -, -, closed⟩ :=
    @scan_string_stops (mk "7$a\\\\$b".toList ⟨1, ⟨1, 2⟩⟩) "a\\\\$b".toList rfl ⟨1, 2⟩
  obtain ⟨stops, -, -, -⟩ :=
    @scan_string_stops (ofText "$a\nb$c\n".toList) "a\nb$c\n".toList rfl .start
  exact ⟨closed _ ['b'] clean rfl, first, (stops 1 first).2.1 rfl⟩

end Cursor

end TeamScript
