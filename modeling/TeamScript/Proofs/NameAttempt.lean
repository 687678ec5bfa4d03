/-
# TeamScript.Proofs.NameAttempt -- an attempt at a name, move by move

Whether a team code begins a name shows only behind it.  `Cursor.attempt` is the
attempt as a walk: it looks for a code, consumes it, looks at one character more
and then goes on to the end of the name, or back to where it was.  Looking may
reach behind the end of the text, where the sentinel is neither part of a code
nor the start of a body, so the walk arrives where the reader of names does
(`attempt_eq`).

A name is the longest text in front that consists of a code and a body
(`longest_coded`).  Without a name in front the walk ends where it began, and
nothing that is done next can tell that there was an attempt.
-/
import Mathlib.Data.List.Find
import TeamScript.Cursor.Scan
import TeamScript.Proofs.Grammar.Name
import TeamScript.Proofs.Moves

namespace TeamScript

set_option autoImplicit false

namespace Name

/-- A team code and a body that is not empty. -/
def Coded (text : List Char) : Prop :=
  ∃ code ∈ ["134", "104", "199"], ∃ body, body ≠ [] ∧ (∀ c ∈ body, isNamePart c = true) ∧
    text = code.toList ++ body

/-- At most one code stands in front of a text. -/
theorem code_unique {code other : String} (known : code ∈ teamCodes) (known' : other ∈ teamCodes)
    {body body' : List Char} (same : code.toList ++ body = other.toList ++ body') :
    code = other := by
  have found := code?_append known body
  rw [same, code?_append known' body', Option.some.injEq] at found
  exact found.symm

/-- A code and all characters behind it that may be part of a name. -/
theorem longest_coded {code : String} (known : code ∈ teamCodes) {body : List Char}
    (start : body.head?.any isNameStart = true) :
    Longest Coded (code.toList ++ body) (code.toList ++ body.takeWhile isNamePart) := by
  refine ⟨?_, ⟨code, known, _, ?_, of_mem_takeWhile, rfl⟩, ?_⟩
  · exact (List.prefix_append_right_inj _).2 (List.takeWhile_prefix _)
  · cases body with
    | nil => cases start
    | cons c more => simp [isNamePart_of_isNameStart (Option.any_some ▸ start)]
  · rintro _ ⟨rest, whole⟩ ⟨other, known', part, -, parts, rfl⟩
    rw [List.append_assoc] at whole
    obtain rfl := code_unique known' known whole
    obtain rfl := List.append_cancel_left whole
    rw [List.takeWhile_append_of_pos parts]
    simp

theorem teamCodes_sentinel : ∀ code ∈ teamCodes, sentinel ∉ code.toList := by decide

end Name

namespace Cursor

open Name

/-! ## The walk -/

/-- The attempt at a name, one move after the other. -/
def attempt (c : Cursor) (start : Location) : Scanned × Cursor :=
  match teamCodes.find? fun code => c.shows code.toList with
  | none => (.nothing, c)
  | some code =>
      let consumed := c.advances code.toList.length
      if isNameStart consumed.peek then
        let ended := (consumed.eatWhile isNamePart).2
        (.token ⟨.name, String.ofList (ended.textSince c.place), start⟩, ended)
      else
        (.nothing, consumed.restore c.place)

variable {c : Cursor}

/-- The code that is seen is the code in front, also where the text is shorter than a code. -/
theorem find?_shows (c : Cursor) :
    (teamCodes.find? fun code => c.shows code.toList) = code? c.rest := by
  have each : ∀ code ∈ teamCodes, c.shows code.toList = code.toList.isPrefixOf c.rest := by
    intro code known
    rw [Bool.eq_iff_iff, shows_iff (teamCodes_sentinel code known), List.isPrefixOf_iff_prefix]
  exact List.find?_congr each

theorem scan_name_of_body {code : String} (known : code ∈ teamCodes) {body : List Char}
    (ahead : c.rest = code.toList ++ body) (start : body.head?.any isNameStart = true)
    (place : Location) :
    c.scan place .name =
      (.token ⟨.name, String.ofList (code.toList ++ body.takeWhile isNamePart), place⟩,
        c.pass (code.toList ++ body.takeWhile isNamePart)) := by
  rw [scan, ahead, read?_append known start]
  rfl

theorem scan_name_of_not_opens (closed : ¬ Opens c.rest) (start : Location) :
    c.scan start .name = (.nothing, c) :=
  scan_name_of_none start (read?_eq_none_iff.2 closed)

/-- The walk arrives where the reader of names does. -/
theorem attempt_eq (c : Cursor) (start : Location) : c.attempt start = c.scan start .name := by
  unfold attempt
  rw [find?_shows]
  cases found : code? c.rest with
  | none =>
      have closed : ¬ Opens c.rest := by simp [opens_iff, found]
      rw [scan_name_of_not_opens closed]
  | some code =>
      have known : code ∈ teamCodes := List.mem_of_find?_eq_some found
      have ahead := (append_drop_of_code? found).symm
      generalize c.rest.drop code.toList.length = body at ahead
      dsimp only
      rw [advances_append ahead, class_peek (p := isNameStart) rfl, rest_pass ahead]
      cases begins : body.head?.any isNameStart with
      | true =>
          have split : c.rest = code.toList ++ body.takeWhile isNamePart ++
              body.dropWhile isNamePart := by
            rw [ahead, List.append_assoc, List.takeWhile_append_dropWhile]
          rw [if_pos rfl, eatWhile_eq, rest_pass ahead, pass_pass, textSince_pass split,
            scan_name_of_body known ahead begins]
      | false =>
          have closed : ¬ Opens c.rest := by
            simp only [opens_iff, found, Option.some.injEq, exists_eq_left']
            rw [ahead, hasBody_append, begins]
            exact Bool.false_ne_true
          rw [if_neg Bool.false_ne_true, restore_pass, scan_name_of_not_opens closed]

/-! ## What is found and what is kept -/

/-- An attempt finds the longest name in front of the cursor and consumes no more than that; where
no name is in front, it leaves the cursor as it was, and a numeral is read as without it. -/
theorem scan_name_attempt (c : Cursor) (start : Location) :
    c.attempt start = c.scan start .name ∧
    ((∃ t behind, c.scan start .name = (.token t, behind)) ↔ Opens c.rest) ∧
    (Opens c.rest → ∃ name, Longest Coded c.rest name ∧
      c.scan start .name = (.token ⟨.name, String.ofList name, start⟩, c.pass name) ∧
      c.rest = name ++ (c.pass name).rest) ∧
    (¬ Opens c.rest → c.scan start .name = (.nothing, c) ∧
      ∀ place, (c.attempt start).2.scan place .numeral = c.scan place .numeral) := by
  have finds (opens : Opens c.rest) : ∃ name, Longest Coded c.rest name ∧
      c.scan start .name = (.token ⟨.name, String.ofList name, start⟩, c.pass name) := by
    obtain ⟨code, known, d, more, ahead, begins⟩ := opens
    have body : (d :: more).head?.any isNameStart = true := begins
    refine ⟨_, ?_, scan_name_of_body known ahead body start⟩
    rw [ahead]
    exact longest_coded known body
  refine ⟨attempt_eq c start, ⟨?_, fun opens => ?_⟩, fun opens => ?_, fun closed => ⟨?_, ?_⟩⟩
  · rintro ⟨t, behind, scanned⟩
    apply Classical.byContradiction
    intro closed
    rw [scan_name_of_not_opens closed] at scanned
    cases scanned
  · obtain ⟨name, -, scanned⟩ := finds opens
    exact ⟨_, _, scanned⟩
  · obtain ⟨name, longest, scanned⟩ := finds opens
    obtain ⟨rest, whole⟩ := longest.front
    refine ⟨name, longest, scanned, ?_⟩
    rw [rest_pass whole.symm, whole]
  · exact scan_name_of_not_opens closed start
  · intro place
    rw [attempt_eq, scan_name_of_not_opens closed]

/-- A name in the middle of a text, and codes that the end or a digit keeps from being names. -/
example :
    (mk "+104a9_$".toList ⟨1, ⟨1, 2⟩⟩).attempt ⟨7, 1⟩ =
        (.token ⟨.name, "104a9_", ⟨7, 1⟩⟩, .mk "+104a9_$".toList ⟨7, ⟨1, 8⟩⟩) ∧
      (ofText "134".toList).attempt .start = (.nothing, ofText "134".toList) ∧
      (ofText "1991_".toList).attempt .start = (.nothing, ofText "1991_".toList) :=
  ⟨rfl, rfl, rfl⟩

end Cursor

end TeamScript
