/-
# TeamScript.Proofs.Memoryless -- reading on is reading anew

What a lexer answers depends on its policy and on the text it has left; where it
stands only moves the locations.  Two lexers in front of the same text, the
location of one shifted to that of the other, are `Twin`s.

* `Twin.step`: twins answer with the same token, shifted, and stay twins;
* `Twin.afterCalls`: so they do after any number of calls.

`nextToken_afterCalls` applies this to a lexer in the middle of a text and one
that is fresh in front of the same rest.  Whatever tokens and faults lie behind,
the two agree on everything that follows.
-/
import TeamScript.Proofs.Calls

namespace TeamScript

set_option autoImplicit false

/-- The token seen from a text that begins at `origin`. -/
def Token.shift (origin : Location) (t : Token) : Token :=
  { t with location := origin.shift t.location }

namespace Lexer

open Chunk

/-! ## Twins -/

/-- Both lexers read the same text, the first one seen from `origin`. -/
structure Twin (origin : Location) (a b : Lexer) : Prop where
  policy : a.policy = b.policy
  rest : a.rest = b.rest
  location : a.location = origin.shift b.location
  placed : Location.Placed b.location

variable {origin : Location} {a b : Lexer}

theorem twin_ofText (l : Lexer) : Twin l.location l (ofText l.policy l.rest) :=
  ⟨rfl, rfl, (Location.shift_start _).symm, Location.placed_start⟩

theorem Twin.after (twin : Twin origin a b) (text : List Char) :
    a.location.after text = origin.shift (b.location.after text) := by
  rw [twin.location, Location.shift_after twin.placed]

theorem Twin.pass (twin : Twin origin a b) (span rest : List Char) :
    Twin origin (a.pass span rest) (b.pass span rest) :=
  ⟨twin.policy, rfl, twin.after span, twin.placed.after span⟩

theorem shift_tokenOf (outcome : Except Fault Lexeme) (origin location : Location) :
    (tokenOf outcome location).shift origin = tokenOf outcome (origin.shift location) := by
  cases outcome <;> rfl

/-- Twins answer with the same token and stay twins. -/
theorem Twin.step (twin : Twin origin a b) :
    a.step.token = b.step.token.shift origin ∧ Twin origin a.step.next b.step.next := by
  obtain ⟨chunks, row, ahead⟩ := exists_row b.policy b.rest
  have rowA : Row a.policy chunks none := by rw [twin.policy]; exact row
  have aheadA : a.rest = text chunks := twin.rest.trans ahead.symm
  rcases gaps_or_token chunks with ⟨gaps, rfl⟩ | ⟨gaps, span, outcome, later, rfl⟩
  · rw [step_of_gaps rowA aheadA, step_of_gaps row ahead.symm]
    exact ⟨congrArg Token.ending (twin.after _), twin.pass _ _⟩
  · obtain ⟨tokenA, -, nextA⟩ := step_of_token rowA aheadA
    obtain ⟨tokenB, -, nextB⟩ := step_of_token row ahead.symm
    rw [tokenA, nextA, tokenB, nextB, shift_tokenOf, twin.after]
    exact ⟨rfl, twin.pass _ _⟩

theorem Twin.afterCalls (twin : Twin origin a b) (n : Nat) :
    Twin origin (a.afterCalls n) (b.afterCalls n) := by
  induction n generalizing a b with
  | zero => exact twin
  | succ n ih => exact ih twin.step.2

end Lexer

/-- After any number of calls a lexer stands behind the text it consumed, and each further
call answers with the token that a fresh lexer answers with in front of the rest, seen from
where the lexer stands. -/
theorem nextToken_afterCalls (policy : Policy) (text : List Char) (k : Nat) :
    let l := (Lexer.ofText policy text).afterCalls k
    l.offset ≤ text.length ∧ l.location = Location.behind (text.take l.offset) ∧
      ∀ n, (l.afterCalls n).nextToken.1 =
        (((Lexer.ofText policy (text.drop l.offset)).afterCalls n).nextToken.1).shift l.location := by
  intro l
  obtain ⟨consumed, front, called⟩ := Lexer.afterCalls_passes (.ofText policy text) k
  have whole : text = consumed ++ l.rest := front
  have behind := (Lexer.behind_ofText policy text).pass consumed l.rest
  rw [← called, List.nil_append] at behind
  change l.Behind consumed at behind
  have samePolicy : l.policy = policy := congrArg Lexer.policy called
  have taken : text.take l.offset = consumed := by rw [whole, behind.offset, List.take_left]
  have left : text.drop l.offset = l.rest := by rw [whole, behind.offset, List.drop_left]
  refine ⟨?_, ?_, fun n => ?_⟩
  · rw [behind.offset, whole, List.length_append]
    exact Nat.le_add_right _ _
  · rw [taken]
    exact behind.location
  · rw [left, ← samePolicy]
    exact ((Lexer.twin_ofText l).afterCalls n).step.1

end TeamScript
