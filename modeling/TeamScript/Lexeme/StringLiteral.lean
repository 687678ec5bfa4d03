/-
# TeamScript.Lexeme.StringLiteral -- text between dollar signs

A string is what stands between two dollar signs on one line.  It may hold any
character but a dollar sign and a line feed, and any backslash but one before
the letter `n`.

A line feed or a forbidden escape inside a string is consumed and makes it a
fault.  Reading then looks for the end of the string: it skips to the next
dollar sign, which it consumes, or to the next line feed, which it leaves.  So a
fault never reaches beyond a second line feed.  A string that the end of the
text cuts short is a fault too, but one that the log does not mention.
-/
import TeamScript.Reading

namespace TeamScript.StringLiteral

set_option autoImplicit false

/-! ## Content -/

/-- The content of a string ends in front of this text. -/
def ends : List Char → Bool
  | [] => true
  | '$' :: _ => true
  | '\n' :: _ => true
  | '\\' :: 'n' :: _ => true
  | _ => false

/-- The length of the content at the front of a text, `seen` characters having gone by. -/
def contentEnd (seen : Nat) : List Char → Nat
  | [] => seen
  | c :: text => if ends (c :: text) then seen else contentEnd (seen + 1) text

def content (text : List Char) : List Char := text.take (contentEnd 0 text)

def afterContent (text : List Char) : List Char := text.drop (contentEnd 0 text)

theorem content_append (text : List Char) : content text ++ afterContent text = text :=
  List.take_append_drop _ _

/-! ## Recovery -/

/-- What a fault skips: text on one line up to a dollar sign, which belongs to it. -/
def skipped (text : List Char) : List Char :=
  let inside := fun c => c != '$' && c != '\n'
  text.takeWhile inside ++
    match text.dropWhile inside with
    | '$' :: _ => ['$']
    | _ => []

def resumed (text : List Char) : List Char :=
  match text.dropWhile (fun c => c != '$' && c != '\n') with
  | '$' :: rest => rest
  | rest => rest

theorem skipped_append (text : List Char) : skipped text ++ resumed text = text := by
  have whole := List.takeWhile_append_dropWhile (p := fun c => c != '$' && c != '\n') (l := text)
  unfold skipped resumed
  dsimp only
  split
  · rename_i found
    rw [found] at whole
    simpa using whole
  · simp

/-! ## Reading -/

/-- Reads the string at the front of a text.  The first character counts as the
opening sign whatever it is. -/
def read (text : List Char) : Reading :=
  let body := text.drop 1
  let opened := text.take 1 ++ content body
  match afterContent body with
  | [] => .faulty opened [] .openString none
  | '$' :: rest => .plain (opened ++ ['$']) rest (.string (String.ofList (content body)))
  | '\n' :: more =>
      .faulty (opened ++ '\n' :: skipped more) (resumed more) .openString (some .brokenString)
  | backslash :: more =>
      .faulty (opened ++ backslash :: (more.take 1 ++ skipped (more.drop 1)))
        (resumed (more.drop 1)) .forbiddenEscape (some .forbiddenEscape)

theorem read_splits (text : List Char) : (read text).Splits text := by
  have whole : text.take 1 ++ (content (text.drop 1) ++ afterContent (text.drop 1)) = text := by
    rw [content_append, List.take_append_drop]
  unfold read Reading.Splits
  dsimp only
  split <;> rename_i found <;> rw [found] at whole
  · simpa [Reading.faulty] using whole
  · simpa [Reading.plain] using whole
  · simpa [Reading.faulty, skipped_append] using whole
  · simpa [Reading.faulty, skipped_append, -List.drop_one] using whole

theorem read_span_ne_nil (c : Char) (more : List Char) : (read (c :: more)).span ≠ [] := by
  unfold read
  dsimp only
  split <;> simp [Reading.plain, Reading.faulty]

end TeamScript.StringLiteral
