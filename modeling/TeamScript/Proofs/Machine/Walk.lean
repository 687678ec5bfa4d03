/-
# TeamScript.Proofs.Machine.Walk -- reading as a walk over the text

A reader says what stands in front of a text.  A walk says how this is found out:
it looks at one character, consumes it, counts, and goes on, one instruction after
the other.  Each instruction has an answer, on which the rest of the walk depends.

A walk keeps no numbers of its own.  Where it stands, which place it has marked, how
many characters it has eaten and how deep a comment is nested is known to the
machine that performs the instructions, and nothing here says how that machine
counts.

A loop is a name for the walk that it turns into when it is entered (`Loop.body`),
so a walk that loops is still a finite thing.  There are four: eating characters,
the inside of a block comment, the inside of a string, and the search for the next
token.
-/
import TeamScript.Cursor.Scan

namespace TeamScript

set_option autoImplicit false

/-! ## Instructions -/

/-- What the machine can be told to do, with the type of its answer. -/
inductive Instruction : Type → Type
  | atEnd : Instruction Bool
  | peekAt (k : Nat) : Instruction Char
  | advance : Instruction Char
  | location : Instruction Location
  /-- Keeps the place.  No walk needs more than one at a time. -/
  | mark : Instruction Unit
  /-- Goes back to the place that was kept. -/
  | restore : Instruction Unit
  /-- The text from the place that was kept. -/
  | textSince : Instruction (List Char)
  /-- Nothing is eaten yet. -/
  | beginEating : Instruction Unit
  | countEaten : Instruction Unit
  | eaten : Instruction Nat
  /-- One comment is open. -/
  | beginComment : Instruction Unit
  | openComment : Instruction Unit
  /-- Closes the innermost comment and tells whether none is open any more. -/
  | closeComment : Instruction Bool

inductive Loop : Type → Type
  | eating (p : Char → Bool) : Loop Nat
  | comment : Loop Bool
  | string (start : Location) (content : List Char) : Loop Token
  | dispatch (policy : Policy) : Loop Token

inductive Walk (α : Type) where
  | done (answer : α)
  | act {β : Type} (i : Instruction β) (next : β → Walk α)
  | loop {β : Type} (l : Loop β) (next : β → Walk α)

namespace Walk

def bind {α β : Type} : Walk α → (α → Walk β) → Walk β
  | done answer, f => f answer
  | act i next, f => act i fun b => (next b).bind f
  | loop l next, f => loop l fun b => (next b).bind f

instance : Monad Walk where
  pure := done
  bind := bind

theorem bind_assoc {α β γ : Type} (w : Walk α) (f : α → Walk β) (g : β → Walk γ) :
    (w >>= f) >>= g = w >>= fun a => f a >>= g := by
  show (w.bind f).bind g = w.bind fun a => (f a).bind g
  induction w with
  | done answer => rfl
  | act i next ih => exact congrArg (act i) (funext ih)
  | loop l next ih => exact congrArg (loop l) (funext ih)

/-- A walk of one instruction. -/
def tell {α : Type} (i : Instruction α) : Walk α := act i done

/-- A walk of one loop. -/
def enter {α : Type} (l : Loop α) : Walk α := loop l done

/-! ## Moving and looking -/

def peek : Walk Char := tell (.peekAt 0)

def eatIf (p : Char → Bool) : Walk Bool := do
  if ← tell .atEnd then
    return false
  else if p (← peek) then
    let _ ← tell .advance
    return true
  else
    return false

def eat (expected : Char) : Walk Bool := eatIf (· == expected)

def eatAny (expected : List Char) : Walk Bool := eatIf expected.contains

def eatWhile (p : Char → Bool) : Walk Nat := do
  tell .beginEating
  enter (.eating p)

/-- One turn of eating. -/
def eatMore (p : Char → Bool) : Walk Nat := do
  if ← tell .atEnd then
    tell .eaten
  else if p (← peek) then
    let _ ← tell .advance
    tell .countEaten
    enter (.eating p)
  else
    tell .eaten

/-- Consumes a character and goes on; at the end of the text the answer is known. -/
def consume {α : Type} (ended : α) (next : Char → Walk α) : Walk α := do
  if ← tell .atEnd then
    return ended
  else
    next (← tell .advance)

/-! ## Comments -/

/-- One turn inside a block comment; a run of stars is read as a whole. -/
def commentTurn : Walk Bool :=
  consume false fun c => do
    if c = '/' then
      if ← eat '*' then
        tell .openComment
        enter .comment
      else
        enter .comment
    else if c = '*' then
      let _ ← eatWhile (· == '*')
      if ← eat '/' then
        if ← tell .closeComment then
          return true
        else
          enter .comment
      else
        enter .comment
    else
      enter .comment

def skipBlockComment : Walk Bool := do
  tell .beginComment
  enter .comment

def skipLine : Walk Unit := do
  let _ ← eatWhile (· != '\n')
  let _ ← eat '\n'

def slash (start : Location) : Walk Scanned := do
  let _ ← tell .advance
  if ← eat '/' then
    skipLine
    return .comment
  else if ← eat '*' then
    if ← skipBlockComment then
      return .comment
    else
      return .token (Fault.openComment.token start)
  else
    return .token ⟨.operator, "/", start⟩

/-! ## Strings -/

def skipRestOfString : Walk Unit := do
  let _ ← eatWhile fun c => c != '$' && c != '\n'
  let _ ← eat '$'

/-- One turn inside a string, whose content so far is known. -/
def stringTurn (start : Location) (content : List Char) : Walk Token :=
  consume (Fault.openString.token start) fun c => do
    if c = '$' then
      return ⟨.string, String.ofList content, start⟩
    else if c = '\n' then
      skipRestOfString
      return Fault.openString.token start
    else if c = '\\' then
      if ← eat 'n' then
        skipRestOfString
        return Fault.forbiddenEscape.token start
      else
        enter (.string start (content ++ [c]))
    else
      enter (.string start (content ++ [c]))

def string (start : Location) : Walk Token := do
  let _ ← tell .advance
  enter (.string start [])

/-! ## Words, operators and names -/

def word (start : Location) : Walk Token := do
  tell .mark
  let _ ← eatWhile isLetter
  let letters := String.ofList (← tell .textSince)
  match Keyword.ofWord? letters with
  | some _ => return ⟨.keyword, letters, start⟩
  | none => return (Fault.unknownWord letters).token start

def operator (start : Location) : Walk Token := do
  let first ← tell .advance
  if first = '=' ∨ first = '>' then
    if ← eat '=' then
      return ⟨.operator, String.ofList [first, '='], start⟩
    else
      return ⟨.operator, String.singleton first, start⟩
  else if first = '!' then
    if ← eat '=' then
      return ⟨.operator, String.ofList [first, '='], start⟩
    else
      return Fault.loneBang.token start
  else if first = '<' then
    if ← eat '=' then
      return ⟨.operator, String.ofList [first, '='], start⟩
    else if ← eat '>' then
      return ⟨.operator, String.ofList [first, '>'], start⟩
    else
      return ⟨.operator, String.singleton first, start⟩
  else
    return ⟨.operator, String.singleton first, start⟩

/-- The characters of a word are in front; the first that is not tells that they are not. -/
def shows (k : Nat) : List Char → Walk Bool
  | [] => return true
  | c :: word => do
      if (← tell (.peekAt k)) = c then
        shows (k + 1) word
      else
        return false

/-- The first of the codes that is in front. -/
def findCode : List String → Walk (Option String)
  | [] => return none
  | code :: codes => do
      if ← shows 0 code.toList then
        return some code
      else
        findCode codes

def advances : Nat → Walk Unit
  | 0 => return ()
  | n + 1 => do
      let _ ← tell .advance
      advances n

def name (start : Location) : Walk Scanned := do
  match ← findCode Name.teamCodes with
  | none => return .nothing
  | some code =>
      tell .mark
      advances code.toList.length
      if isNameStart (← peek) then
        let _ ← eatWhile isNamePart
        return .token ⟨.name, String.ofList (← tell .textSince), start⟩
      else
        tell .restore
        return .nothing

/-! ## Numerals -/

def signs : List Char := ['+', '-']

/-- An exponent up to its digits. -/
def eatMark : Walk Unit := do
  let _ ← tell .advance
  let _ ← eatAny signs

def eatExponent : Walk Unit := do
  eatMark
  let _ ← eatWhile isDigit

/-- The fault of everything since the mark. -/
def faulty (fault : String → Fault) (start : Location) : Walk Token := do
  return (fault (String.ofList (← tell .textSince))).token start

/-- What a numeral is, its mantissa and whether it has an exponent being known. -/
def classify (shape : Numeral.Mantissa) (exponent : Bool) (text : String) (start : Location) :
    Token :=
  match shape, exponent with
  | .dangling, _ => (Fault.emptyFraction text).token start
  | .whole, false => ⟨.integer, text, start⟩
  | _, _ => ⟨.number, text, start⟩

/-- The numeral that is everything since the mark. -/
def classified (shape : Numeral.Mantissa) (exponent : Bool) (start : Location) : Walk Token := do
  return classify shape exponent (String.ofList (← tell .textSince)) start

/-- Goes on behind a complete mantissa with an exponent. -/
def finishExponent (shape : Numeral.Mantissa) (start : Location) : Walk Token := do
  eatMark
  if isDigit (← peek) then
    let _ ← eatWhile isDigit
    classified shape true start
  else if isLetter (← peek) then
    let _ ← tell .advance
    faulty .badExponent start
  else
    faulty .badExponent start

/-- Goes on behind the mantissa. -/
def finishNumeral (shape : Numeral.Mantissa) (start : Location) : Walk Token := do
  if Numeral.isExponentMark (← peek) then
    if shape = .dangling then
      eatExponent
      faulty .emptyFraction start
    else
      finishExponent shape start
  else
    classified shape false start

def numeral (start : Location) : Walk Token := do
  tell .mark
  if (← peek) = '.' then
    let _ ← tell .advance
    if isDigit (← peek) then
      let _ ← eatWhile isDigit
      finishNumeral .fractional start
    else if Numeral.isExponentMark (← peek) then
      eatExponent
      faulty .badExponent start
    else
      tell .restore
      let _ ← tell .advance
      return Fault.loneDot.token start
  else if isDigit (← peek) then
    let _ ← eatWhile isDigit
    if ← eat '.' then
      if ← eat '.' then
        let _ ← eatWhile isDigit
        faulty .doubleDot start
      else if 0 < (← eatWhile isDigit) then
        finishNumeral .fractional start
      else
        finishNumeral .dangling start
    else
      finishNumeral .whole start
  else
    let c ← tell .advance
    return (Fault.unknownCharacter c).token start

/-! ## The next token -/

/-- Answers with the token that was scanned; without one, goes on. -/
def orGoOn (scanned : Scanned) (next : Walk Token) : Walk Token :=
  match scanned with
  | .token token => return token
  | .comment => next
  | .nothing => next

/-- Asks the reader that the first character calls for, or goes on behind a gap. -/
def dispatch (policy : Policy) (start : Location) : Walk Token := do
  if ← tell .atEnd then
    return .ending start
  else
    let c ← peek
    if c = '/' then
      orGoOn (← slash start) (enter (.dispatch policy))
    else if c = '$' then
      string start
    else if c = '1' then
      orGoOn (← name start) (numeral start)
    else if isLetter c then
      word start
    else if isDigit c ∨ c = '.' then
      numeral start
    else if isOperatorStart c then
      operator start
    else if policy.skips c then
      let _ ← tell .advance
      enter (.dispatch policy)
    else
      let _ ← tell .advance
      return (Fault.unknownCharacter c).token start

/-- One turn of the search for the next token. -/
def dispatchTurn (policy : Policy) : Walk Token := do
  let _ ← eatWhile isBlank
  dispatch policy (← tell .location)

def nextToken (policy : Policy) : Walk Token := enter (.dispatch policy)

end Walk

/-- The walk that a loop turns into when it is entered. -/
def Loop.body {α : Type} : Loop α → Walk α
  | eating p => Walk.eatMore p
  | comment => Walk.commentTurn
  | string start content => Walk.stringTurn start content
  | dispatch policy => Walk.dispatchTurn policy

end TeamScript
