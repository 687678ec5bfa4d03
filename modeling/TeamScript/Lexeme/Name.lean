/-
# TeamScript.Lexeme.Name -- names that carry a team code

A name is one of three team codes, a letter or an underscore, and any number of
letters, digits and underscores.  A team code without such a body begins no
name: the attempt consumes nothing, and the digits are free to be read as a
numeral.
-/
import TeamScript.Alphabet
import TeamScript.Reading

namespace TeamScript.Name

set_option autoImplicit false

def teamCodes : List String := ["134", "104", "199"]

/-- The team code at the front of a text. -/
def code? (text : List Char) : Option String :=
  teamCodes.find? fun code => code.toList.isPrefixOf text

/-- What follows the code begins the body of a name. -/
def hasBody (code : String) (text : List Char) : Bool :=
  match text.drop code.toList.length with
  | c :: _ => isNameStart c
  | [] => false

/-- The team code at the front of a text, if no body follows it. -/
def bareCode? (text : List Char) : Option String :=
  (code? text).filter fun code => !hasBody code text

/-- Reads the name at the front of a text, if there is one. -/
def read? (text : List Char) : Option Reading :=
  ((code? text).filter (hasBody · text)).map fun code =>
    let body := text.drop code.toList.length
    let span := code.toList ++ body.takeWhile isNamePart
    .plain span (body.dropWhile isNamePart) (.name (String.ofList span))

theorem append_drop_of_code? {text : List Char} {code : String} (found : code? text = some code) :
    code.toList ++ text.drop code.toList.length = text := by
  have front : code.toList <+: text := by simpa [code?] using List.find?_some found
  exact List.prefix_iff_eq_append.1 front

theorem code_ne_nil {text : List Char} {code : String} (found : code? text = some code) :
    code.toList ≠ [] := by
  have member : code ∈ teamCodes := List.mem_of_find?_eq_some found
  have nonempty : ∀ known ∈ teamCodes, known.toList ≠ [] := by decide
  exact nonempty code member

theorem read?_eq_some {text : List Char} {r : Reading} (found : read? text = some r) :
    ∃ code, code? text = some code ∧ hasBody code text ∧
      r.span = code.toList ++ (text.drop code.toList.length).takeWhile isNamePart ∧
      r.rest = (text.drop code.toList.length).dropWhile isNamePart := by
  simp only [read?, Option.map_eq_some_iff, Option.filter_eq_some_iff] at found
  obtain ⟨code, ⟨coded, body⟩, rfl⟩ := found
  exact ⟨code, coded, body, rfl, rfl⟩

theorem read?_splits {text : List Char} {r : Reading} (found : read? text = some r) :
    r.Splits text := by
  obtain ⟨code, coded, -, span, rest⟩ := read?_eq_some found
  rw [Reading.Splits, span, rest, List.append_assoc, List.takeWhile_append_dropWhile]
  exact append_drop_of_code? coded

theorem read?_span_ne_nil {text : List Char} {r : Reading} (found : read? text = some r) :
    r.span ≠ [] := by
  obtain ⟨code, coded, -, span, -⟩ := read?_eq_some found
  simp [span, code_ne_nil coded]

end TeamScript.Name
