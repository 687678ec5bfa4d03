/-
# TeamScript.Proofs.Utf8 -- the bytes of a text

`Bytes.ofText` encodes a text, and bytes have a text if and only if they are the
bytes of that text (`text?_eq_some_iff`).

Each byte below 128 is a character of its own, wherever it stands: so bytes may be
cut at such a byte, and have a text if and only if both parts have one
(`text?_append_cons`).  In particular they may be cut into lines.
-/
import TeamScript.Command.Console

namespace TeamScript.Bytes

set_option autoImplicit false

/-- The bytes that encode a text in UTF-8. -/
def ofText (text : List Char) : Bytes := text.flatMap String.utf8EncodeChar

theorem ofText_nil : ofText [] = [] := rfl

theorem ofText_cons (c : Char) (text : List Char) :
    ofText (c :: text) = String.utf8EncodeChar c ++ ofText text := rfl

theorem ofText_append (a b : List Char) : ofText (a ++ b) = ofText a ++ ofText b :=
  List.flatMap_append

theorem ofText_eq_nil_iff {text : List Char} : ofText text = [] ↔ text = [] := by
  cases text with
  | nil => simp [ofText]
  | cons c text =>
      have nonempty : String.utf8EncodeChar c ≠ [] := by
        rw [← List.length_pos_iff, String.length_utf8EncodeChar]
        exact c.utf8Size_pos
      simp [ofText_cons, nonempty]

theorem text?_eq_some_iff {bytes : Bytes} {text : List Char} :
    bytes.text? = some text ↔ bytes = ofText text := by
  constructor
  · intro found
    simp only [text?, String.fromUTF8?, Option.map_eq_some_iff] at found
    obtain ⟨s, decoded, rfl⟩ := found
    split at decoded
    · cases decoded
      exact List.toByteArray_inj.1 (@String.utf8Encode_toList (String.fromUTF8 _ _)).symm
    · cases decoded
  · rintro rfl
    have valid : (ofText text).toByteArray.IsValidUTF8 := ⟨text, rfl⟩
    rw [text?, String.fromUTF8?, dif_pos valid, Option.map_some, Option.some.injEq]
    exact String.toList_ofList

/-! ## Bytes that are a character -/

/-- The byte encodes the character, and it is in the encoding of no other one. -/
structure Single (c : Char) (b : UInt8) : Prop where
  encode : String.utf8EncodeChar c = [b]
  only : ∀ d, b ∈ String.utf8EncodeChar d → d = c

/-- Each character below 128 is a byte, which is part of no other character. -/
theorem single_of_toNat_eq {c : Char} {b : UInt8} (same : c.toNat = b.toNat)
    (small : b.toNat < 128) : Single c b := by
  have value : c.val.toNat = b.toNat := same
  constructor
  · rw [String.utf8EncodeChar, value, if_pos (Nat.le_of_lt_succ small), UInt8.ofNat_toNat]
  · intro d member
    apply Char.toNat_inj.1
    have value : d.val.toNat = d.toNat := rfl
    simp only [String.utf8EncodeChar] at member
    rw [value] at member
    -- every byte of a longer encoding is at least 128
    split at member
    · obtain rfl := List.mem_singleton.1 member
      rw [UInt8.toNat_ofNat'] at same
      omega
    · exfalso
      split at member
      · simp only [List.mem_cons, List.not_mem_nil, or_false] at member
        rcases member with rfl | rfl <;> rw [UInt8.toNat_ofNat'] at small <;> omega
      · split at member
        · simp only [List.mem_cons, List.not_mem_nil, or_false] at member
          rcases member with rfl | rfl | rfl <;> rw [UInt8.toNat_ofNat'] at small <;> omega
        · simp only [List.mem_cons, List.not_mem_nil, or_false] at member
          rcases member with rfl | rfl | rfl | rfl <;> rw [UInt8.toNat_ofNat'] at small <;> omega

section

variable {c : Char} {b : UInt8} (single : Single c b)

include single

/-- Where the byte stands, the text has the character. -/
theorem Single.split_ofText {text : List Char} {front behind : Bytes}
    (whole : ofText text = front ++ b :: behind) :
    ∃ above below, text = above ++ c :: below ∧ ofText above = front ∧ ofText below = behind := by
  induction text generalizing front with
  | nil => simp [ofText] at whole
  | cons d text ih =>
      rw [ofText_cons] at whole
      rcases List.append_eq_append_iff.1 whole with ⟨more, rfl, tail⟩ | ⟨more, encoded, tail⟩
      · obtain ⟨above, below, rfl, rfl, rfl⟩ := ih tail
        exact ⟨d :: above, below, rfl, rfl, rfl⟩
      · cases more with
        | nil =>
            have next : ofText text = [] ++ b :: behind := tail.symm
            obtain ⟨above, below, rfl, empty, rfl⟩ := ih next
            refine ⟨d :: above, below, rfl, ?_, rfl⟩
            rw [ofText_cons, empty, encoded, List.append_nil, List.append_nil]
        | cons _ more =>
            obtain ⟨rfl, rfl⟩ := List.cons.inj tail
            obtain rfl := single.only d (by simp [encoded])
            have one := single.encode.symm.trans encoded
            cases front with
            | nil =>
                obtain ⟨-, rfl⟩ := List.cons.inj one
                exact ⟨[], text, rfl, rfl, rfl⟩
            | cons _ front => simp at one

/-- Bytes may be cut at the byte: both parts have a text if and only if the whole has one. -/
theorem Single.text?_append_cons (front behind : Bytes) :
    Bytes.text? (front ++ b :: behind) =
      (Bytes.text? front).bind fun above =>
        (Bytes.text? behind).map fun below => above ++ c :: below := by
  ext text
  simp only [Option.bind_eq_some_iff, Option.map_eq_some_iff, text?_eq_some_iff]
  constructor
  · intro whole
    obtain ⟨above, below, rfl, rfl, rfl⟩ := single.split_ofText whole.symm
    exact ⟨above, rfl, below, rfl, rfl⟩
  · rintro ⟨above, rfl, below, rfl, rfl⟩
    rw [ofText_append, ofText_cons, single.encode]
    rfl

theorem Single.mem_ofText_iff {text : List Char} : b ∈ ofText text ↔ c ∈ text := by
  constructor
  · intro member
    obtain ⟨d, inside, encoded⟩ := List.mem_flatMap.1 member
    rwa [single.only d encoded] at inside
  · intro member
    exact List.mem_flatMap.2 ⟨c, member, by simp [single.encode]⟩

theorem Single.count_ofText (text : List Char) : (ofText text).count b = text.count c := by
  induction text with
  | nil => rfl
  | cons d text ih =>
      rw [ofText_cons, List.count_append, ih, List.count_cons, Nat.add_comm]
      by_cases same : d = c
      · simp [same, single.encode]
      · have absent : b ∉ String.utf8EncodeChar d := fun member => same (single.only d member)
        simp [same, List.count_eq_zero.2 absent]

theorem Single.getLast?_ofText_iff {text : List Char} :
    (ofText text).getLast? = some b ↔ text.getLast? = some c := by
  constructor
  · intro last
    obtain ⟨front, whole⟩ := List.getLast?_eq_some_iff.1 last
    obtain ⟨above, below, rfl, -, empty⟩ := single.split_ofText whole
    rw [ofText_eq_nil_iff.1 empty]
    exact List.getLast?_concat ..
  · intro last
    obtain ⟨above, rfl⟩ := List.getLast?_eq_some_iff.1 last
    rw [ofText_append, ofText_cons, single.encode]
    simp [ofText_nil]

end

end TeamScript.Bytes
