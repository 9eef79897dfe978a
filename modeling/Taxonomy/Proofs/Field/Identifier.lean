import Taxonomy.Proofs.Field.Check
import Taxonomy.Proofs.RecordId.Text

/-!
# Identifiers in a column

A column of identifiers takes an identifier as such and any canonical text of one. Whether a text is
handed over as a stored value or as JSON, it is judged by the same form; and the identifier that is
read determines the text up to the case of its letters.
-/

namespace Taxonomy

namespace FacetValue

/-- The identifier that a value denotes: itself, or the one that its text is read as. -/
def identifier? : FacetValue → Option RecordId
  | .uuid id => some id
  | .string s => RecordId.read? s
  | _ => none

/-- Both are identifiers as such, or both are texts with the same letters in upper case. -/
inductive SameForm : FacetValue → FacetValue → Prop
  | uuid (a b : RecordId) : SameForm (.uuid a) (.uuid b)
  | text {s t : String} (letters : s.toList.map Char.isUpper = t.toList.map Char.isUpper) :
      SameForm (.string s) (.string t)

variable {v w : FacetValue} {a b : RecordId}

/-- A value that denotes an identifier is told by the identifier and the form that it is given
in. -/
theorem eq_iff_of_identifier? (hv : v.identifier? = some a) (hw : w.identifier? = some b) :
    v = w ↔ a = b ∧ v.SameForm w := by
  constructor
  · rintro rfl
    obtain rfl := Option.some.inj (hv.symm.trans hw)
    refine ⟨rfl, ?_⟩
    cases v with
    | uuid id => exact .uuid id id
    | string s => exact .text rfl
    | _ => cases hv
  · rintro ⟨rfl, hform⟩
    cases hform with
    | uuid c d =>
        obtain rfl := Option.some.inj hv
        obtain rfl := Option.some.inj hw
        rfl
    | @text s t letters =>
        have hlower : s.toLower = t.toLower := by
          rw [← RecordId.text_of_read? hv, RecordId.text_of_read? hw]
        rw [Text.eq_of_toLower_of_map_isUpper hlower letters]

end FacetValue

namespace FieldDescriptor

variable {f : FieldDescriptor} {v : FacetValue} {s : String} {value : Json}

theorem exists_parseJson_iff :
    (∃ v, f.parseJson value = .ok v) ↔ (valueOf? f.kind value).isSome = true := by
  rw [parseJson]
  cases valueOf? f.kind value <;> simp

/-- Besides null, a column of identifiers takes the values that denote one. -/
theorem check_identifier_iff (hkind : f.kind = .uuid) :
    f.check v = .ok () ↔ v = .null ∧ f.nullable = true ∨ v.identifier?.isSome = true := by
  rw [check_eq_ok_iff, Admits, hkind]
  cases v with
  | uuid id => simp [FacetValue.identifier?]
  | string s =>
      simp [FacetValue.identifier?, RecordId.isSome_read?_iff, RecordId.isCanonical_iff]
  | _ => simp [FacetValue.identifier?]

/-- A column of identifiers takes a text exactly if it reads the text from JSON. -/
theorem check_string_iff_parseJson (hkind : f.kind = .uuid) :
    f.check (.string s) = .ok () ↔ ∃ v, f.parseJson (.str s) = .ok v := by
  rw [check_identifier_iff hkind, exists_parseJson_iff, hkind]
  simp [FacetValue.identifier?, valueOf?]

end FieldDescriptor

namespace RecordId

/-- A text is read exactly if it is canonical, and then as the reader of all forms reads it. The
canonical texts are those of 36 characters of ASCII in five groups of hexadecimal digits. What is
read is written as the text in lower case and read again from what is written, so that two texts
denote one identifier exactly if they agree apart from the case of their letters. A column of
identifiers goes by the same form, however a text comes to it. -/
theorem reads_canonical_form (s : String) :
    ((read? s).isSome = true ↔ isCanonical s = true) ∧
    read? s = (if isCanonical s = true then readAny? s else none) ∧
    (isCanonical s = true ↔
      s.length = 36 ∧ (∀ c ∈ s.toList, c.toNat < 128) ∧ CanonicalForm s.toList) ∧
    (∀ id, read? s = some id → id.text = s.toLower) ∧
    (∀ id : RecordId, read? id.text = some id) ∧
    (∀ t, (read? s).isSome = true → (read? t).isSome = true →
      (read? s = read? t ↔ s.toLower = t.toLower)) ∧
    ∀ f : FieldDescriptor, f.kind = .uuid →
      (f.check (.string s) = .ok () ↔ ∃ v, f.parseJson (.str s) = .ok v) := by
  refine ⟨isSome_read?_iff, read?_eq_readAny? s, isCanonical_iff_ascii, ?lower, read?_text, ?agree,
    ?column⟩
  case lower =>
    intro id h
    exact text_of_read? h
  case agree =>
    intro t hs ht
    exact read?_eq_read?_iff hs ht
  case column =>
    intro f hkind
    exact FieldDescriptor.check_string_iff_parseJson hkind

/-- The same identifier in capitals and in mixed letters. -/
theorem reads_canonical_form_capitals :
    let s := "0B1F6C3E-0C2A-4D7E-9F11-3A5B7C9D1E2F"
    let t := "0b1f6c3e-0C2a-4d7e-9f11-3A5b7c9d1e2f"
    let f : FieldDescriptor := .plain "Badge" .value .uuid
    (∃ id, read? s = some id ∧ id.text = s.toLower) ∧ read? s = readAny? s ∧ read? s = read? t ∧
      f.kind = .uuid ∧ f.check (.string s) = .ok () ∧ ∃ v, f.parseJson (.str s) = .ok v := by
  intro s t f
  obtain ⟨hread, hany, -, hlower, -, hagree, hcolumn⟩ := reads_canonical_form s
  have hcanonical : isCanonical s = true := by decide +kernel
  have hs := hread.mpr hcanonical
  have ht : (read? t).isSome = true := by decide +kernel
  have hcase : s.toLower = t.toLower := by
    apply String.toList_injective
    rw [Text.toList_toLower, Text.toList_toLower]
    decide +kernel
  have hcheck : f.check (.string s) = .ok () := by decide +kernel
  obtain ⟨id, hid⟩ := Option.isSome_iff_exists.mp hs
  rw [if_pos hcanonical] at hany
  exact ⟨⟨id, hid, hlower id hid⟩, hany, (hagree t hs ht).mpr hcase, rfl, hcheck,
    (hcolumn f rfl).mp hcheck⟩

end RecordId

end Taxonomy
