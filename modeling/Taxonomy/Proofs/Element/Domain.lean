import Mathlib.Data.List.Permutation
import Taxonomy.Proofs.Element.Facets
import Taxonomy.Proofs.Field.Check

/-!
# The domain of an element

Which values an element takes is said here by what the document says about it: the category,
the name of the item type, the values that are left of it in the group, and the greatest length that
an override sets. Main statement: the value facet of a compiled element accepts exactly these
values.
-/

namespace Taxonomy

/-- The numbers of an item type. Durations, lengths and masses are not negative, and percentages lie
between zero and a hundred. -/
def AllowsNumber (itemType : String) (q : ℚ) : Prop :=
  (itemType ∈ ["Duration", "Length", "Mass"] → 0 ≤ q) ∧ (itemType = "Percent" → 0 ≤ q ∧ q ≤ 100)

namespace Store.ElementReading

variable {s : Store} {name : String}

/-- The values of a string element: dates, identifiers, choices or free text. Only dates are ever
null, and the empty string is always a value of free text and of an enumeration. -/
def StringDomain (r : s.ElementReading name) (o : ValueOverrides) (v : FacetValue) : Prop :=
  if r.definition.itemType = "Date" then v = .null ∨ ∃ day, v = .date day
  else if r.definition.itemType = "UUID" then
    (∃ id, v = .uuid id) ∨ ∃ text, v = .string text ∧ RecordId.CanonicalForm text.toList
  else if r.narrowed.hasEnums = true then
    ∃ text, v = .string text ∧ (text = "" ∨ (∃ value ∈ r.narrowed.values, value.id = text) ∧
      ∀ maxLength ∈ o.maxLength, text.length ≤ maxLength)
  else ∃ text, v = .string text ∧ (text = "" ∨ text.length ≤ o.maxLength.getD 500)

/-- The values of the element. Numbers are whole multiples of `10 ^ (-8)` below `10 ^ 16`. -/
def Domain (r : s.ElementReading name) (o : ValueOverrides) (v : FacetValue) : Prop :=
  match r.category with
  | .boolean => v = .null ∨ ∃ b, v = .boolean b
  | .integer =>
    v = .null ∨ ∃ n : Int64, v = .integer n ∧ (r.definition.itemType = "Duration" → 0 ≤ n.toInt)
  | .number =>
    v = .null ∨ ∃ q ∈ v.number?, ((∃ m : ℤ, q * 10 ^ 8 = m) ∧ |q| < 10 ^ 16) ∧
      AllowsNumber r.definition.itemType q
  | .string => r.StringDomain o v

end Store.ElementReading

namespace CompiledElement

variable {name : String} {itemType : ItemType} {o : ValueOverrides} {q : ℚ}

/-- Every id is at most as long as the longest. -/
theorem length_le_of_longest {values : List ItemTypeValue} {n : Nat} {value : ItemTypeValue}
    (h : longest values = some n) (hvalue : value ∈ values) : value.id.length ≤ n := by
  induction values generalizing n with
  | nil => cases hvalue
  | cons first rest ih =>
      cases h
      rcases List.mem_cons.mp hvalue with rfl | hrest
      · exact Nat.le_max_left _ _
      · cases hlongest : longest rest with
        | none => cases rest <;> simp_all [longest]
        | some m => exact Nat.le_trans (ih hlongest hrest) (Nat.le_max_right _ _)

theorem bounds_numberConstraints {t : String} :
    (numberConstraints t).Bounds q ↔ AllowsNumber t q := by
  unfold numberConstraints
  split
  case h_5 hduration hlength hmass hpercent =>
    refine iff_of_true (by simp [Constraints.Bounds]) ⟨?_, fun h => absurd h hpercent⟩
    intro hbounded
    rcases List.mem_cons.mp hbounded with h | hbounded
    · exact absurd h hduration
    · rcases List.mem_pair.mp hbounded with h | h
      · exact absurd h hlength
      · exact absurd h hmass
  all_goals simp [Constraints.Bounds, AllowsNumber, Decimal.value_ofNat]

theorem values_ne_nil_of_hasEnums (h : itemType.hasEnums = true) : itemType.values ≠ [] := by
  cases itemType with
  | plain | unit => cases h
  | enumerated _ _ values =>
      rintro rfl
      cases h

/-- A choice is never longer than the longest one, so only an override limits its length. -/
theorem admitsText_choiceField {s : String} (h : itemType.values ≠ []) :
    (o.apply (choiceField name .value itemType)).AdmitsText s ↔
      s = "" ∨ (∃ value ∈ itemType.values, value.id = s) ∧
        ∀ maxLength ∈ o.maxLength, s.length ≤ maxLength := by
  have hlength : (∃ value ∈ itemType.values, value.id = s) →
      ((∀ maxLength ∈ o.maxLength.or (longest itemType.values), s.length ≤ maxLength) ↔
        ∀ maxLength ∈ o.maxLength, s.length ≤ maxLength) := by
    rintro ⟨value, hvalue, rfl⟩
    cases o.maxLength with
    | none => simpa using fun n hn => length_le_of_longest hn hvalue
    | some maxLength => simp
  rw [← and_congr_right hlength, and_comm]
  simp [FieldDescriptor.AdmitsText, ValueOverrides.apply, choiceField, FieldDescriptor.plain, h]

end CompiledElement

namespace Store

variable {s : Store} {name : String} {o : ValueOverrides} {e : CompiledElement} {v : FacetValue}

/-- The column of a string value is that of a date, an identifier, a choice or free text. -/
theorem ElementReading.admits_stringField (r : s.ElementReading name) :
    (o.apply (CompiledElement.stringField name r.narrowed)).Admits v ↔ r.StringDomain o v := by
  rw [StringDomain, ← r.name_narrowed]
  unfold CompiledElement.stringField
  split
  · rename_i hdate
    simp [FieldDescriptor.Admits, ValueOverrides.apply, FieldDescriptor.plain, hdate]
  · rename_i huuid
    simp [FieldDescriptor.Admits, ValueOverrides.apply, CompiledElement.identifierField,
      FieldDescriptor.plain, huuid]
  · rename_i hdate huuid
    -- Neither a date nor an identifier: what is left of the enumeration decides.
    rw [if_neg hdate, if_neg huuid]
    split
    · rename_i henums
      have hvalues := CompiledElement.values_ne_nil_of_hasEnums henums
      simp only [FieldDescriptor.Admits, CompiledElement.admitsText_choiceField hvalues]
      simp [ValueOverrides.apply, CompiledElement.choiceField, FieldDescriptor.plain]
    · cases hmax : o.maxLength <;>
        simp [FieldDescriptor.Admits, FieldDescriptor.AdmitsText, ValueOverrides.apply,
          FieldDescriptor.plain, hmax, CompiledElement.freeTextLength]

/-- The column of the value admits exactly the domain of the element. -/
theorem ElementReading.admits_valueField (r : s.ElementReading name) :
    (o.apply (CompiledElement.valueField name r.category r.narrowed)).Admits v ↔
      r.Domain o v := by
  rw [Domain, ← r.name_narrowed]
  cases r.category with
  | boolean =>
      simp [CompiledElement.valueField, FieldDescriptor.Admits, ValueOverrides.apply,
        FieldDescriptor.plain]
  | integer =>
      by_cases hduration : r.narrowed.name = "Duration" <;>
        simp [CompiledElement.valueField, CompiledElement.countField, hduration,
          FieldDescriptor.Admits, ValueOverrides.apply, FieldDescriptor.plain, Constraints.Bounds,
          Decimal.value_ofNat]
  | number =>
      simp [CompiledElement.valueField, FieldDescriptor.Admits, ValueOverrides.apply,
        FieldDescriptor.plain, ValueKind.fixedDecimal, FitsDigits,
        ← CompiledElement.bounds_numberConstraints, Constraints.Bounds]
  | string => exact r.admits_stringField

/-- The value facet of a compiled element accepts exactly the values of the element. -/
theorem check_value_iff (h : s.compileElement name o = .ok e) :
    ∃ (r : s.ElementReading name) (f : FieldDescriptor), e.value? = some f ∧
      ∀ v, f.check v = .ok () ↔ r.Domain o v := by
  obtain ⟨r, rfl⟩ := compileElement_eq_ok_iff.mp h
  refine ⟨r, o.apply (CompiledElement.valueField name r.category r.narrowed), ?_, ?_⟩
  · exact r.facet?_compiled o .value
  · intro v
    rw [FieldDescriptor.check_eq_ok_iff, r.admits_valueField]

/-- The phases of a wire, of which a group leaves out the neutral conductor. -/
def wiring : Store where
  source := none
  schemas := .ofList [("Phase", .element ⟨"TaxonomyElementString", "", "Conductor", some "Live"⟩)]
  itemTypes := .ofList [("Conductor", .obj [("enums",
    .obj [("A", .obj []), ("AB", .obj []), ("Neutral", .obj [])])])]
  itemTypeGroups := .ofList [("Live", .obj [("type", .str "Conductor"),
    ("group", .arr [.str "AB", .str "A"])])]

/-- An override cuts off the phases that are longer, but never the empty string. -/
theorem check_value_phase :
    ∃ e, wiring.compileElement "Phase" { maxLength := some 1 } = .ok e ∧
      ∃ (r : wiring.ElementReading "Phase") (f : FieldDescriptor), e.value? = some f ∧
        (∀ v, f.check v = .ok () ↔ r.Domain { maxLength := some 1 } v) ∧
        ["", "A", "AB", "Neutral"].map (fun s => (f.check (.string s)).toBool) =
          [true, true, false, false] := by
  have hchecks : (fun e => e.value?.map (fun f =>
        ["", "A", "AB", "Neutral"].map (fun s => (f.check (.string s)).toBool))) <$>
      wiring.compileElement "Phase" { maxLength := some 1 } =
        .ok (some [true, true, false, false]) := by
    cbv
  obtain ⟨e, hcompile, hchecks⟩ := Except.map_eq_ok_iff.mp hchecks
  obtain ⟨r, f, hvalue, hdomain⟩ := check_value_iff hcompile
  rw [hvalue] at hchecks
  exact ⟨e, hcompile, r, f, hvalue, hdomain, Option.some.inj hchecks⟩

end Store

end Taxonomy
