import Taxonomy.ItemType
import Taxonomy.Proofs.Outcome

/-!
# Item types and groups as the document has them

The entries of item types and groups are read when an element needs them. Each reader is described
here by what stands in the entry: what it takes for the entry to have a meaning, what the meaning
is, and which fault is reported otherwise.
-/

namespace Taxonomy

variable {name : String} {entry value : Json} {err : TaxonomyError}

namespace ItemType

variable {key : String} {values : List ItemTypeValue} {t : ItemType}

/-- The key of the values of an entry. Units do not count where there are enumerated values. -/
def valuesKey (entry : Json) : String :=
  if (entry.get? "enums").isSome then "enums" else "units"

/-- The values of an entry are a map if it has any. -/
def HasValueMap (entry : Json) : Prop :=
  ∀ value ∈ entry.get? (valuesKey entry), ∃ members, value = .obj members

theorem valuesKey_of_enums (h : entry.get? "enums" = some value) : valuesKey entry = "enums" := by
  rw [valuesKey, h]
  rfl

theorem valuesKey_of_none (h : entry.get? "enums" = none) : valuesKey entry = "units" := by
  rw [valuesKey, h]
  rfl

theorem parseValues_eq_ok_iff :
    parseValues name key value = .ok values ↔
      ∃ members, value = .obj members ∧ valuesOf members = values := by
  cases value <;> simp [parseValues]

theorem parseValues_eq_error_iff :
    parseValues name key value = .error err ↔
      (∀ members, value ≠ .obj members) ∧ .malformedSchema name (.values key) = err := by
  cases value <;> simp [parseValues]

/-- An item type is enumerated, has units, or is plain, by the first key that its entry has. -/
theorem ofJson_eq_ok_iff :
    ofJson name entry = .ok t ↔
      (∃ members, entry.get? "enums" = some (.obj members) ∧
        t = .enumerated name (SchemaDefinition.descriptionOf entry) (valuesOf members)) ∨
      entry.get? "enums" = none ∧
        ((∃ members, entry.get? "units" = some (.obj members) ∧
          t = .unit name (SchemaDefinition.descriptionOf entry) (valuesOf members)) ∨
        entry.get? "units" = none ∧ t = .plain name (SchemaDefinition.descriptionOf entry)) := by
  cases henums : entry.get? "enums" with
  | some enums =>
      simp only [ofJson, henums, Except.bind_eq_ok_iff, parseValues_eq_ok_iff]
      grind
  | none =>
      cases hunits : entry.get? "units" with
      | some units =>
          simp only [ofJson, henums, hunits, Except.bind_eq_ok_iff, parseValues_eq_ok_iff]
          grind
      | none =>
          simp only [ofJson, henums, hunits]
          grind

/-- The only fault is that the values are no map. -/
theorem ofJson_eq_error_iff :
    ofJson name entry = .error err ↔
      (∃ value, entry.get? (valuesKey entry) = some value ∧ ∀ members, value ≠ .obj members) ∧
        .malformedSchema name (.values (valuesKey entry)) = err := by
  cases henums : entry.get? "enums" with
  | some enums =>
      simp [ofJson, henums, valuesKey_of_enums henums, Except.bind_eq_error_iff,
        parseValues_eq_error_iff]
  | none =>
      cases hunits : entry.get? "units" <;>
        simp [ofJson, henums, hunits, valuesKey_of_none henums, Except.bind_eq_error_iff,
          parseValues_eq_error_iff]

theorem exists_ofJson_iff : (∃ t, ofJson name entry = .ok t) ↔ HasValueMap entry := by
  rw [Except.exists_ok_iff]
  constructor
  · intro h value hvalue
    by_contra hnot
    exact h _ (ofJson_eq_error_iff.mpr
      ⟨⟨value, hvalue, fun members hobj => hnot ⟨members, hobj⟩⟩, rfl⟩)
  · intro h err herr
    obtain ⟨⟨value, hvalue, hnot⟩, _⟩ := ofJson_eq_error_iff.mp herr
    obtain ⟨members, hobj⟩ := h value hvalue
    exact hnot members hobj

theorem hasUnits_iff :
    t.hasUnits = true ↔
      ∃ name description values, t = .unit name description values ∧ values ≠ [] := by
  constructor
  · intro h
    cases t with
    | unit name description values =>
        exact ⟨name, description, values, rfl, by simpa [hasUnits] using h⟩
    | plain | enumerated => cases h
  · rintro ⟨name, description, values, rfl, hvalues⟩
    simpa [hasUnits] using hvalues

end ItemType

namespace ItemTypeGroup

variable {items : List Json} {ids : List String} {g : ItemTypeGroup}

/-- The ids that an entry lists, which are none if it has no list. -/
def Lists (entry : Json) (ids : List String) : Prop :=
  entry.get? "group" = none ∧ ids = [] ∨ entry.get? "group" = some (.arr (ids.map .str))

theorem parseIds_eq_ok_iff : parseIds name items = .ok ids ↔ items = ids.map .str := by
  induction items generalizing ids with
  | nil => cases ids <;> simp [parseIds]
  | cons item rest ih =>
      cases item with
      | str id =>
          rw [parseIds, Except.bind_eq_ok_iff]
          constructor
          · rintro ⟨others, hothers, h⟩
            cases h
            rw [ih.mp hothers, List.map_cons]
          · intro h
            cases ids with
            | nil => cases h
            | cons first others =>
                obtain ⟨hfirst, hothers⟩ := List.cons.inj h
                cases hfirst
                exact ⟨others, ih.mpr hothers, rfl⟩
      | _ => cases ids <;> simp [parseIds]

/-- The first item that is no string is at fault. -/
theorem parseIds_eq_error_iff :
    parseIds name items = .error err ↔
      ∃ ids id rest, items = List.map Json.str ids ++ id :: rest ∧ (∀ text, id ≠ .str text) ∧
        .malformedSchema name (.groupId id) = err := by
  induction items with
  | nil => simp [parseIds]
  | cons item rest ih =>
      cases item with
      | str id =>
          simp only [parseIds, Except.bind_eq_error_iff, ih]
          constructor
          · rintro (⟨ids, other, after, rfl, hother, herr⟩ | ⟨_, _, h⟩)
            · exact ⟨id :: ids, other, after, rfl, hother, herr⟩
            · cases h
          · rintro ⟨ids, other, after, hitems, hother, herr⟩
            cases ids with
            | nil =>
                cases hitems
                exact absurd rfl (hother id)
            | cons first ids =>
                cases hitems
                exact .inl ⟨ids, other, after, rfl, hother, herr⟩
      | _ =>
          constructor
          · intro h
            cases h
            exact ⟨[], _, rest, rfl, nofun, rfl⟩
          · rintro ⟨ids, other, after, hitems, hother, herr⟩
            cases ids with
            | nil =>
                cases hitems
                exact congrArg Except.error herr
            | cons first ids => cases hitems

theorem ofJson_eq_ok_iff :
    ofJson name entry = .ok g ↔
      ∃ ids, Lists entry ids ∧
        (⟨name, (entry.getString? "type").getD "", SchemaDefinition.descriptionOf entry, ids⟩ :
          ItemTypeGroup) = g := by
  cases hgroup : entry.get? "group" with
  | none => simp [ofJson, Lists, hgroup]
  | some group =>
      cases group with
      | arr items => simp [ofJson, Lists, hgroup, Except.bind_eq_ok_iff, parseIds_eq_ok_iff]
      | _ => simp [ofJson, Lists, hgroup]

theorem exists_ofJson_iff : (∃ g, ofJson name entry = .ok g) ↔ ∃ ids, Lists entry ids := by
  constructor
  · rintro ⟨g, h⟩
    obtain ⟨ids, hids, _⟩ := ofJson_eq_ok_iff.mp h
    exact ⟨ids, hids⟩
  · rintro ⟨ids, hids⟩
    exact ⟨_, ofJson_eq_ok_iff.mpr ⟨ids, hids, rfl⟩⟩

/-- The list is not one, or one of its items is no string. -/
theorem ofJson_eq_error_iff :
    ofJson name entry = .error err ↔
      (∃ value, entry.get? "group" = some value ∧ (∀ items, value ≠ .arr items) ∧
        .malformedSchema name .groupNotAList = err) ∨
      ∃ ids id rest, entry.get? "group" = some (.arr (List.map Json.str ids ++ id :: rest)) ∧
        (∀ text, id ≠ .str text) ∧ .malformedSchema name (.groupId id) = err := by
  cases hgroup : entry.get? "group" with
  | none => simp [ofJson, hgroup]
  | some group =>
      cases group with
      | arr items => simp [ofJson, hgroup, Except.bind_eq_error_iff, parseIds_eq_error_iff]
      | _ => simp [ofJson, hgroup]

end ItemTypeGroup

end Taxonomy
