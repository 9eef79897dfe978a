import Mathlib.Data.List.Nodup
import Taxonomy.Proofs.Element.Domain
import Taxonomy.Proofs.Element.Outcome
import Taxonomy.Proofs.ItemType.Grouping

/-!
# The choices of a compiled element

The choices of a unit or of an enumerated string come from a map of the document by way of the item
type, the group and the constraints. Here the two ends are joined: the choices are the members of
the map that the group lists, in the order of the map, and the facet takes these ids and the empty
string and no other text.
-/

namespace Taxonomy

namespace ItemTypeGroup

variable {entry : Json} {ids : List String}

/-- The ids in the list of an entry. -/
def listedIds (entry : Json) : List String :=
  match entry.get? "group" with
  | some (.arr items) => items.filterMap Json.asString?
  | _ => []

theorem listedIds_of_lists (h : Lists entry ids) : listedIds entry = ids := by
  rcases h with ⟨hnone, rfl⟩ | hlist
  · rw [listedIds, hnone]
  · rw [listedIds, hlist]
    show (ids.map .str).filterMap Json.asString? = ids
    rw [List.filterMap_map]
    exact List.filterMap_some

end ItemTypeGroup

namespace ItemType

/-- The choice that a member of a map gives: its id, shown by its label or by the id itself. -/
def choiceOf (member : String × Json) : Choice :=
  ⟨member.1, (member.2.getString? "label").getD member.1⟩

variable {name : String} {entry : Json} {t : ItemType} {group : Option ItemTypeGroup}
variable {members : List (String × Json)}

/-- The units that are left in a group come from the map of units. -/
theorem members_of_hasUnits (h : ofJson name entry = .ok t)
    (hunits : (t.grouped group).hasUnits = true) :
    ∃ members, entry.get? "enums" = none ∧ entry.get? "units" = some (.obj members) ∧
      t.values = valuesOf members := by
  rcases ofJson_eq_ok_iff.mp h with
    ⟨members, _, rfl⟩ | ⟨hnone, ⟨members, hentry, rfl⟩ | ⟨_, rfl⟩⟩
  · cases hunits
  · exact ⟨members, hnone, hentry, rfl⟩
  · cases hunits

/-- The enumerated values that are left in a group come from the map of these values. -/
theorem members_of_hasEnums (h : ofJson name entry = .ok t)
    (henums : (t.grouped group).hasEnums = true) :
    ∃ members, entry.get? "enums" = some (.obj members) ∧ t.values = valuesOf members := by
  rcases ofJson_eq_ok_iff.mp h with
    ⟨members, hentry, rfl⟩ | ⟨_, ⟨members, _, rfl⟩ | ⟨_, rfl⟩⟩
  · exact ⟨members, hentry, rfl⟩
  · cases henums
  · cases henums

/-- An item type with a map of enumerated values is enumerated, in a group as well. -/
theorem hasEnums_of_members (g : Option ItemTypeGroup) (h : ofJson name entry = .ok t)
    (hentry : entry.get? "enums" = some (.obj members)) :
    t.values = valuesOf members ∧
      ((t.grouped g).values ≠ [] → (t.grouped g).hasEnums = true) := by
  rcases ofJson_eq_ok_iff.mp h with ⟨members', hentry', rfl⟩ | ⟨hnone, _⟩
  · rw [hentry] at hentry'
    cases hentry'
    refine ⟨rfl, fun hvalues => ?_⟩
    simpa [grouped, withValues, hasEnums, values] using hvalues
  · rw [hentry] at hnone
    cases hnone

theorem values_ne_nil_of_hasUnits (h : t.hasUnits = true) : t.values ≠ [] := by
  obtain ⟨_, _, values, rfl, hvalues⟩ := hasUnits_iff.mp h
  exact hvalues

end ItemType

namespace Store

variable {s : Store} {name : String} {group : Option String} {g : Option ItemTypeGroup}
variable {t : ItemType} {e : CompiledElement} {f : FieldDescriptor}
variable {members : List (String × Json)}

/-- Whether the group lists an id. Without a group every id counts as listed. -/
def isListed (s : Store) (group : Option String) (id : String) : Bool :=
  match group with
  | none => true
  | some name =>
    name == "" || (s.itemTypeGroups.get? name).any
      (fun entry => (ItemTypeGroup.listedIds entry).contains id)

/-- The choices of the members of a map that the group lists, in the order of the map. -/
def listedChoices (s : Store) (group : Option String) (members : List (String × Json)) :
    List Choice :=
  (members.filter (fun member => s.isListed group member.1)).map ItemType.choiceOf

theorem groupedValues_eq_filter (h : s.itemTypeGroup group = .ok g) :
    t.groupedValues g = t.values.filter (fun value => s.isListed group value.id) := by
  cases group with
  | none =>
      cases h
      simp [ItemType.groupedValues, isListed]
  | some name =>
      by_cases hname : name = ""
      · subst hname
        cases h
        simp [ItemType.groupedValues, isListed]
      · rw [itemTypeGroup_of_ne hname] at h
        cases hentry : s.itemTypeGroups.get? name with
        | none =>
            rw [hentry] at h
            cases h
        | some entry =>
            rw [hentry] at h
            obtain ⟨read, hread, rfl⟩ := Except.map_eq_ok_iff.mp h
            obtain ⟨ids, hids, rfl⟩ := ItemTypeGroup.ofJson_eq_ok_iff.mp hread
            have hlisted := ItemTypeGroup.listedIds_of_lists hids
            have hnot : (name == "") = false := beq_eq_false_iff_ne.mpr hname
            simp [ItemType.groupedValues, isListed, hnot, hentry, hlisted]

/-- What is left of a map of values in a group, as choices. -/
theorem ElementReading.choices_narrowed (r : s.ElementReading name)
    (h : r.itemType.values = ItemType.valuesOf members) :
    r.narrowed.values.map (fun value => (⟨value.id, value.label⟩ : Choice)) =
      s.listedChoices r.definition.itemTypeGroup members := by
  rw [narrowed, ItemType.values_grouped, groupedValues_eq_filter r.has_group, h,
    ItemType.valuesOf, List.filter_map, List.map_map]
  rfl

end Store

namespace CompiledElement

variable {name : String} {category : Category} {itemType : ItemType} {facet : Facet}
variable {f : FieldDescriptor} {text : String}

/-- The length of the longest id. -/
theorem longest_eq_max? (values : List ItemTypeValue) :
    longest values = (values.map (·.id.length)).max? := by
  induction values with
  | nil => rfl
  | cons first rest ih =>
      rw [longest, ih, List.map_cons, List.max?_cons]
      cases (rest.map (·.id.length)).max? <;> simp

/-- A choice is taken if it is one of the ids. -/
theorem check_choiceField (h : itemType.values ≠ []) :
    (choiceField name facet itemType).check (.string text) = .ok () ↔
      text = "" ∨ ∃ value ∈ itemType.values, value.id = text := by
  have hadmits : (choiceField name .value itemType).AdmitsText text ↔
      text = "" ∨ ∃ value ∈ itemType.values, value.id = text := by
    rw [← ValueOverrides.apply_unchanged (choiceField name .value itemType),
      admitsText_choiceField h]
    simp [ValueOverrides.unchanged]
  rw [FieldDescriptor.check_eq_ok_iff, ← hadmits]
  simp [FieldDescriptor.Admits, FieldDescriptor.AdmitsText, choiceField, FieldDescriptor.plain]

/-- The value of a string that is neither a date nor an identifier. -/
theorem stringField_of_hasEnums (hdate : itemType.name ≠ "Date")
    (huuid : itemType.name ≠ "UUID") (h : itemType.hasEnums = true) :
    stringField name itemType = choiceField name .value itemType := by
  rw [stringField]
  split
  · exact absurd ‹_› hdate
  · exact absurd ‹_› huuid
  · rw [if_pos h]

theorem choices_stringField (h : (stringField name itemType).constraints.choices ≠ []) :
    itemType.name ≠ "Date" ∧ itemType.name ≠ "UUID" ∧ itemType.hasEnums = true := by
  unfold stringField at h
  split at h
  · exact absurd rfl h
  · exact absurd rfl h
  · rename_i hdate huuid
    split at h
    · exact ⟨hdate, huuid, ‹_›⟩
    · exact absurd rfl h

/-- Choices are found on a unit and on an enumerated string only. -/
theorem eq_choiceField_of_choices
    (hfield : field? name category itemType .unchanged facet = some f)
    (h : f.constraints.choices ≠ []) :
    f = choiceField name facet itemType ∧
      (facet = .unit ∧ itemType.hasUnits = true ∨
        facet = .value ∧ category = .string ∧ itemType.name ≠ "Date" ∧ itemType.name ≠ "UUID" ∧
          itemType.hasEnums = true) := by
  cases facet with
  | endTime | startTime =>
      obtain rfl := field?_eq_some_iff.mp hfield
      exact absurd rfl h
  | decimals | precision =>
      obtain ⟨_, rfl⟩ := field?_eq_some_iff.mp hfield
      exact absurd rfl h
  | unit =>
      obtain ⟨_, hunits, rfl⟩ := field?_eq_some_iff.mp hfield
      exact ⟨rfl, .inl ⟨rfl, hunits⟩⟩
  | value =>
      obtain rfl := field?_eq_some_iff.mp hfield
      rw [ValueOverrides.apply_unchanged] at h ⊢
      cases category with
      | boolean => exact absurd rfl h
      | integer =>
          rw [valueField] at h
          split at h <;> exact absurd rfl h
      | number =>
          rw [valueField] at h
          unfold numberConstraints at h
          split at h <;> exact absurd rfl h
      | string =>
          obtain ⟨hdate, huuid, henums⟩ := choices_stringField h
          exact ⟨stringField_of_hasEnums hdate huuid henums,
            .inr ⟨rfl, rfl, hdate, huuid, henums⟩⟩

end CompiledElement

namespace Store

variable {s : Store} {name : String} {e : CompiledElement} {f : FieldDescriptor}
variable {members : List (String × Json)}

/-- The choices of a facet are the members of a map that a group lists, each once if the map has
each id once. The longest of them sets the greatest length, and besides the empty string they are
all that the facet takes. -/
structure TakesListed (s : Store) (group : Option String) (members : List (String × Json))
    (f : FieldDescriptor) : Prop where
  choices : f.constraints.choices = s.listedChoices group members
  nodup : Entries.Distinct members → (f.constraints.choices.map (·.id)).Nodup
  maxLength : f.constraints.maxLength = (f.constraints.choices.map (·.id.length)).max?
  check : ∀ text, f.check (.string text) = .ok () ↔
    text = "" ∨ ∃ choice ∈ f.constraints.choices, choice.id = text

theorem nodup_listedChoices {group : Option String} (h : Entries.Distinct members) :
    ((s.listedChoices group members).map (·.id)).Nodup := by
  have hids : (s.listedChoices group members).map (·.id) =
      (members.filter (fun member => s.isListed group member.1)).map (·.1) := by
    rw [listedChoices, List.map_map]
    rfl
  rw [hids]
  exact h.sublist (List.filter_sublist.map _)

theorem ElementReading.takesListed (r : s.ElementReading name) (facet : Facet)
    (hnonempty : r.narrowed.values ≠ [])
    (hvalues : r.itemType.values = ItemType.valuesOf members) :
    s.TakesListed r.definition.itemTypeGroup members
      (CompiledElement.choiceField name facet r.narrowed) where
  choices := r.choices_narrowed hvalues
  nodup hdistinct := by
    have hchoices : (CompiledElement.choiceField name facet r.narrowed).constraints.choices =
        s.listedChoices r.definition.itemTypeGroup members := r.choices_narrowed hvalues
    rw [hchoices]
    exact nodup_listedChoices hdistinct
  maxLength := by
    simp [CompiledElement.choiceField, CompiledElement.longest_eq_max?, Function.comp_def]
  check text := by
    rw [CompiledElement.check_choiceField hnonempty]
    simp [CompiledElement.choiceField]

theorem ElementReading.exists_entry (r : s.ElementReading name) :
    ∃ entry, s.itemTypes.get? r.definition.itemType = some entry ∧
      ItemType.ofJson r.definition.itemType entry = .ok r.itemType := by
  have h := r.has_itemType
  cases hentry : s.itemTypes.get? r.definition.itemType with
  | none =>
      rw [Store.itemType, hentry] at h
      cases h
  | some entry =>
      rw [Store.itemType, hentry] at h
      exact ⟨entry, rfl, h⟩

/-- A facet is the one that its tag stands for. -/
theorem ElementReading.field?_of_mem (r : s.ElementReading name) {o : ValueOverrides}
    (h : f ∈ (r.compiled o).facets) : r.field? o f.facet = some f := by
  obtain ⟨facet, _, hfield⟩ := List.mem_filterMap.mp h
  rwa [CompiledElement.facet_of_field? hfield]

/-- A facet of an element without overrides has choices exactly if it is a unit, or the value of a
string of which the document enumerates the values and the group leaves some, dates and identifiers
apart. The choices are what the document says they are. -/
theorem choices_of_compileElement (h : s.compileElement name .unchanged = .ok e) :
    ∃ definition entry, s.schemas.get? name = some (.element definition) ∧
      s.itemTypes.get? definition.itemType = some entry ∧
      (∀ f ∈ e.facets, f.constraints.choices ≠ [] →
        ∃ members, s.TakesListed definition.itemTypeGroup members f ∧
          (f.facet = .unit ∧ entry.get? "enums" = none ∧
              entry.get? "units" = some (.obj members) ∨
            f.facet = .value ∧ e.superclass = .string ∧ definition.itemType ≠ "Date" ∧
              definition.itemType ≠ "UUID" ∧ entry.get? "enums" = some (.obj members))) ∧
      (∀ f ∈ e.facets, f.facet = .unit → f.constraints.choices ≠ []) ∧
      ∀ f ∈ e.facets, f.facet = .value → e.superclass = .string → definition.itemType ≠ "Date" →
        definition.itemType ≠ "UUID" → ∀ members, entry.get? "enums" = some (.obj members) →
          s.listedChoices definition.itemTypeGroup members ≠ [] → f.constraints.choices ≠ [] := by
  obtain ⟨r, rfl⟩ := compileElement_eq_ok_iff.mp h
  obtain ⟨entry, hentry, hread⟩ := r.exists_entry
  refine ⟨r.definition, entry, r.declared, hentry, ?listed, ?unit, ?value⟩
  case listed =>
    intro f hf hchoices
    obtain ⟨heq, hfacet⟩ :=
      CompiledElement.eq_choiceField_of_choices (r.field?_of_mem hf) hchoices
    rw [r.name_narrowed] at hfacet
    rw [heq]
    rcases hfacet with ⟨hfacet, hunits⟩ | ⟨hfacet, hcategory, hdate, huuid, henums⟩
    · obtain ⟨members, hnone, hmembers, hvalues⟩ := ItemType.members_of_hasUnits hread hunits
      exact ⟨members, r.takesListed f.facet (ItemType.values_ne_nil_of_hasUnits hunits) hvalues,
        .inl ⟨hfacet, hnone, hmembers⟩⟩
    · obtain ⟨members, hmembers, hvalues⟩ := ItemType.members_of_hasEnums hread henums
      have hnonempty := CompiledElement.values_ne_nil_of_hasEnums henums
      exact ⟨members, r.takesListed f.facet hnonempty hvalues,
        .inr ⟨hfacet, hcategory, hdate, huuid, hmembers⟩⟩
  case unit =>
    intro f hf hfacet
    have hfield := r.field?_of_mem hf
    rw [hfacet] at hfield
    obtain ⟨_, hunits, rfl⟩ := CompiledElement.field?_eq_some_iff.mp hfield
    simpa [CompiledElement.choiceField] using ItemType.values_ne_nil_of_hasUnits hunits
  case value =>
    intro f hf hfacet hcategory hdate huuid members hmembers hlisted
    have hfield := r.field?_of_mem hf
    rw [hfacet] at hfield
    obtain rfl := CompiledElement.field?_eq_some_iff.mp hfield
    obtain ⟨hvalues, hasEnums⟩ := ItemType.hasEnums_of_members r.group hread hmembers
    have hchoices := r.choices_narrowed hvalues
    have hnonempty : r.narrowed.values ≠ [] := by
      intro hempty
      rw [hempty] at hchoices
      exact hlisted hchoices.symm
    rw [← r.name_narrowed] at hdate huuid
    have hcategory : r.category = .string := hcategory
    rw [ValueOverrides.apply_unchanged, hcategory, CompiledElement.valueField,
      CompiledElement.stringField_of_hasEnums hdate huuid (hasEnums hnonempty)]
    simpa [CompiledElement.choiceField] using hnonempty

/-- Of the phases the group lists two, and they stay in the order of the map. -/
theorem choices_of_compileElement_phase :
    ∃ e, wiring.compileElement "Phase" .unchanged = .ok e ∧ ∃ f ∈ e.facets,
      f.constraints.choices.map (·.id) = ["A", "AB"] ∧
        ∃ members, wiring.TakesListed (some "Live") members f := by
  have hcompiled : (fun e => e.facets.map (·.constraints.choices)) <$>
      wiring.compileElement "Phase" .unchanged = .ok [[], [], [⟨"A", "A"⟩, ⟨"AB", "AB"⟩]] := by
    cbv
  obtain ⟨e, hcompile, hchoices⟩ := Except.map_eq_ok_iff.mp hcompiled
  obtain ⟨definition, entry, hdeclared, _, hlisted, _⟩ := choices_of_compileElement hcompile
  have hphase : wiring.schemas.get? "Phase" =
      some (.element ⟨"TaxonomyElementString", "", "Conductor", some "Live"⟩) := by
    cbv
  rw [hphase] at hdeclared
  cases hdeclared
  obtain ⟨f, hf, hpair⟩ : ∃ f ∈ e.facets, f.constraints.choices = [⟨"A", "A"⟩, ⟨"AB", "AB"⟩] := by
    rw [← List.mem_map, hchoices]
    simp
  obtain ⟨members, htakes, _⟩ := hlisted f hf (by simp [hpair])
  exact ⟨e, hcompile, f, hf, by simp [hpair], members, htakes⟩

end Store

end Taxonomy
