import Taxonomy.Proofs.Element.Domain
import Taxonomy.Proofs.Element.Outcome
import Taxonomy.Proofs.ItemType.Grouping

/-!
# Elements of a group

What an element compiles to depends on its group by the ids of its item type that the group lists.
Two documents whose groups list the same of them, in whatever order and however often, and whatever
other ids besides, compile the element to the same or refuse it for the same reason.
-/

namespace Taxonomy

namespace Store

variable {s s' : Store} {declared : String → Prop} {name : String} {t : ItemType}

/-- The item type of an element has a value of an id. -/
def DeclaresId (s : Store) (name id : String) : Prop :=
  ∃ definition t, s.schemas.get? name = some (.element definition) ∧
    s.itemType definition.itemType = .ok t ∧ ∃ v ∈ t.values, v.id = id

/-- Documents that differ at most in the lists of their groups, and there at most in the order and
the repetition of ids and in ids that are not declared. -/
structure Relisted (declared : String → Prop) (s s' : Store) : Prop where
  schemas : s.schemas = s'.schemas
  itemTypes : s.itemTypes = s'.itemTypes
  groups : ∀ name, Option.Rel (ItemTypeGroup.SameList declared)
    (s.itemTypeGroups.get? name) (s'.itemTypeGroups.get? name)

/-- A group is missing in both documents, refused in both for the same reason, or narrows an item
type of declared ids alike. -/
theorem Relisted.map_grouped (h : s.Relisted declared s')
    (hvalues : ∀ v ∈ t.values, declared v.id) (group : Option String) :
    t.grouped <$> s.itemTypeGroup group = t.grouped <$> s'.itemTypeGroup group := by
  cases group with
  | none => rfl
  | some name =>
      by_cases hname : name = ""
      · subst hname
        rfl
      · rw [itemTypeGroup_of_ne hname, itemTypeGroup_of_ne hname]
        have hentry := h.groups name
        generalize s.itemTypeGroups.get? name = entry, s'.itemTypeGroups.get? name = entry'
          at hentry ⊢
        cases hentry with
        | none => rfl
        | some hlist =>
            have hgrouped := hlist.map_grouped hvalues name
            simpa only [Functor.map_map] using hgrouped

/-- An element reads its group by the values that are left of its item type. -/
theorem compileElement_of_relisted (h : s.Relisted (s.DeclaresId name) s') (o : ValueOverrides) :
    s.compileElement name o = s'.compileElement name o := by
  have helement : s.element name = s'.element name := by
    rw [element, element, lookup, lookup, h.schemas]
  have hitemType : ∀ itemType, s.itemType itemType = s'.itemType itemType := by
    intro itemType
    rw [Store.itemType, Store.itemType, h.itemTypes]
  rw [compileElement, compileElement, superclassOf, superclassOf, ← helement]
  cases hdefinition : s.element name with
  | error fault => rfl
  | ok definition =>
      simp only [Except.ok_bind, ← hitemType]
      cases categoryOf name definition with
      | error fault => rfl
      | ok category =>
          cases ht : s.itemType definition.itemType with
          | error fault => rfl
          | ok t =>
              have hvalues : ∀ v ∈ t.values, s.DeclaresId name v.id := by
                intro v hv
                exact ⟨definition, t, element_eq_ok_iff.mp hdefinition, ht, v, hv, rfl⟩
              -- From here on the group is read by the narrowed item type alone.
              apply Except.bind_eq_of_map_eq ?_ (h.map_grouped hvalues definition.itemTypeGroup)
              intro group group' hnarrowed
              rw [hnarrowed]

/-- Narrowing to a group keeps the values that the group lists in their order. Doing it again
changes nothing, and two groups in either order leave what one group of the ids that they share
would leave. So an element compiles alike in documents whose groups list the same ids of its item
type. -/
theorem grouping_by_known_ids (t : ItemType) (g h : ItemTypeGroup) :
    (t.grouped (some g)).values = t.values.filter (fun v => v.id ∈ g.ids) ∧
    (t.grouped (some g)).values.Sublist t.values ∧
    (t.grouped (some g)).grouped (some g) = t.grouped (some g) ∧
    (t.grouped (some g)).grouped (some h) = (t.grouped (some h)).grouped (some g) ∧
    (∀ common : ItemTypeGroup, (∀ id, id ∈ common.ids ↔ id ∈ g.ids ∧ id ∈ h.ids) →
      (t.grouped (some g)).grouped (some h) = t.grouped (some common)) ∧
    ∀ (s s' : Store) (name : String), s.Relisted (s.DeclaresId name) s' →
      ∀ o, s.compileElement name o = s'.compileElement name o := by
  simp only [ItemType.grouped_some]
  refine ⟨t.values_restrict g.ids, ?sublist, t.restrict_self g.ids, t.restrict_comm g.ids h.ids,
    ?common, ?stores⟩
  case sublist =>
    rw [ItemType.values_restrict]
    exact List.filter_sublist
  case common =>
    intro common hcommon
    exact ItemType.restrict_restrict hcommon
  case stores =>
    intro s s' name hrelisted o
    exact compileElement_of_relisted hrelisted o

/-- The wires again, their group in another order, with an id twice and one that no phase has. -/
def relistedWiring : Store :=
  { wiring with itemTypeGroups := .ofList [("Live", .obj [("type", .str "Conductor"),
      ("group", .arr [.str "A", .str "AB", .str "Earth", .str "A"])])] }

theorem ne_earth_of_declaresId {id : String} (h : wiring.DeclaresId "Phase" id) :
    id ≠ "Earth" := by
  obtain ⟨definition, t, hdeclared, hitemType, v, hv, rfl⟩ := h
  have hphase : wiring.schemas.get? "Phase" =
      some (.element ⟨"TaxonomyElementString", "", "Conductor", some "Live"⟩) := by
    cbv
  rw [hphase] at hdeclared
  cases hdeclared
  have hconductor : wiring.itemType "Conductor" = .ok (.enumerated "Conductor" ""
      [⟨"A", "A", ""⟩, ⟨"AB", "AB", ""⟩, ⟨"Neutral", "Neutral", ""⟩]) := by
    cbv
  rw [hconductor] at hitemType
  cases hitemType
  simp only [ItemType.values, List.mem_cons, List.not_mem_nil, or_false] at hv
  rcases hv with rfl | rfl | rfl <;> decide

theorem relisted_wiring : wiring.Relisted (wiring.DeclaresId "Phase") relistedWiring where
  schemas := rfl
  itemTypes := rfl
  groups name := by
    have hgroups : ∀ entry : Json, (NameMap.ofList [("Live", entry)]).get? name =
        if "Live" = name then some entry else none := fun entry => NameMap.get?_ofList _ _
    show Option.Rel _ ((NameMap.ofList [("Live", _)]).get? name)
      ((NameMap.ofList [("Live", _)]).get? name)
    rw [hgroups, hgroups]
    split
    · refine .some (.inr ⟨_, _, rfl, rfl, ?_, rfl⟩)
      intro id hdeclared
      simp [ne_earth_of_declaresId hdeclared, or_comm]
    · exact .none

/-- The phases compile alike in both documents, and two groups that share one of them leave it. -/
theorem grouping_by_known_ids_phase :
    let t : ItemType := .enumerated "Conductor" "" [⟨"A", "A", ""⟩, ⟨"AB", "AB", ""⟩]
    let g : ItemTypeGroup := ⟨"Live", "Conductor", "", ["AB", "A"]⟩
    let h : ItemTypeGroup := ⟨"Pairs", "Conductor", "", ["AB", "BC", "AB"]⟩
    let common : ItemTypeGroup := ⟨"Both", "Conductor", "", ["AB"]⟩
    (∀ id, id ∈ common.ids ↔ id ∈ g.ids ∧ id ∈ h.ids) ∧
      (t.grouped (some g)).grouped (some h) = t.grouped (some common) ∧
      wiring.Relisted (wiring.DeclaresId "Phase") relistedWiring ∧
      (wiring.compileElement "Phase" .unchanged).toBool = true ∧
      wiring.compileElement "Phase" .unchanged =
        relistedWiring.compileElement "Phase" .unchanged := by
  intro t g h common
  have hcommon : ∀ id, id ∈ common.ids ↔ id ∈ g.ids ∧ id ∈ h.ids := by
    intro id
    simp only [common, g, h, List.mem_cons, List.not_mem_nil, or_false]
    grind
  have hcompiles : (wiring.compileElement "Phase" .unchanged).toBool = true := by
    cbv
  obtain ⟨-, -, -, -, hboth, hstores⟩ := grouping_by_known_ids t g h
  exact ⟨hcommon, hboth common hcommon, relisted_wiring, hcompiles,
    hstores _ _ _ relisted_wiring .unchanged⟩

end Store

end Taxonomy
