import Taxonomy.ItemType
import Taxonomy.Proofs.Outcome

/-!
# Narrowing to a group

An item type is narrowed to a group by leaving out the values that the group does not list, so that
groups act on an item type as sets of ids do: one after another, in any order, they leave the values
that all of them list, and what a group lists besides the ids of the item type does not count. In
the document a group is a list, and its items count in the same way once all of them are ids.
-/

namespace Taxonomy

namespace ItemType

variable {t : ItemType} {ids ids' common : List String}

theorem values_grouped (t : ItemType) (group : Option ItemTypeGroup) :
    (t.grouped group).values = t.groupedValues group := by
  cases t with
  | plain => cases group <;> rfl
  | enumerated | unit => rfl

/-- The item type with those of its values whose ids are listed. -/
def restrict (t : ItemType) (ids : List String) : ItemType :=
  t.withValues (t.values.filter (fun v => v.id ∈ ids))

/-- Of a group only the ids count. -/
theorem grouped_some (t : ItemType) (g : ItemTypeGroup) :
    t.grouped (some g) = t.restrict g.ids := by
  simp [grouped, groupedValues, restrict]

theorem values_restrict (t : ItemType) (ids : List String) :
    (t.restrict ids).values = t.values.filter (fun v => v.id ∈ ids) := by
  cases t <;> rfl

theorem withValues_restrict (t : ItemType) (ids : List String) (values : List ItemTypeValue) :
    (t.restrict ids).withValues values = t.withValues values := by
  cases t <;> rfl

/-- Of the ids only those of the item type count, and neither their order nor how often they are
listed. -/
theorem restrict_congr (h : ∀ v ∈ t.values, v.id ∈ ids ↔ v.id ∈ ids') :
    t.restrict ids = t.restrict ids' := by
  apply congrArg (t.withValues ·)
  apply List.filter_congr
  intro v hv
  exact decide_eq_decide.mpr (h v hv)

/-- One list after the other leaves the values that both of them list. -/
theorem restrict_restrict (h : ∀ id, id ∈ common ↔ id ∈ ids ∧ id ∈ ids') :
    (t.restrict ids).restrict ids' = t.restrict common := by
  have hvalues : (t.restrict ids).values.filter (fun v => v.id ∈ ids') =
      t.values.filter (fun v => v.id ∈ common) := by
    rw [values_restrict, List.filter_filter]
    apply List.filter_congr
    intro v _
    rw [← Bool.decide_and, decide_eq_decide, h, and_comm]
  rw [restrict, hvalues, withValues_restrict, ← restrict]

theorem restrict_self (t : ItemType) (ids : List String) :
    (t.restrict ids).restrict ids = t.restrict ids :=
  restrict_restrict fun _ => and_self_iff.symm

theorem restrict_comm (t : ItemType) (ids ids' : List String) :
    (t.restrict ids).restrict ids' = (t.restrict ids').restrict ids := by
  have hcommon : ∀ id, id ∈ ids.filter (fun id => id ∈ ids') ↔ id ∈ ids ∧ id ∈ ids' := by
    intro id
    simp
  rw [restrict_restrict hcommon, restrict_restrict]
  intro id
  rw [hcommon, and_comm]

end ItemType

namespace ItemTypeGroup

variable {declared : String → Prop} {items items' : List Json} {entry entry' : Json}
variable {t : ItemType} {id : String}

/-- An item of a list is an id if it is a string. -/
def isId (item : Json) : Bool :=
  item.asString?.isSome

/-- Lists that differ at most in the order and the repetition of their ids and in ids that are not
declared. The first item that is no id is what a list is refused for, so it is the same in both. -/
structure SameIds (declared : String → Prop) (items items' : List Json) : Prop where
  ids : ∀ id, declared id → (.str id ∈ items ↔ .str id ∈ items')
  fault : items.find? (fun item => !isId item) = items'.find? (fun item => !isId item)

/-- Entries with the same list of ids, apart from what `SameIds` leaves open. -/
def SameList (declared : String → Prop) (entry entry' : Json) : Prop :=
  entry.get? "group" = entry'.get? "group" ∨
    ∃ items items', entry.get? "group" = some (.arr items) ∧
      entry'.get? "group" = some (.arr items') ∧ SameIds declared items items'

theorem mem_filterMap_asString?_iff :
    id ∈ items.filterMap Json.asString? ↔ .str id ∈ items := by
  rw [List.mem_filterMap]
  constructor
  · rintro ⟨item, hitem, hid⟩
    cases item with
    | str text =>
        cases hid
        exact hitem
    | _ => cases hid
  · intro h
    exact ⟨.str id, h, rfl⟩

/-- A list is read as its ids, and refused for the first item that is none. -/
theorem parseIds_eq (name : String) (items : List Json) :
    parseIds name items =
      match items.find? (fun item => !isId item) with
      | none => .ok (items.filterMap Json.asString?)
      | some item => .error (.malformedSchema name (.groupId item)) := by
  induction items with
  | nil => rfl
  | cons item items ih =>
      cases item with
      | str id =>
          have hfind : (Json.str id :: items).find? (fun item => !isId item) =
              items.find? (fun item => !isId item) := rfl
          rw [parseIds, ih, hfind]
          cases items.find? (fun item => !isId item) <;> rfl
      | _ => rfl

/-- Lists with the same declared ids restrict an item type of these ids alike, or they are refused
alike. -/
theorem SameIds.map_restrict (h : SameIds declared items items')
    (hvalues : ∀ v ∈ t.values, declared v.id) (name : String) :
    t.restrict <$> parseIds name items = t.restrict <$> parseIds name items' := by
  rw [parseIds_eq, parseIds_eq, ← h.fault]
  cases items.find? (fun item => !isId item) with
  | some item => rfl
  | none =>
      apply congrArg Except.ok
      apply ItemType.restrict_congr
      intro v hv
      rw [mem_filterMap_asString?_iff, mem_filterMap_asString?_iff]
      exact h.ids v.id (hvalues v hv)

/-- So do the groups of their entries. -/
theorem SameList.map_grouped (h : SameList declared entry entry')
    (hvalues : ∀ v ∈ t.values, declared v.id) (name : String) :
    (fun g => t.grouped (some g)) <$> ofJson name entry =
      (fun g => t.grouped (some g)) <$> ofJson name entry' := by
  rcases h with hsame | ⟨items, items', hitems, hitems', hids⟩
  · cases hlist : entry'.get? "group" with
    | none => simp only [ofJson, hsame, hlist, map_bind, Except.map_ok, ItemType.grouped_some]
    | some list =>
        cases list <;>
          simp only [ofJson, hsame, hlist, map_bind, Except.map_ok, ItemType.grouped_some]
  · have hrestrict := hids.map_restrict hvalues name
    simp only [ofJson, hitems, hitems', map_bind, Except.map_ok, ItemType.grouped_some]
    rwa [map_eq_pure_bind, map_eq_pure_bind] at hrestrict

end ItemTypeGroup

end Taxonomy
