import Taxonomy.Proofs.Schema.Reading

/-!
# The order of keys

The members of a JSON map keep the order in which they were written, but of most maps of a document
only the names count. Two documents that differ in the order of their schemas, of the properties of
an object, of the item types or of the groups load to the same store, or with the same fault.
Inside an item type or a group nothing may change: the values of an item type keep their order.
-/

namespace Taxonomy

/-- Where in a document a value stands. -/
inductive Place
  | document
  | components
  /-- The map of schemas and all that is in it: definitions, their details, their properties. -/
  | schemas
  /-- The map of item types or the map of groups. -/
  | table
  /-- In an entry of such a map, or in a part that no document has. -/
  | elsewhere
deriving DecidableEq

/-- The place of a member. -/
def Place.member : Place → String → Place
  | document, key =>
    if key = "schemas" then schemas
    else if key = "components" then components
    else if key ∈ ["item-types", "x-ob-item-types", "item-type-groups", "x-ob-item-type-groups"] then
      table
    else elsewhere
  | components, key => if key = "schemas" then schemas else elsewhere
  | schemas, _ => schemas
  | table, _ => elsewhere
  | elsewhere, _ => elsewhere

/-- Two values at a place of a document that differ only in the order of keys: in any number of maps,
in each of which no key occurs twice, and in none that stands elsewhere. -/
inductive Reordered : Place → Json → Json → Prop
  | refl (place : Place) (value : Json) : Reordered place value value
  | keys {place : Place} {members members' : List (String × Json)} (free : place ≠ .elsewhere)
      (distinct : Entries.Distinct members) (perm : members.Perm members') :
      Reordered place (.obj members) (.obj members')
  | member {place : Place} {key : String} {value value' : Json} (front back : List (String × Json))
      (inside : Reordered (place.member key) value value') :
      Reordered place (.obj (front ++ (key, value) :: back)) (.obj (front ++ (key, value') :: back))
  | item {value value' : Json} (front back : List Json) (inside : Reordered .schemas value value') :
      Reordered .schemas (.arr (front ++ value :: back)) (.arr (front ++ value' :: back))
  | trans {place : Place} {value between value' : Json} (first : Reordered place value between)
      (second : Reordered place between value') : Reordered place value value'

namespace Reordered

variable {place : Place} {value value' : Json}

theorem symm (h : Reordered place value value') : Reordered place value' value := by
  induction h with
  | refl place value => exact .refl place value
  | keys free distinct perm => exact .keys free ((perm.map Prod.fst).nodup distinct) perm.symm
  | member front back _ ih => exact .member front back ih
  | item front back _ ih => exact .item front back ih
  | trans _ _ ihFirst ihSecond => exact .trans ihSecond ihFirst

/-- What has no place of its own is the same in both. -/
theorem eq_of_elsewhere (h : Reordered .elsewhere value value') : value = value' := by
  generalize hplace : Place.elsewhere = place at h
  induction h with
  | refl => rfl
  | keys free => exact absurd hplace.symm free
  | member front back _ ih =>
      subst hplace
      rw [ih rfl]
  | item => cases hplace
  | trans _ _ ihFirst ihSecond => exact (ihFirst hplace).trans (ihSecond hplace)

theorem isMap (h : Reordered place value value') :
    value.asObject?.isSome = value'.asObject?.isSome := by
  induction h with
  | refl | keys | member | item => rfl
  | trans _ _ ihFirst ihSecond => exact ihFirst.trans ihSecond

theorem asString? (h : Reordered place value value') : value.asString? = value'.asString? := by
  induction h with
  | refl | keys | member | item => rfl
  | trans _ _ ihFirst ihSecond => exact ihFirst.trans ihSecond

/-- A key has no member in either value, or a member in each of them, which differ in the same
way. -/
theorem get? (h : Reordered place value value') (key : String) :
    Option.Rel (Reordered (place.member key)) (value.get? key) (value'.get? key) := by
  induction h with
  | refl place value => exact rel_refl (.refl _) _
  | keys free distinct perm =>
      rw [Json.get?, Json.get?, Entries.lookup_perm distinct perm]
      exact rel_refl (.refl _) _
  | @member place other value value' front back inside ih =>
      rw [Json.get?, Json.get?, Entries.lookup_append, Entries.lookup_append, Entries.lookup_cons,
        Entries.lookup_cons]
      refine rel_or (rel_refl (.refl _) _) ?_
      by_cases hkey : other = key
      · subst hkey
        rw [if_pos rfl, if_pos rfl]
        exact .some inside
      · rw [if_neg hkey, if_neg hkey]
        exact rel_refl (.refl _) _
  | item => exact .none
  | trans _ _ ihFirst ihSecond => exact rel_trans (fun _ _ _ => .trans) ihFirst ihSecond

/-- A list of two items stays a list of two items. -/
theorem exists_pair (h : Reordered place value value') {first second : Json}
    (hvalue : value = .arr [first, second]) : ∃ first' second', value' = .arr [first', second'] ∧
      Reordered .schemas first first' ∧ Reordered .schemas second second' := by
  induction h generalizing first second with
  | refl => exact ⟨first, second, hvalue, .refl _ _, .refl _ _⟩
  | keys => cases hvalue
  | member => cases hvalue
  | @item value value' front back inside _ =>
      injection hvalue with hitems
      rcases front with _ | ⟨head, _ | ⟨next, rest⟩⟩
      · obtain ⟨rfl, rfl⟩ := List.cons.inj hitems
        exact ⟨value', second, rfl, inside, .refl _ _⟩
      · obtain ⟨rfl, hrest⟩ := List.cons.inj hitems
        obtain ⟨rfl, rfl⟩ := List.cons.inj hrest
        exact ⟨head, value', rfl, .refl _ _, inside⟩
      · obtain ⟨_, hrest⟩ := List.cons.inj hitems
        obtain ⟨_, hnone⟩ := List.cons.inj hrest
        exact absurd hnone (by simp)
  | trans _ _ ihFirst ihSecond =>
      obtain ⟨first', second', rfl, hfirst, hsecond⟩ := ihFirst hvalue
      obtain ⟨first'', second'', rfl, hfirst', hsecond'⟩ := ihSecond rfl
      exact ⟨first'', second'', rfl, hfirst.trans hfirst', hsecond.trans hsecond'⟩

theorem getString? (h : Reordered place value value') (key : String) :
    value.getString? key = value'.getString? key :=
  bind_eq_of_rel (h.get? key) fun _ _ hmember => hmember.asString?

/-- Values that differ in the order of keys are the same map, if the members are read alike. -/
theorem sameMap {α : Type u} {read : String → Json → α} (h : Reordered place value value')
    (hread : ∀ name body body', Reordered (place.member name) body body' →
      read name body = read name body') : SameMap read value value' := by
  rcases maps_or_no_maps h.isMap with ⟨members, members', rfl, rfl⟩ | ⟨hvalue, hvalue'⟩
  · exact .maps fun name => map_eq_of_rel (h.get? name) (hread name)
  · exact .noMaps hvalue hvalue'

section Definitions

open SchemaDefinition

theorem reference? (h : Reordered place value value') :
    SchemaDefinition.reference? value = SchemaDefinition.reference? value' :=
  congrArg (Option.map referencedName) (h.getString? "$ref")

theorem arrayItems? (h : Reordered place value value') :
    SchemaDefinition.arrayItems? value = SchemaDefinition.arrayItems? value' := by
  rw [SchemaDefinition.arrayItems?, SchemaDefinition.arrayItems?, h.getString? "type",
    bind_eq_of_rel (h.get? "items") fun _ _ hitems => hitems.reference?]

theorem descriptionOf (h : Reordered place value value') :
    SchemaDefinition.descriptionOf value = SchemaDefinition.descriptionOf value' := by
  rw [SchemaDefinition.descriptionOf, SchemaDefinition.descriptionOf, h.getString? "description"]

theorem propertyTarget (name : String) (h : Reordered place value value') :
    SchemaDefinition.propertyTarget name value = SchemaDefinition.propertyTarget name value' := by
  rw [SchemaDefinition.propertyTarget, SchemaDefinition.propertyTarget, h.reference?, h.arrayItems?]

/-- The map of properties is read alike. -/
theorem properties (h : Reordered place value value') :
    Option.Rel (SameMap SchemaDefinition.propertyTarget) (value.get? "properties")
      (value'.get? "properties") :=
  rel_imp (fun _ _ hmap => hmap.sameMap fun name _ _ hbody => hbody.propertyTarget name)
    (h.get? "properties")

theorem sameDetails (h : Reordered place value value') : SameDetails value value' where
  isMap := h.isMap
  itemType := by
    rw [itemTypeName?, itemTypeName?, h.getString? "x-ob-item-type", h.getString? "item-type"]
  itemTypeGroup := by
    rw [itemTypeGroupName?, itemTypeGroupName?, h.getString? "x-ob-item-type-group",
      h.getString? "item-type-group"]
  description := h.descriptionOf
  properties := h.properties

theorem sameParts (h : Reordered place value value') : SameParts value value' := by
  by_cases hpair : ∃ first details, value = .arr [first, details]
  · obtain ⟨first, details, rfl⟩ := hpair
    obtain ⟨first', details', rfl, hfirst, hdetails⟩ := h.exists_pair rfl
    exact .pair hfirst.reference? hdetails.sameDetails
  · refine .noPair (fun first details hvalue => hpair ⟨first, details, hvalue⟩) ?_
    intro first' details' hvalue'
    obtain ⟨first, details, hvalue, _⟩ := h.symm.exists_pair hvalue'
    exact hpair ⟨first, details, hvalue⟩

theorem sameDefinition (h : Reordered place value value') : SameDefinition value value' where
  isMap := h.isMap
  allOf := rel_imp (fun _ _ hparts => hparts.sameParts) (h.get? "allOf")
  type := h.getString? "type"
  items := h.arrayItems?
  description := h.descriptionOf
  properties := h.properties

end Definitions

/-- The entries of a map of item types or of groups are the same. -/
theorem sameTable (h : Reordered .table value value') :
    SameMap (fun _ entry => entry) value value' :=
  h.sameMap fun _ _ _ hentry => hentry.eq_of_elsewhere

theorem sameDocument {root root' : Json} (h : Reordered .document root root') :
    Store.SameDocument root root' where
  isMap := h.isMap
  schemas := by
    have hcomponents : Option.Rel (Reordered .schemas)
        ((root.get? "components").bind (fun c => c.get? "schemas"))
        ((root'.get? "components").bind (fun c => c.get? "schemas")) :=
      rel_bind (h.get? "components") fun _ _ hinside => hinside.get? "schemas"
    refine rel_imp (fun _ _ hschemas => ?_) (rel_or (h.get? "schemas") hcomponents)
    exact hschemas.sameMap fun name _ _ hdefinition =>
      SchemaDefinition.ofJson_congr hdefinition.sameDefinition name
  itemTypes := rel_imp (fun _ _ => sameTable)
    (rel_or (h.get? "item-types") (h.get? "x-ob-item-types"))
  itemTypeGroups := rel_imp (fun _ _ => sameTable)
    (rel_or (h.get? "item-type-groups") (h.get? "x-ob-item-type-groups"))

end Reordered

namespace Store

/-- Documents that differ only in the order of keys are both refused, with the same fault, or both
load, to the same store. Whatever is asked of a store is asked of the same one in both cases. -/
theorem ofValue_reordered {root root' : Json} (h : Reordered .document root root') :
    (∃ fault, ofValue root = .error fault ∧ ofValue root' = .error fault) ∨
      ∃ s, ofValue root = .ok s ∧ ofValue root' = .ok s := by
  have hsame : ofValue root = ofValue root' := by
    rw [ofValue, ofValue, ofJson_congr h.sameDocument]
  cases hloaded : ofValue root with
  | error fault => exact .inl ⟨fault, rfl, hsame ▸ hloaded⟩
  | ok s => exact .inr ⟨s, rfl, hsame ▸ hloaded⟩

def lampCode : Json :=
  .obj [("allOf", .arr [.obj [("$ref", .str "TaxonomyElementString")],
    .obj [("item-type", .str "Colour")]])]

/-- A lamp with the given properties. -/
def lamp (properties : List (String × Json)) : Json :=
  .obj [("description", .str "a lamp"), ("properties", .obj properties)]

def colours : Json :=
  .obj [("enums", .obj [("red", .null), ("blue", .null)])]

def lamps : Json :=
  .obj [("schemas", .obj [("Lamp", lamp [("Code", .null), ("Spare", .null)]), ("Code", lampCode)]),
    ("item-types", .obj [("Colour", colours), ("Length", .obj [])])]

/-- The same lamps with the schemas, the properties and the item types in another order. -/
def lampsReordered : Json :=
  .obj [("schemas", .obj [("Code", lampCode), ("Lamp", lamp [("Spare", .null), ("Code", .null)])]),
    ("item-types", .obj [("Length", .obj []), ("Colour", colours)])]

theorem reordered_lamps : Reordered .document lamps lampsReordered := by
  have hproperties : Reordered .schemas (lamp [("Code", .null), ("Spare", .null)])
      (lamp [("Spare", .null), ("Code", .null)]) :=
    .member [("description", .str "a lamp")] [] (.keys (by decide) (by decide) (.swap _ _ _))
  have hschemas : Reordered .schemas
      (.obj [("Lamp", lamp [("Code", .null), ("Spare", .null)]), ("Code", lampCode)])
      (.obj [("Code", lampCode), ("Lamp", lamp [("Spare", .null), ("Code", .null)])]) :=
    .trans (.member [] _ hproperties) (.keys (by decide) (by decide) (.swap _ _ _))
  have hitemTypes : Reordered .table (.obj [("Colour", colours), ("Length", .obj [])])
      (.obj [("Length", .obj []), ("Colour", colours)]) :=
    .keys (by decide) (by decide) (.swap _ _ _)
  exact .trans (.member [] _ hschemas) (.member [_] [] hitemTypes)

/-- Both documents of the lamps load to the same store. -/
theorem ofValue_reordered_lamps : Reordered .document lamps lampsReordered ∧
    ∃ s, ofValue lamps = .ok s ∧ ofValue lampsReordered = .ok s := by
  refine ⟨reordered_lamps, ?_⟩
  have hloads : (ofValue lamps).toBool = true := by
    decide +kernel
  obtain ⟨s, hs⟩ := Except.exists_of_toBool hloads
  rcases ofValue_reordered reordered_lamps with ⟨fault, hfault, _⟩ | hsame
  · rw [hs] at hfault
    cases hfault
  · exact hsame

end Store

end Taxonomy
