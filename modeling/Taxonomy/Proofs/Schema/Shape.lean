import Taxonomy.Proofs.Schema.Reading
import Taxonomy.Proofs.Text.Split

/-!
# The shapes of definitions

A definition is an element, an array or an object by its shape, and it is kept as unrecognized if it
has none of the three. The shapes are stated here without the reader: by the members that a
definition has, of what sort these are and what is absent. The reader finds each shape where it is
and nowhere else, whatever stands in the other members, and what it keeps are the last parts of the
references and one property for each name in the map of properties.
-/

namespace Taxonomy

namespace Category

/-- The name is that of the category, bare or as its superclass schema is called. -/
def IsNamed (c : Category) (name : String) : Prop :=
  name = c.name ∨ name = c.referenceName

theorem mem_all (c : Category) : c ∈ all := by
  cases c <;> decide

theorem not_schemaStart_name (c : Category) (rest : List Char) :
    c.name.toList ≠ schemaStart.toList ++ rest := by
  intro h
  have hlength := congrArg List.length h
  rw [List.length_append] at hlength
  have hstart : schemaStart.toList.length = 15 := by decide
  have hname : c.name.toList.length ≤ 7 := by cases c <;> decide
  omega

/-- A reference resolves to a category exactly if it is one of its two names. -/
theorem isSome_ofReference?_iff {name : String} :
    (ofReference? name).isSome = true ↔ ∃ c : Category, c.IsNamed name := by
  simp only [ofReference?, List.find?_isSome, beq_iff_eq, mem_all, true_and]
  refine exists_congr fun c => ?_
  cases hstart : Text.dropStart? schemaStart.toList name.toList with
  | some rest =>
      rw [Text.dropStart?_eq_some_iff] at hstart
      have hbare : name ≠ c.name := by
        rintro rfl
        exact not_schemaStart_name c rest hstart
      rw [IsNamed, or_iff_right hbare, ← String.toList_inj, hstart, referenceName,
        String.toList_append, List.append_cancel_left_eq, Option.getD_some]
      exact eq_comm
  | none =>
      have hprefixed : name ≠ c.referenceName := by
        rintro rfl
        rw [referenceName, String.toList_append, Text.dropStart?_eq_some_iff.mpr rfl] at hstart
        cases hstart
      rw [IsNamed, or_iff_left hprefixed, ← String.toList_inj, Option.getD_none]
      exact eq_comm

end Category

namespace SchemaDefinition

variable {value : Json} {details bodies : List (String × Json)} {reference segment : String}

/-- The segment is what the reference ends in behind its last slash, or all of it if it has none. -/
def LastSegment (segment reference : String) : Prop :=
  '/' ∉ segment.toList ∧ (reference = segment ∨ ∃ front, reference = front ++ "/" ++ segment)

theorem referencedName_eq_iff :
    referencedName reference = segment ↔ LastSegment segment reference := by
  have hfront : (∃ front, reference.toList = front ++ '/' :: segment.toList) ↔
      ∃ front, reference = front ++ "/" ++ segment := by
    constructor
    · rintro ⟨front, h⟩
      refine ⟨String.ofList front, String.toList_injective ?_⟩
      simpa using h
    · rintro ⟨front, rfl⟩
      exact ⟨front.toList, by simp⟩
  rw [referencedName, ← String.toList_inj, String.toList_ofList, Text.afterLast_eq_iff, hfront,
    String.toList_inj, LastSegment]

/-- Under `allOf` the value has two parts: one with a reference, and a details block. -/
def Inherits (value : Json) (reference : String) (details : List (String × Json)) : Prop :=
  ∃ first, value.get? "allOf" = some (.arr [first, .obj details]) ∧
    first.getString? "$ref" = some reference

/-- The details name an item type under one of its two keys. -/
def NamesItemType (details : List (String × Json)) : Prop :=
  ∃ key ∈ ["x-ob-item-type", "item-type"], ∃ itemType,
    (Json.obj details).getString? key = some itemType

/-- The bodies of the properties are those of a map, or there are none. -/
inductive HasBodies (value : Json) : List (String × Json) → Prop
  | absent (h : value.get? "properties" = none) : HasBodies value []
  | map {bodies : List (String × Json)} (h : value.get? "properties" = some (.obj bodies)) :
      HasBodies value bodies

/-- The shape of an element: it inherits, and its details name an item type. -/
def IsElement (value : Json) : Prop :=
  ∃ reference details, Inherits value reference details ∧ NamesItemType details

/-- The shape of an array: it does not inherit, it says that it is an array, and it refers to its
items. -/
def IsArray (value : Json) : Prop :=
  value.get? "allOf" = none ∧ value.getString? "type" = some "array" ∧
    ∃ items reference, value.get? "items" = some items ∧ items.getString? "$ref" = some reference

/-- The shapes of an object. It inherits from what is no category, with details that name no item
type; or it does not inherit, and either lists properties or only says that it is an object. -/
inductive IsObject (value : Json) : Prop
  | inheriting {reference superclass : String} {details bodies : List (String × Json)}
      (inherits : Inherits value reference details) (noItemType : ¬ NamesItemType details)
      (last : LastSegment superclass reference)
      (noCategory : ∀ c : Category, ¬ c.IsNamed superclass)
      (properties : HasBodies (.obj details) bodies)
  | listing {bodies : List (String × Json)} (own : value.get? "allOf" = none)
      (noArray : value.getString? "type" ≠ some "array")
      (properties : value.get? "properties" = some (.obj bodies))
  | bare (own : value.get? "allOf" = none) (type : value.getString? "type" = some "object")
      (properties : value.get? "properties" = none)

/-- The properties are those of a map of bodies: they ascend strictly by name, there is one for each
name in the map, and each stands for what its body says. -/
structure ListsBodies (bodies : List (String × Json)) (properties : List PropertyDefinition) :
    Prop where
  ascending : properties.Pairwise (fun p q => Text.before p.name q.name = true)
  once : ∀ key ∈ bodies.map (·.1), ∃! p, p ∈ properties ∧ p.name = key
  listed : ∀ p ∈ properties, ∃ body, Entries.lookup p.name bodies = some body ∧
    p.target = propertyTarget p.name body

/-- What a parsed definition has kept of the value. -/
def IsReadFrom (value : Json) : SchemaDefinition → Prop
  | .element e => ∃ reference details, Inherits value reference details ∧
      LastSegment e.superclass reference
  | .array items => ∃ block reference, value.get? "items" = some block ∧
      block.getString? "$ref" = some reference ∧ LastSegment items reference
  | .object o => ∃ bodies, ListsBodies bodies o.properties ∧
      ((value.get? "allOf" = none ∧ o.parent = none ∧ HasBodies value bodies) ∨
        ∃ reference details parent, Inherits value reference details ∧ o.parent = some parent ∧
          LastSegment parent reference ∧ HasBodies (.obj details) bodies)
  | .unrecognized _ => True

theorem isSome_itemTypeName?_iff :
    (itemTypeName? (.obj details)).isSome = true ↔ NamesItemType details := by
  simp [itemTypeName?, NamesItemType, Option.isSome_iff_exists]

theorem reference?_eq_some_iff :
    reference? value = some segment ↔
      ∃ reference, value.getString? "$ref" = some reference ∧ LastSegment segment reference := by
  simp only [reference?, Option.map_eq_some_iff, referencedName_eq_iff]

theorem mem_propertiesOf_iff {p : PropertyDefinition} :
    p ∈ propertiesOf bodies ↔ ∃ body, Entries.lookup p.name bodies = some body ∧
      p.target = propertyTarget p.name body := by
  have hentries : ∀ e : String × Json, e ∈ (NameMap.ofList bodies).entries ↔
      Entries.lookup e.1 bodies = some e.2 := fun e => by
    rw [← NameMap.get?_ofList, NameMap.get?_eq_some_iff]
  rw [propertiesOf, List.mem_map]
  constructor
  · rintro ⟨e, he, rfl⟩
    exact ⟨e.2, (hentries e).mp he, rfl⟩
  · rintro ⟨body, hbody, htarget⟩
    exact ⟨(p.name, body), (hentries (p.name, body)).mpr hbody, by rw [← htarget]⟩

theorem listsBodies_propertiesOf (bodies : List (String × Json)) :
    ListsBodies bodies (propertiesOf bodies) where
  ascending := List.pairwise_map.mpr (NameMap.ofList bodies).ascending
  once := by
    intro key hkey
    obtain ⟨e, he, rfl⟩ := List.mem_map.mp hkey
    have hpresent : Entries.lookup e.1 bodies ≠ none := fun hnone =>
      Entries.lookup_eq_none_iff.mp hnone e he rfl
    obtain ⟨body, hbody⟩ := Option.ne_none_iff_exists'.mp hpresent
    refine ⟨⟨e.1, propertyTarget e.1 body⟩, ⟨mem_propertiesOf_iff.mpr ⟨body, hbody, rfl⟩, rfl⟩, ?_⟩
    rintro ⟨other, target⟩ ⟨hmem, rfl : other = e.1⟩
    obtain ⟨_, hother, htarget⟩ := mem_propertiesOf_iff.mp hmem
    cases hbody.symm.trans hother
    exact congrArg (PropertyDefinition.mk e.1) htarget
  listed := fun _ hp => mem_propertiesOf_iff.mp hp

theorem ListsBodies.mem {properties : List PropertyDefinition} {p : String} {body : Json}
    (h : ListsBodies bodies properties) (hbody : Entries.lookup p bodies = some body) :
    ⟨p, propertyTarget p body⟩ ∈ properties := by
  have hkey : p ∈ bodies.map (·.1) :=
    List.mem_map.mpr ⟨(p, body), Entries.mem_of_lookup hbody, rfl⟩
  obtain ⟨⟨q, target⟩, ⟨hmem, rfl : q = p⟩, -⟩ := h.once p hkey
  obtain ⟨_, hfound, htarget : target = _⟩ := h.listed _ hmem
  cases hbody.symm.trans hfound
  rwa [htarget] at hmem

theorem HasBodies.lookup_eq {p : String} {body : Json} (h : HasBodies value bodies)
    (hbody : (value.get? "properties").bind (·.get? p) = some body) :
    Entries.lookup p bodies = some body := by
  cases h with
  | absent h =>
      rw [h] at hbody
      cases hbody
  | map h =>
      rw [h] at hbody
      exact hbody

/-! ### The reader on each shape -/

/-- A definition that inherits is parsed by its two parts. -/
theorem ofJson_of_inherits (h : Inherits value reference details) (name : String) :
    ofJson name value = ofParts name (referencedName reference) (.obj details) := by
  obtain ⟨first, hallOf, hreference⟩ := h
  cases value with
  | obj members =>
      rw [ofJson_obj, hallOf, Option.elim_some, ofAllOf_pair, reference?, hreference]
      rfl
  | null | bool | int | float | str | arr => cases hallOf

/-- What has an `allOf` of another form is not recognized. -/
theorem exists_fault_of_not_inherits {allOf : Json} (hallOf : value.get? "allOf" = some allOf)
    (h : ∀ reference details, ¬ Inherits value reference details) (name : String) :
    ∃ fault, ofJson name value = .unrecognized fault := by
  cases value with
  | null | bool | int | float | str | arr => cases hallOf
  | obj members =>
      rw [ofJson_obj, hallOf, Option.elim_some]
      by_cases hpair : ∃ first block, allOf = .arr [first, block]
      · obtain ⟨first, block, rfl⟩ := hpair
        rw [ofAllOf_pair, reference?]
        cases hreference : first.getString? "$ref" with
        | none => exact ⟨_, rfl⟩
        | some reference =>
            cases hblock : block.asObject? with
            | none => exact ⟨_, rfl⟩
            | some details =>
                cases eq_obj_of_asObject? hblock
                exact absurd ⟨first, hallOf, hreference⟩ (h reference details)
      · exact ⟨_, ofAllOf_of_no_pair name fun first block heq => hpair ⟨first, block, heq⟩⟩

theorem ofParts_of_namesItemType (h : NamesItemType details) (name superclass : String) :
    ∃ e, ofParts name superclass (.obj details) = .element e ∧ e.superclass = superclass := by
  obtain ⟨itemType, hitemType⟩ := Option.isSome_iff_exists.mp (isSome_itemTypeName?_iff.mpr h)
  rw [ofParts, hitemType]
  exact ⟨_, rfl, rfl⟩

theorem ofParts_of_no_itemType (h : ¬ NamesItemType details) (name superclass : String) :
    ofParts name superclass (.obj details) =
      if (Category.ofReference? superclass).isSome then .unrecognized (.noItemType name)
      else objectOf (some superclass) (.obj details) := by
  have hnone : itemTypeName? (.obj details) = none := by
    rw [← Option.not_isSome_iff_eq_none, isSome_itemTypeName?_iff]
    exact h
  rw [ofParts, hnone]

theorem objectOf_of_hasBodies (h : HasBodies value bodies) (parent : Option String) :
    objectOf parent value = .object ⟨parent, descriptionOf value, propertiesOf bodies⟩ := by
  rw [objectOf_eq]
  cases h with
  | absent h => rw [h]; rfl
  | map h => rw [h]; rfl

theorem objectOf_of_not_hasBodies (h : ∀ bodies, ¬ HasBodies value bodies)
    (parent : Option String) : objectOf parent value = .unrecognized .properties := by
  rw [objectOf_eq]
  cases hproperties : value.get? "properties" with
  | none => exact absurd (.absent hproperties) (h [])
  | some properties =>
      cases hmap : properties.asObject? with
      | none => rw [Option.elim_some, hmap, Option.elim_none]
      | some bodies =>
          cases eq_obj_of_asObject? hmap
          exact absurd (.map hproperties) (h bodies)

/-- A definition that does not inherit is read by its type and its properties. -/
theorem ofJson_of_own (h : value.get? "allOf" = none) (name : String) :
    ofJson name value =
      if value.getString? "type" = some "array" then
        (arrayItems? value).elim (.unrecognized .arrayItems) .array
      else if (value.get? "properties").isSome || value.getString? "type" = some "object" then
        objectOf none value
      else .unrecognized (if value.asObject?.isSome then .noShape else .notAnObject) := by
  cases value with
  | obj members => rw [ofJson_obj, h]; rfl
  | null | bool | int | float | str | arr => rfl

/-! ### Every shape is found, and nothing else -/

/-- The shape that a value has by its definition. -/
def HasShape (value : Json) : SchemaDefinition → Prop
  | .element _ => IsElement value
  | .array _ => IsArray value
  | .object _ => IsObject value
  | .unrecognized _ => True

theorem element_of_isElement (h : IsElement value) (name : String) :
    ∃ e, ofJson name value = .element e := by
  obtain ⟨reference, details, hinherits, hitemType⟩ := h
  obtain ⟨e, he, -⟩ := ofParts_of_namesItemType hitemType name (referencedName reference)
  exact ⟨e, by rw [ofJson_of_inherits hinherits, he]⟩

theorem array_of_isArray (h : IsArray value) (name : String) :
    ∃ items, ofJson name value = .array items := by
  obtain ⟨hown, htype, items, reference, hitems, hreference⟩ := h
  refine ⟨referencedName reference, ?_⟩
  rw [ofJson_of_own hown, if_pos htype, arrayItems?, if_pos htype, hitems, Option.bind_some,
    reference?, hreference]
  rfl

theorem object_of_isObject (h : IsObject value) (name : String) :
    ∃ o, ofJson name value = .object o := by
  cases h with
  | @inheriting reference _ _ _ hinherits hitemType hlast hcategory hbodies =>
      have hnone : ¬ (Category.ofReference? (referencedName reference)).isSome = true := by
        rw [referencedName_eq_iff.mpr hlast, Category.isSome_ofReference?_iff, not_exists]
        exact hcategory
      exact ⟨_, by rw [ofJson_of_inherits hinherits, ofParts_of_no_itemType hitemType,
        if_neg hnone, objectOf_of_hasBodies hbodies]⟩
  | listing hown hnoArray hproperties =>
      have hpresent : ((value.get? "properties").isSome ||
          value.getString? "type" = some "object") = true := by
        rw [hproperties, Option.isSome_some, Bool.true_or]
      exact ⟨_, by rw [ofJson_of_own hown, if_neg hnoArray, if_pos hpresent,
        objectOf_of_hasBodies (.map hproperties)]⟩
  | bare hown htype hproperties =>
      have hnoArray : value.getString? "type" ≠ some "array" := by
        rw [htype]
        decide
      have hpresent : ((value.get? "properties").isSome ||
          value.getString? "type" = some "object") = true := by
        simp [htype]
      exact ⟨_, by rw [ofJson_of_own hown, if_neg hnoArray, if_pos hpresent,
        objectOf_of_hasBodies (.absent hproperties)]⟩

/-- What is found in a definition that inherits. -/
theorem found_of_inherits (h : Inherits value reference details) (name : String) :
    HasShape value (ofJson name value) ∧ IsReadFrom value (ofJson name value) := by
  have hlast : LastSegment (referencedName reference) reference := referencedName_eq_iff.mp rfl
  rw [ofJson_of_inherits h]
  by_cases hitemType : NamesItemType details
  · obtain ⟨e, he, hsuperclass⟩ :=
      ofParts_of_namesItemType hitemType name (referencedName reference)
    rw [he]
    exact ⟨⟨reference, details, h, hitemType⟩, reference, details, h, hsuperclass ▸ hlast⟩
  · rw [ofParts_of_no_itemType hitemType]
    by_cases hcategory : (Category.ofReference? (referencedName reference)).isSome = true
    · rw [if_pos hcategory]
      exact ⟨trivial, trivial⟩
    · rw [if_neg hcategory]
      by_cases hbodies : ∃ bodies, HasBodies (.obj details) bodies
      · obtain ⟨bodies, hbodies⟩ := hbodies
        rw [objectOf_of_hasBodies hbodies]
        rw [Category.isSome_ofReference?_iff, not_exists] at hcategory
        exact ⟨.inheriting h hitemType hlast hcategory hbodies, bodies,
          listsBodies_propertiesOf bodies,
          .inr ⟨reference, details, referencedName reference, h, rfl, hlast, hbodies⟩⟩
      · rw [objectOf_of_not_hasBodies (not_exists.mp hbodies)]
        exact ⟨trivial, trivial⟩

/-- What is found in a definition that does not inherit. -/
theorem found_of_own (h : value.get? "allOf" = none) (name : String) :
    HasShape value (ofJson name value) ∧ IsReadFrom value (ofJson name value) := by
  rw [ofJson_of_own h]
  by_cases harray : value.getString? "type" = some "array"
  · rw [if_pos harray, arrayItems?, if_pos harray]
    cases hitems : value.get? "items" with
    | none => exact ⟨trivial, trivial⟩
    | some items =>
        rw [Option.bind_some]
        cases hreference : reference? items with
        | none => exact ⟨trivial, trivial⟩
        | some segment =>
            obtain ⟨reference, hreference, hlast⟩ := reference?_eq_some_iff.mp hreference
            exact ⟨⟨h, harray, items, reference, hitems, hreference⟩,
              items, reference, hitems, hreference, hlast⟩
  · rw [if_neg harray]
    by_cases hobject : ((value.get? "properties").isSome ||
        value.getString? "type" = some "object") = true
    · rw [if_pos hobject]
      by_cases hbodies : ∃ bodies, HasBodies value bodies
      · obtain ⟨bodies, hbodies⟩ := hbodies
        rw [objectOf_of_hasBodies hbodies]
        refine ⟨?_, bodies, listsBodies_propertiesOf bodies, .inl ⟨h, rfl, hbodies⟩⟩
        cases hbodies with
        | map hproperties => exact .listing h harray hproperties
        | absent hproperties =>
            refine .bare h ?_ hproperties
            simpa [hproperties] using hobject
      · rw [objectOf_of_not_hasBodies (not_exists.mp hbodies)]
        exact ⟨trivial, trivial⟩
    · rw [if_neg hobject]
      exact ⟨trivial, trivial⟩

theorem found_of_ofJson (name : String) (value : Json) :
    HasShape value (ofJson name value) ∧ IsReadFrom value (ofJson name value) := by
  cases hallOf : value.get? "allOf" with
  | none => exact found_of_own hallOf name
  | some allOf =>
      by_cases hinherits : ∃ reference details, Inherits value reference details
      · obtain ⟨reference, details, hinherits⟩ := hinherits
        exact found_of_inherits hinherits name
      · obtain ⟨fault, hfault⟩ := exists_fault_of_not_inherits hallOf
          (fun reference details h => hinherits ⟨reference, details, h⟩) name
        rw [hfault]
        exact ⟨trivial, trivial⟩

/-- What a definition keeps is what the value that it is parsed from says. -/
theorem isReadFrom_of_ofJson {definition : SchemaDefinition} {name : String}
    (h : ofJson name value = definition) : IsReadFrom value definition :=
  h ▸ (found_of_ofJson name value).2

/-- Parsing finds each of the three shapes in the values that have it, and in no others; a value is
not recognized exactly if it has none of them. What is kept is what the value says. -/
theorem ofJson_finds_shapes (name : String) (value : Json) :
    ((∃ e, ofJson name value = .element e) ↔ IsElement value) ∧
      ((∃ items, ofJson name value = .array items) ↔ IsArray value) ∧
      ((∃ o, ofJson name value = .object o) ↔ IsObject value) ∧
      ((∃ fault, ofJson name value = .unrecognized fault) ↔
        ¬ IsElement value ∧ ¬ IsArray value ∧ ¬ IsObject value) ∧
      IsReadFrom value (ofJson name value) := by
  obtain ⟨hshape, hread⟩ := found_of_ofJson name value
  refine ⟨⟨?_, fun h => element_of_isElement h name⟩, ⟨?_, fun h => array_of_isArray h name⟩,
    ⟨?_, fun h => object_of_isObject h name⟩, ⟨?_, ?_⟩, hread⟩
  · rintro ⟨e, he⟩
    rwa [he] at hshape
  · rintro ⟨items, hitems⟩
    rwa [hitems] at hshape
  · rintro ⟨o, ho⟩
    rwa [ho] at hshape
  · rintro ⟨fault, hfault⟩
    refine ⟨fun h => ?_, fun h => ?_, fun h => ?_⟩
    · simpa [hfault] using element_of_isElement h name
    · simpa [hfault] using array_of_isArray h name
    · simpa [hfault] using object_of_isObject h name
  · rintro ⟨hnoElement, hnoArray, hnoObject⟩
    cases hdefinition : ofJson name value with
    | unrecognized fault => exact ⟨fault, rfl⟩
    | element e => exact absurd (by rwa [hdefinition] at hshape) hnoElement
    | array items => exact absurd (by rwa [hdefinition] at hshape) hnoArray
    | object o => exact absurd (by rwa [hdefinition] at hshape) hnoObject

end SchemaDefinition

end Taxonomy
