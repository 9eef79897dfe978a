import Taxonomy.Proofs.Element.Facets
import Taxonomy.Proofs.Field.Encoding

/-!
# Elements read back from JSON

What is written of an item type, a group, overrides and a compiled element is read back as it was.
Descriptors come back up to the sign of a zero among their bounds; the bounds of a compiled element
are not negative, so there the descriptors come back unchanged.
-/

namespace Taxonomy

open Json (Exact)

variable {depth : Nat}

namespace ItemTypeValue

theorem decode?_encode (v : ItemTypeValue) : decode? v.encode = some v := rfl

theorem exact_encode (v : ItemTypeValue) : Exact (depth + 1) v.encode := by
  refine .obj (by simp [Entries.Distinct]) ?_
  simp [Exact.str]

end ItemTypeValue

namespace ItemType

/-- A variant with values is read from wherever its fields stand in the body. -/
theorem decodeValued?_encode {make : String → String → List ItemTypeValue → ItemType}
    {body : List (String × Json)} {name description : String} {values : List ItemTypeValue}
    (hname : Entries.lookup "name" body = some (.str name))
    (hdescription : Entries.lookup "description" body = some (.str description))
    (hvalues : Entries.lookup "values" body = some (.arr (values.map ItemTypeValue.encode))) :
    decodeValued? make (.obj body) = some (make name description values) := by
  have hlist : Json.asListOf? ItemTypeValue.decode? (.arr (values.map ItemTypeValue.encode)) =
      some values :=
    Json.asListOf?_map fun value _ => value.decode?_encode
  simp only [decodeValued?, Json.Record.ofJson?, Json.Record.required?, hname, hdescription, hvalues,
    Option.bind_eq_bind, Option.bind_some, hlist, Json.asString?]

theorem decode?_encode (t : ItemType) : decode? t.encode = some t := by
  cases t with
  | plain name description => rfl
  | enumerated name description values =>
      show decodeValued? .enumerated (enumerated name description values).encode = _
      rw [encode]
      apply decodeValued?_encode <;> rfl
  | unit name description values =>
      show decodeValued? .unit (unit name description values).encode = _
      rw [encode]
      apply decodeValued?_encode <;> rfl

theorem exact_commonMembers (variant name description : String) :
    ∀ member ∈ commonMembers variant name description, Exact depth member.2 := by
  simp [commonMembers, Exact.str]

theorem exact_values (values : List ItemTypeValue) :
    ∀ member ∈ [("values", Json.arr (values.map ItemTypeValue.encode))],
      Exact (depth + 2) member.2 := by
  simp only [List.forall_mem_singleton]
  exact Json.exact_arr_map fun value _ => value.exact_encode

theorem exact_encode (t : ItemType) : Exact (depth + 3) t.encode := by
  cases t with
  | plain name description =>
      exact .obj (by simp [Entries.Distinct, commonMembers])
        (exact_commonMembers "plain" name description)
  | enumerated name description values | unit name description values =>
      refine .obj (by simp [Entries.Distinct, commonMembers]) ?_
      exact List.forall_mem_append.mpr ⟨exact_commonMembers _ name description, exact_values values⟩

end ItemType

namespace ItemTypeGroup

theorem decode?_encode (g : ItemTypeGroup) : decode? g.encode = some g := by
  have hids : Json.asListOf? Json.asString? (.arr (g.ids.map .str)) = some g.ids :=
    Json.asListOf?_map fun _ _ => rfl
  simp [decode?, encode, Json.Record.ofJson?, Json.Record.required?, Entries.lookup_cons,
    Json.asString?, hids]

theorem exact_encode (g : ItemTypeGroup) : Exact (depth + 2) g.encode := by
  refine .obj (by simp [Entries.Distinct]) ?_
  have hids : Exact (depth + 1) (.arr (g.ids.map .str)) := Json.exact_arr_map fun id _ => .str id
  simp [Exact.str, hids]

end ItemTypeGroup

namespace Category

theorem decode?_encode (c : Category) : decode? c.encode = some c := by
  cases c <;> rfl

end Category

namespace ValueOverrides

variable {o : ValueOverrides}

/-- The members that are written. -/
def members (o : ValueOverrides) : List (String × Json) :=
  Json.memberIfSome "max_length" Json.ofNat o.maxLength ++
    Json.memberIfSome "editable" Json.bool o.editable ++
    Json.memberIfSome "unique" Json.bool o.unique

theorem encode_eq (o : ValueOverrides) : o.encode = .obj o.members := rfl

theorem lookup_members (o : ValueOverrides) :
    Entries.lookup "max_length" o.members = o.maxLength.map Json.ofNat ∧
      Entries.lookup "editable" o.members = o.editable.map Json.bool ∧
      Entries.lookup "unique" o.members = o.unique.map Json.bool := by
  simp [members, Entries.lookup_append, Json.lookup_memberIfSome]

theorem decode?_encode (o : ValueOverrides) : decode? o.encode = some o := by
  obtain ⟨hmaxLength, heditable, hunique⟩ := o.lookup_members
  have hlength : Json.Record.omissible? ⟨o.members, true⟩ "max_length" Json.asLength? =
      some (o.maxLength.map id) := by
    rw [Json.Record.omissible?_eq_optional? rfl]
    exact Json.Record.optional?_of_lookup rfl hmaxLength nofun fun n _ => Json.asLength?_ofNat n
  have hbool {field : String} {value : Option Bool}
      (hlookup : Entries.lookup field o.members = value.map Json.bool) :
      Json.Record.omissible? ⟨o.members, true⟩ field Json.asBool? = some (value.map id) := by
    rw [Json.Record.omissible?_eq_optional? rfl]
    exact Json.Record.optional?_of_lookup rfl hlookup nofun fun _ _ => rfl
  simp only [encode_eq, decode?, Json.Record.ofJson?, Option.bind_eq_bind, Option.bind_some, hlength,
    hbool heditable, hbool hunique, Option.map_id_fun, id_eq]

/-- Whether a field is written. -/
def isWritten (o : ValueOverrides) (field : String) : Bool :=
  match field with
  | "max_length" => o.maxLength.isSome
  | "editable" => o.editable.isSome
  | "unique" => o.unique.isSome
  | _ => true

/-- The members are the fields that are present. -/
theorem memberNames_encode (o : ValueOverrides) :
    o.encode.memberNames = fields.filter o.isWritten := by
  obtain ⟨maxLength, editable, unique⟩ := o
  cases maxLength <;> cases editable <;> cases unique <;> rfl

/-- The greatest length fits 64 bits. -/
def Sized (o : ValueOverrides) : Prop :=
  ∀ n ∈ o.maxLength, n < 2 ^ 64

theorem exact_encode (h : o.Sized) : Exact (depth + 1) o.encode := by
  have hfields : fields.Nodup := by decide
  refine .obj (Json.distinct_of_memberNames hfields o.memberNames_encode) ?_
  simp only [List.forall_mem_append]
  exact ⟨⟨Json.exact_memberIfSome fun n hn => Json.exact_ofNat (h n hn),
    Json.exact_memberIfSome fun b _ => .bool b⟩, Json.exact_memberIfSome fun b _ => .bool b⟩

end ValueOverrides

namespace CompiledElement

variable {e : CompiledElement}

/-- The members that are written. -/
def members (e : CompiledElement) : List (String × Json) :=
  [("name", .str e.name), ("description", .str e.description),
    ("superclass", e.superclass.encode), ("item_type", e.itemType.encode)] ++
    Json.memberIfSome "item_type_group" Json.str e.itemTypeGroup ++
    [("facets", .arr (e.facets.map FieldDescriptor.encode))]

theorem encode_eq (e : CompiledElement) : e.encode = .obj e.members := rfl

theorem lookup_members (e : CompiledElement) :
    Entries.lookup "name" e.members = some (.str e.name) ∧
      Entries.lookup "description" e.members = some (.str e.description) ∧
      Entries.lookup "superclass" e.members = some e.superclass.encode ∧
      Entries.lookup "item_type" e.members = some e.itemType.encode ∧
      Entries.lookup "item_type_group" e.members = e.itemTypeGroup.map Json.str ∧
      Entries.lookup "facets" e.members = some (.arr (e.facets.map FieldDescriptor.encode)) := by
  simp [members, Entries.lookup_append, Entries.lookup_cons, Json.lookup_memberIfSome]

/-- No facet has a negative number as a bound. -/
def Unsigned (e : CompiledElement) : Prop :=
  ∀ f ∈ e.facets, f.constraints.Unsigned

theorem decode?_encode (h : e.Unsigned) : decode? e.encode = some e := by
  obtain ⟨hname, hdescription, hsuperclass, hitemType, hgroup, hfacets⟩ := e.lookup_members
  have hgroup : Json.Record.optional? ⟨e.members, true⟩ "item_type_group" Json.asString? =
      some (e.itemTypeGroup.map id) :=
    Json.Record.optional?_of_lookup rfl hgroup nofun fun _ _ => rfl
  have hlist : Json.asListOf? FieldDescriptor.decode?
      (.arr (e.facets.map FieldDescriptor.encode)) = some e.facets := by
    refine Json.asListOf?_map fun f hf => ?_
    rw [f.decode?_encode, (h f hf).dropZeroSigns_eq_self]
  simp only [encode_eq, decode?, Json.Record.ofJson?, Json.Record.required?, Option.bind_eq_bind,
    Option.bind_some, hname, hdescription, hsuperclass, hitemType, hgroup, hfacets, Json.asString?,
    Category.decode?_encode, ItemType.decode?_encode, hlist, Option.map_id_fun, id_eq]

/-- Whether a field is written. -/
def isWritten (e : CompiledElement) (field : String) : Bool :=
  match field with
  | "item_type_group" => e.itemTypeGroup.isSome
  | _ => true

/-- The members are the fields that are present. -/
theorem memberNames_encode (e : CompiledElement) :
    e.encode.memberNames = fields.filter e.isWritten := by
  obtain ⟨name, description, superclass, itemType, itemTypeGroup, facets⟩ := e
  cases itemTypeGroup <;> rfl

/-- Every greatest length fits 64 bits. -/
def Sized (e : CompiledElement) : Prop :=
  ∀ f ∈ e.facets, f.constraints.Sized

theorem exact_encode (h : e.Sized) : Exact (depth + 6) e.encode := by
  have hfields : fields.Nodup := by decide
  have hfacets : Exact (depth + 5) (.arr (e.facets.map FieldDescriptor.encode)) :=
    Json.exact_arr_map fun f hf => FieldDescriptor.exact_encode (h f hf)
  refine .obj (Json.distinct_of_memberNames hfields e.memberNames_encode) ?_
  simp only [List.forall_mem_append, List.forall_mem_cons]
  exact ⟨⟨⟨.str e.name, .str e.description, .str e.superclass.name, e.itemType.exact_encode,
    nofun⟩, Json.exact_memberIfSome fun group _ => .str group⟩, hfacets, nofun⟩

/-! ### Bounds -/

variable {name : String} {category : Category} {itemType : ItemType} {o : ValueOverrides}
variable {facet : Facet} {f : FieldDescriptor}

theorem not_negative_of_some {bound : Decimal} (h : bound.negative = false) :
    ∀ d ∈ some bound, d.negative = false := by
  intro d hd
  cases hd
  exact h

/-- Constraints without bounds. -/
theorem unsigned_of_none {c : Constraints} (hmin : c.min = none) (hmax : c.max = none) :
    c.Unsigned := by
  refine ⟨?_, ?_⟩
  · rw [hmin]
    nofun
  · rw [hmax]
    nofun

theorem unsigned_countField (name : String) (facet : Facet) :
    (countField name facet).constraints.Unsigned :=
  ⟨not_negative_of_some rfl, nofun⟩

theorem unsigned_choiceField (name : String) (facet : Facet) (itemType : ItemType) :
    (choiceField name facet itemType).constraints.Unsigned :=
  unsigned_of_none rfl rfl

theorem unsigned_numberConstraints (itemType : String) : (numberConstraints itemType).Unsigned := by
  unfold numberConstraints
  split
  · exact ⟨not_negative_of_some rfl, nofun⟩
  · exact ⟨not_negative_of_some rfl, nofun⟩
  · exact ⟨not_negative_of_some rfl, nofun⟩
  · exact ⟨not_negative_of_some rfl, not_negative_of_some rfl⟩
  · exact unsigned_of_none rfl rfl

theorem unsigned_stringField (name : String) (itemType : ItemType) :
    (stringField name itemType).constraints.Unsigned := by
  unfold stringField
  split
  · exact unsigned_of_none rfl rfl
  · exact unsigned_of_none rfl rfl
  · split
    · exact unsigned_choiceField name .value itemType
    · exact unsigned_of_none rfl rfl

theorem unsigned_valueField (name : String) (category : Category) (itemType : ItemType) :
    (valueField name category itemType).constraints.Unsigned := by
  cases category with
  | boolean => exact unsigned_of_none rfl rfl
  | integer =>
      rw [valueField]
      split
      · exact unsigned_countField name .value
      · exact unsigned_of_none rfl rfl
  | number => exact unsigned_numberConstraints itemType.name
  | string => exact unsigned_stringField name itemType

/-- Overrides change no bound. -/
theorem unsigned_field? (h : field? name category itemType o facet = some f) :
    f.constraints.Unsigned := by
  cases facet with
  | endTime | startTime =>
      obtain rfl := field?_eq_some_iff.mp h
      exact unsigned_of_none rfl rfl
  | decimals | precision =>
      obtain ⟨_, rfl⟩ := field?_eq_some_iff.mp h
      exact unsigned_countField name _
  | unit =>
      obtain ⟨_, _, rfl⟩ := field?_eq_some_iff.mp h
      exact unsigned_choiceField name .unit itemType
  | value =>
      obtain rfl := field?_eq_some_iff.mp h
      exact unsigned_valueField name category itemType

end CompiledElement

/-- No bound of a compiled element is negative. -/
theorem Store.unsigned_of_compileElement {s : Store} {name : String} {o : ValueOverrides}
    {e : CompiledElement} (h : s.compileElement name o = .ok e) : e.Unsigned := by
  obtain ⟨r, rfl⟩ := compileElement_eq_ok_iff.mp h
  intro f hf
  obtain ⟨facet, _, hfield⟩ := List.mem_filterMap.mp hf
  exact CompiledElement.unsigned_field? hfield

end Taxonomy
