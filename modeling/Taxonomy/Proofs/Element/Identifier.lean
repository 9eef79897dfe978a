import Taxonomy.Proofs.Element.Facets
import Taxonomy.Proofs.Field.Identifier
import Taxonomy.Proofs.Field.Update

/-!
# Identifiers that are kept

The value of a string element of item type `UUID` is an identifier that is assigned once. Its column
is immutable and takes no null, and no override changes that, so the first identifier that it is
assigned stays over every run of submissions. What stays is the value as it was given: the same
identifier in another form, or in letters of another case, is refused as a change.
-/

namespace Taxonomy

/-- A column that takes identifiers and nothing else, and keeps the one that it has. -/
structure FieldDescriptor.KeepsIdentifiers (f : FieldDescriptor) : Prop where
  kind : f.kind = .uuid
  nullable : f.nullable = false
  immutable : f.constraints.immutable = true

namespace FieldDescriptor.KeepsIdentifiers

variable {f : FieldDescriptor} {v old new : FacetValue}

theorem check_iff (h : f.KeepsIdentifiers) :
    f.check v = .ok () ↔ v.identifier?.isSome = true := by
  rw [check_identifier_iff h.kind, h.nullable]
  simp

/-- What denotes an identifier is neither null nor a decimal. -/
theorem ne_of_identifier? (h : v.identifier?.isSome = true) :
    v ≠ .null ∧ ∀ d, v ≠ .decimal d := by
  cases v with
  | uuid | string => exact ⟨nofun, nofun⟩
  | _ => cases h

theorem ne_of_check (h : f.KeepsIdentifiers) (hcheck : f.check v = .ok ()) :
    v ≠ .null ∧ ∀ d, v ≠ .decimal d :=
  ne_of_identifier? (h.check_iff.mp hcheck)

/-- An identifier is updated to itself and to nothing else. -/
theorem checkUpdate_iff_eq (h : f.KeepsIdentifiers) (hold : f.check old = .ok ())
    (hnew : f.check new = .ok ()) : f.checkUpdate old new = .ok () ↔ old = new := by
  obtain ⟨hassigned, hexact⟩ := h.ne_of_check hold
  rw [checkUpdate_eq_ok_iff h.immutable, FacetValue.same_iff_eq hexact]
  constructor
  · rintro ⟨hsame, _⟩
    exact hsame hassigned
  · intro heq
    exact ⟨fun _ => heq, hnew⟩

end FieldDescriptor.KeepsIdentifiers

theorem CompiledElement.stringField_of_uuid {element : String} {itemType : ItemType}
    (h : itemType.name = "UUID") : stringField element itemType = identifierField element := by
  rw [stringField, h]
  rfl

namespace Store

variable {s : Store} {name : String} {o : ValueOverrides} {f : FieldDescriptor}
variable {old new start : FacetValue}

/-- The column is the value of a string element of item type `UUID`, compiled with overrides. -/
inductive IdentifierColumn (s : Store) (name : String) (o : ValueOverrides) (f : FieldDescriptor) :
    Prop
  | intro {definition : ElementDefinition} {e : CompiledElement}
      (declared : s.schemas.get? name = some (.element definition))
      (category : definition.category? = some .string) (itemType : definition.itemType = "UUID")
      (compiled : s.compileElement name o = .ok e) (value : e.value? = some f) :
      IdentifierColumn s name o f

theorem IdentifierColumn.eq_apply (h : s.IdentifierColumn name o f) :
    f = o.apply (CompiledElement.identifierField name) := by
  obtain ⟨declared, category, itemType, compiled, value⟩ := h
  obtain ⟨r, rfl⟩ := compileElement_eq_ok_iff.mp compiled
  have hdefinition := r.declared
  rw [declared] at hdefinition
  cases hdefinition
  have hcategory : r.category = .string := Option.some.inj (r.has_category.symm.trans category)
  have hname : r.narrowed.name = "UUID" := r.name_narrowed.trans itemType
  have hvalue : r.field? o .value = some f := by
    rw [← r.facet?_compiled]
    exact value
  obtain rfl := CompiledElement.field?_eq_some_iff.mp hvalue
  rw [hcategory, CompiledElement.valueField, CompiledElement.stringField_of_uuid hname]

/-- Overrides set the greatest length and whether a value may be edited or must be unique, and none
of this matters here. -/
theorem IdentifierColumn.keepsIdentifiers (h : s.IdentifierColumn name o f) :
    f.KeepsIdentifiers := by
  rw [h.eq_apply]
  exact ⟨rfl, rfl, rfl⟩

/-- Of two values that the column of an identifier accepts, one may take the place of the other
exactly if they denote the same identifier and are given in the same form, both as identifiers or
both as texts with the same letters in upper case. The update is refused as a change otherwise. -/
theorem checkUpdate_of_identifierColumn (h : s.IdentifierColumn name o f)
    (hold : f.check old = .ok ()) (hnew : f.check new = .ok ()) :
    ∃ a b, old.identifier? = some a ∧ new.identifier? = some b ∧
      (f.checkUpdate old new = .ok () ↔ a = b ∧ old.SameForm new) ∧
      (f.checkUpdate old new = .ok () ∨ f.checkUpdate old new = f.refuse .immutable) := by
  have hkeeps := h.keepsIdentifiers
  obtain ⟨a, ha⟩ := Option.isSome_iff_exists.mp (hkeeps.check_iff.mp hold)
  obtain ⟨b, hb⟩ := Option.isSome_iff_exists.mp (hkeeps.check_iff.mp hnew)
  refine ⟨a, b, ha, hb, ?accepted, ?refused⟩
  case accepted =>
    rw [hkeeps.checkUpdate_iff_eq hold hnew]
    exact FacetValue.eq_iff_of_identifier? ha hb
  case refused =>
    rw [FieldDescriptor.checkUpdate]
    split
    · exact .inr rfl
    · exact .inl hnew

/-- An element whose value is an identifier. -/
def badges : Store where
  source := none
  schemas := .ofList [("Badge", .element ⟨"TaxonomyElementString", "", "UUID", none⟩)]
  itemTypes := .ofList [("UUID", .obj [])]
  itemTypeGroups := .empty

theorem identifierColumn_badges (o : ValueOverrides) :
    badges.IdentifierColumn "Badge" o (o.apply (CompiledElement.identifierField "Badge")) := by
  let r : badges.ElementReading "Badge" :=
    { definition := ⟨"TaxonomyElementString", "", "UUID", none⟩
      category := .string
      itemType := .plain "UUID" ""
      group := none
      declared := rfl
      has_category := rfl
      has_itemType := rfl
      has_group := rfl }
  exact .intro r.declared r.has_category rfl (compileElement_eq_ok_iff.mpr ⟨r, rfl⟩)
    (r.facet?_compiled o .value)

/-- A text in capitals is submitted again as it is, and then as the identifier that it denotes. -/
theorem checkUpdate_of_identifierColumn_badge :
    let s := "0B1F6C3E-0C2A-4D7E-9F11-3A5B7C9D1E2F"
    let o : ValueOverrides := { editable := some true, unique := some false }
    let f := o.apply (CompiledElement.identifierField "Badge")
    badges.IdentifierColumn "Badge" o f ∧ f.check (.string s) = .ok () ∧
      f.checkUpdate (.string s) (.string s) = .ok () ∧
      ∃ id, f.check (.uuid id) = .ok () ∧ RecordId.read? s = some id ∧
        f.checkUpdate (.string s) (.uuid id) = f.refuse .immutable := by
  intro s o f
  have hcolumn := identifierColumn_badges o
  have hcheck : f.check (.string s) = .ok () := by decide +kernel
  obtain ⟨id, _, hread, hagain, hsame, -⟩ := checkUpdate_of_identifierColumn hcolumn hcheck hcheck
  have hother : f.check (.uuid id) = .ok () := rfl
  obtain ⟨_, _, -, -, hform, hrefused⟩ := checkUpdate_of_identifierColumn hcolumn hcheck hother
  have hkept : f.checkUpdate (.string s) (.string s) = .ok () :=
    hsame.mpr ⟨Option.some.inj (hread.symm.trans hagain), .text rfl⟩
  refine ⟨hcolumn, hcheck, hkept, id, hother, hread, hrefused.resolve_left ?_⟩
  intro hupdate
  cases (hform.mp hupdate).2

/-- Not every identifier that is submitted again is accepted. -/
theorem not_forall_checkUpdate_iff :
    ¬ ∀ (s : Store) (name : String) (o : ValueOverrides) (f : FieldDescriptor)
      (old new : FacetValue), s.IdentifierColumn name o f → f.check old = .ok () →
        f.check new = .ok () →
          (f.checkUpdate old new = .ok () ↔ old.identifier? = new.identifier?) := by
  intro h
  let id : RecordId := ⟨0⟩
  have hcolumn := identifierColumn_badges .unchanged
  have hkeeps := hcolumn.keepsIdentifiers
  have hread : (FacetValue.string id.text).identifier? = some id := RecordId.read?_text id
  have hnew := hkeeps.check_iff.mpr (Option.isSome_iff_exists.mpr ⟨id, hread⟩)
  have hupdate := (h _ _ _ _ (.uuid id) _ hcolumn rfl hnew).mpr hread.symm
  cases (hkeeps.checkUpdate_iff_eq rfl hnew).mp hupdate

/-- Over every run of submissions to the column of an identifier that starts with null or with an
identifier: a value that is held once is held ever after, what is accepted is checked and held, and
what is held is null or checked. The run ends in what it started with, or in the first identifier
that was submitted if it started with null. -/
theorem submitAll_of_identifierColumn (h : s.IdentifierColumn name o f)
    (hstart : start = .null ∨ start.identifier?.isSome = true) :
    (∀ before after, f.submitAll start before ≠ .null →
      f.submitAll start (before ++ after) = f.submitAll start before) ∧
    (∀ before v, f.checkUpdate (f.submitAll start before) v = .ok () →
      f.submitAll start (before ++ [v]) = v ∧ f.check v = .ok ()) ∧
    (∀ submissions, f.submitAll start submissions = .null ∨
      f.check (f.submitAll start submissions) = .ok ()) ∧
    ∀ submissions, f.submitAll start submissions =
      if start = .null then (submissions.find? (fun v => (f.check v).toBool)).getD .null
      else start := by
  have hkeeps := h.keepsIdentifiers
  have hheld : ∀ submissions, f.submitAll start submissions = .null ∨
      f.check (f.submitAll start submissions) = .ok () := by
    intro submissions
    rcases f.submitAll_eq_or_check start submissions with hkept | hcheck
    · rw [hkept]
      exact hstart.imp_right hkeeps.check_iff.mpr
    · exact .inr hcheck
  refine ⟨?kept, ?accepted, hheld, ?ends⟩
  case kept =>
    intro before after hassigned
    obtain ⟨_, hexact⟩ := hkeeps.ne_of_check ((hheld before).resolve_left hassigned)
    rw [FieldDescriptor.submitAll_append]
    exact FieldDescriptor.submitAll_of_assigned hkeeps.immutable hassigned hexact after
  case accepted =>
    intro before v hupdate
    refine ⟨?_, FieldDescriptor.check_of_checkUpdate hupdate⟩
    rw [FieldDescriptor.submitAll_append, FieldDescriptor.submitAll_cons,
      FieldDescriptor.submit_of_ok hupdate, FieldDescriptor.submitAll_nil]
  case ends =>
    intro submissions
    rcases hstart with rfl | hstart
    · rw [if_pos rfl]
      exact FieldDescriptor.submitAll_null hkeeps.immutable
        (fun v hcheck => hkeeps.ne_of_check hcheck) submissions
    · obtain ⟨hassigned, hexact⟩ :=
        FieldDescriptor.KeepsIdentifiers.ne_of_identifier? hstart
      rw [if_neg hassigned]
      exact FieldDescriptor.submitAll_of_assigned hkeeps.immutable hassigned hexact submissions

/-- Null and a text that is no identifier are passed over, the first identifier is assigned, and the
second one and null are refused after that, however the override would have it. -/
theorem submitAll_of_identifierColumn_badge :
    let o : ValueOverrides := { editable := some true, unique := some false }
    let f := o.apply (CompiledElement.identifierField "Badge")
    badges.IdentifierColumn "Badge" o f ∧
      f.submitAll .null [.null, .string "badge", .uuid ⟨1⟩] ≠ .null ∧
      f.submitAll .null ([.null, .string "badge", .uuid ⟨1⟩] ++ [.uuid ⟨2⟩, .null]) =
        f.submitAll .null [.null, .string "badge", .uuid ⟨1⟩] ∧
      f.checkUpdate (f.submitAll .null [.null]) (.uuid ⟨1⟩) = .ok () ∧
      f.submitAll .null ([.null] ++ [.uuid ⟨1⟩]) = .uuid ⟨1⟩ := by
  intro o f
  have hcolumn := identifierColumn_badges o
  obtain ⟨hkept, haccepted, -, -⟩ := submitAll_of_identifierColumn hcolumn (.inl rfl)
  have hassigned : f.submitAll .null [.null, .string "badge", .uuid ⟨1⟩] ≠ .null := by
    decide +kernel
  have hupdate : f.checkUpdate (f.submitAll .null [.null]) (.uuid ⟨1⟩) = .ok () := by
    decide +kernel
  exact ⟨hcolumn, hassigned, hkept _ [.uuid ⟨2⟩, .null] hassigned, hupdate,
    (haccepted _ _ hupdate).1⟩

end Store

end Taxonomy
