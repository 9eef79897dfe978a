import Taxonomy.Proofs.Registry.Usage
import Taxonomy.Proofs.Usage.Scan

/-!
# Coherence of a registry

A registry holds a compiled schema under its name, and further copies of it inside the objects that
are made of it. All of them were compiled without overrides and from the same document, so they are
equal, at any depth. The ways to ask about a name, of the registry, of the document or by the
listing, are readings of one fact: whether the name is declared, and of which kind.
-/

namespace Taxonomy

/-- The kind of a schema in compiled form. -/
def CompiledSchema.kind : CompiledSchema → SchemaKind
  | .element _ => .element
  | .object _ => .object
  | .array _ => .array

/-- What a schema compiles to is of the kind that it is classified as. -/
theorem Store.classify_of_compileAlone {s : Store} {name : String} {definition : SchemaDefinition}
    {compiled : CompiledSchema} (hentry : s.schemas.get? name = some definition)
    (hcompiled : s.compileAlone name definition = .ok compiled) :
    s.classify name = .ok compiled.kind := by
  cases definition with
  | element definition =>
      obtain ⟨e, he, rfl⟩ := Except.map_eq_ok_iff.mp hcompiled
      exact classify_of_compileElement he
  | object definition =>
      obtain ⟨o, _, rfl⟩ := Except.map_eq_ok_iff.mp hcompiled
      exact classify_of_object hentry
  | array items =>
      cases hcompiled
      exact classify_of_array hentry
  | unrecognized fault => cases hcompiled

namespace Registry

variable {s : Store} {r : Registry} {name : String} {e : CompiledElement}
variable {o part : CompiledObject}

theorem element_eq_ok_iff : r.element name = .ok e ↔ r.elements.get? name = some e := by
  cases hget : r.elements.get? name <;> simp [element, hget]

theorem object_eq_ok_iff : r.object name = .ok o ↔ r.objects.get? name = some o := by
  cases hget : r.objects.get? name <;> simp [object, hget]

/-- What is answered about a name that is of the given kind, or not declared if there is none. -/
structure Answers (r : Registry) (s : Store) (name : String) (kind? : Option SchemaKind) :
    Prop where
  declared : s.contains name = kind?.isSome
  classify : s.classify name = kind?.elim (.error (.unknownSchema name)) .ok
  kindOf : r.kindOf? name = kind?
  element : (∃ e, r.element name = .ok e) ↔ kind? = some .element
  object : (∃ o, r.object name = .ok o) ↔ kind? = some .object
  arrayItems : (∃ items, r.arrayItems? name = some items) ↔ kind? = some .array
  element_fault : ∀ fault, r.element name = .error fault →
    fault = if kind?.isSome then .notAnElement name else .unknownSchema name
  object_fault : ∀ fault, r.object name = .error fault →
    fault = if kind?.isSome then .notAnObject name else .unknownSchema name
  listing : ∀ filter kind, (name, kind) ∈ CommandLine.listing s filter ↔
    kind? = some kind ∧ (filter = none ∨ filter = some kind)

/-- The copies of a compiled schema are equal, the parents are registered, and all that is answered
about a name is about one kind. -/
structure Coherent (r : Registry) (s : Store) : Prop where
  objects : ∀ name o, r.object name = .ok o → ∀ part, o.Contains part →
    r.object part.name = .ok part
  elements : ∀ name o, r.object name = .ok o → ∀ part, o.Contains part →
    ∀ property e, (property, e) ∈ part.elements → r.element e.name = .ok e
  parents : ∀ name o, r.object name = .ok o → ∀ parent ∈ o.parent, ∃ p, r.object parent = .ok p
  kinds : ∀ name, ∃ kind?, r.Answers s name kind?

theorem entriesOf_eq_nil_iff : r.entriesOf name = [] ↔
    r.elements.get? name = none ∧ r.objects.get? name = none ∧ r.arrays.get? name = none := by
  simp [entriesOf]

theorem entriesOf_eq_element_iff : r.entriesOf name = [.element e] ↔
    r.elements.get? name = some e ∧ r.objects.get? name = none ∧ r.arrays.get? name = none := by
  rw [entriesOf]
  cases r.elements.get? name <;> cases r.objects.get? name <;> cases r.arrays.get? name <;> simp

theorem entriesOf_eq_object_iff : r.entriesOf name = [.object o] ↔
    r.elements.get? name = none ∧ r.objects.get? name = some o ∧ r.arrays.get? name = none := by
  rw [entriesOf]
  cases r.elements.get? name <;> cases r.objects.get? name <;> cases r.arrays.get? name <;> simp

theorem entriesOf_eq_array_iff {items : String} : r.entriesOf name = [.array items] ↔
    r.elements.get? name = none ∧ r.objects.get? name = none ∧ r.arrays.get? name = some items := by
  rw [entriesOf]
  cases r.elements.get? name <;> cases r.objects.get? name <;> cases r.arrays.get? name <;> simp

/-- An element that compiles without overrides is registered as what it compiles to. -/
theorem element_of_build (h : build s = .ok r)
    (hcompile : s.compileElement name .unchanged = .ok e) : r.element name = .ok e := by
  obtain ⟨definition, hentry, _⟩ := Except.bind_eq_ok_iff.mp hcompile
  have hentry := Store.element_eq_ok_iff.mp hentry
  obtain ⟨compiled, hcompiled, hentries⟩ := (entriesOf_of_build h).1 name _ hentry
  rw [Store.compileAlone, hcompile, Except.map_ok] at hcompiled
  cases hcompiled
  exact element_eq_ok_iff.mpr (entriesOf_eq_element_iff.mp hentries).1

/-- The parts of a registered object are registered under their names. -/
theorem compose_part_of_build (h : build s = .ok r) (hobject : r.object name = .ok o)
    (hpart : o.Contains part) :
    r.object part.name = .ok part ∧ s.compose part.name .empty = .ok part := by
  obtain ⟨hdeclared, hcompose⟩ := (get?_objects_of_build h).mp (object_eq_ok_iff.mp hobject)
  have hname := Store.name_of_compose hcompose
  subst hname
  have hregistered := Store.compose_of_contains hdeclared hcompose hpart
  exact ⟨object_eq_ok_iff.mpr ((get?_objects_of_build h).mpr hregistered), hregistered.2⟩

/-- The parent of a registered object is registered. -/
theorem exists_parent_of_build (h : build s = .ok r) (hobject : r.object name = .ok o)
    {parent : String} (hparent : parent ∈ o.parent) : ∃ p, r.object parent = .ok p := by
  obtain ⟨_, hcompose⟩ := (get?_objects_of_build h).mp (object_eq_ok_iff.mp hobject)
  obtain ⟨_, definition, hdefinition, parts, _, rfl⟩ := Store.composeOn_eq_ok_iff.mp hcompose
  have hdeclared := (Store.objectWithParent_eq_ok_iff.mp hdefinition).2 parent hparent
  obtain ⟨p, hp⟩ := exists_object_of_build h hdeclared
  exact ⟨p, object_eq_ok_iff.mpr hp⟩

/-- What a registry answers about a name is about the kind of what it holds under it. -/
theorem answers_of_entriesOf (compiled? : Option CompiledSchema)
    (hdeclared : s.contains name = compiled?.isSome)
    (hclassify : s.classify name =
      (compiled?.map CompiledSchema.kind).elim (.error (.unknownSchema name)) .ok)
    (hentries : r.entriesOf name = compiled?.toList) :
    r.Answers s name (compiled?.map CompiledSchema.kind) := by
  -- The three look-ups are known in each case, and every answer is computed from them.
  rcases compiled? with _ | (e | o | items) <;>
    simp only [Option.toList_none, Option.toList_some, entriesOf_eq_nil_iff,
      entriesOf_eq_element_iff, entriesOf_eq_object_iff, entriesOf_eq_array_iff] at hentries <;>
    obtain ⟨helements, hobjects, harrays⟩ := hentries <;>
    constructor <;>
    simp [hdeclared, hclassify, CommandLine.mem_listing_iff, CompiledSchema.kind, kindOf?, element,
      object, arrayItems?, misnamed, NameMap.contains, helements, hobjects, harrays]

/-- Whether a name is declared and of which kind decides all that is answered about it. -/
theorem exists_answers_of_build (h : build s = .ok r) (name : String) :
    ∃ kind?, r.Answers s name kind? := by
  obtain ⟨hdeclared, hundeclared⟩ := entriesOf_of_build h
  cases hentry : s.schemas.get? name with
  | none =>
      have hcontains : s.contains name = false := by
        simp [Store.contains, NameMap.contains, hentry]
      have hclassify : s.classify name = .error (.unknownSchema name) := by
        simp [Store.classify, Store.lookup_of_none hentry]
      exact ⟨_, answers_of_entriesOf none hcontains hclassify (hundeclared name hentry)⟩
  | some definition =>
      obtain ⟨compiled, hcompiled, hentries⟩ := hdeclared name definition hentry
      have hcontains : s.contains name = true := by
        simp [Store.contains, NameMap.contains, hentry]
      have hclassify := Store.classify_of_compileAlone hentry hcompiled
      exact ⟨_, answers_of_entriesOf (some compiled) hcontains hclassify hentries⟩

/-- A registry that is built is closed and coherent. -/
theorem coherent_of_build (h : build s = .ok r) : r.Coherent s where
  objects _ _ hobject _ hpart := (compose_part_of_build h hobject hpart).1
  elements _ _ hobject _ hpart _ _ he := by
    have hcompose := (compose_part_of_build h hobject hpart).2
    exact element_of_build h (Store.compileElement_of_mem_elements hcompose he)
  parents _ _ hobject _ hparent := exists_parent_of_build h hobject hparent
  kinds := exists_answers_of_build h

/-- A site is a place, has an address and a list of meters; both the site and its address have a
code. -/
def sites : Store where
  source := none
  schemas := .ofList [
    ("Address", .object ⟨none, "", [⟨"Code", .schema "Code"⟩]⟩),
    ("Code", .element ⟨"TaxonomyElementString", "", "String", none⟩),
    ("Meter", .object ⟨none, "", []⟩),
    ("Meters", .array "Meter"),
    ("Place", .object ⟨none, "", []⟩),
    ("Site", .object ⟨some "Place", "", [⟨"Address", .schema "Address"⟩, ⟨"Code", .schema "Code"⟩,
      ⟨"Meters", .schema "Meters"⟩]⟩)]
  itemTypes := .ofList [("String", .obj [])]
  itemTypeGroups := .empty

theorem exists_build_sites : ∃ r, build sites = .ok r := by
  have hcompile : sites.schemas.entries.all (fun e =>
      (sites.compileAlone e.1 e.2).toBool) = true := by
    cbv
  exact exists_build_of_all hcompile

/-- The names of the elements of an object under their properties. -/
def elementNames (o : CompiledObject) : List (String × String) :=
  o.elements.map fun e => (e.1, e.2.name)

/-- The registry of the sites is coherent: the address in the site is the registered one, the codes
of both are the one registered code, and the place that a site is has an entry too. -/
theorem coherent_of_build_sites : ∃ r site address code place, build sites = .ok r ∧
    r.Coherent sites ∧ r.object "Site" = .ok site ∧ site.objects = [("Address", address)] ∧
    r.object "Address" = .ok address ∧ site.elements = [("Code", code)] ∧
    address.elements = [("Code", code)] ∧ r.element "Code" = .ok code ∧
    site.parent = some "Place" ∧ r.object "Place" = .ok place := by
  have hshape : (fun site : CompiledObject => (site.parent, elementNames site,
      site.objects.map fun part => (part.1, part.2.name, elementNames part.2))) <$>
        sites.compose "Site" .empty =
      .ok (some "Place", [("Code", "Code")], [("Address", "Address", [("Code", "Code")])]) := by
    cbv
  obtain ⟨r, hbuild⟩ := exists_build_sites
  obtain ⟨site, hcompose, hshape⟩ := Except.map_eq_ok_iff.mp hshape
  have hsite : r.object "Site" = .ok site :=
    object_eq_ok_iff.mpr ((get?_objects_of_build hbuild).mpr ⟨⟨_, rfl⟩, hcompose⟩)
  simp only [Prod.mk.injEq, elementNames, List.map_eq_singleton_iff, Prod.exists] at hshape
  obtain ⟨hparent, ⟨_, code, helements, rfl, hcode⟩, ⟨_, address, hobjects, rfl, haddress,
    ⟨_, code', helements', rfl, hcode'⟩⟩⟩ := hshape
  have hcoherent : r.Coherent sites := coherent_of_build hbuild
  have hinside : site.Contains address := .nested (hobjects ▸ List.mem_singleton_self _) (.refl _)
  have haddressed := hcoherent.objects "Site" site hsite address hinside
  have hregistered := hcoherent.elements "Site" site hsite site (.refl _) "Code" code
    (helements ▸ List.mem_singleton_self _)
  have hregistered' := hcoherent.elements "Site" site hsite address hinside "Code" code'
    (helements' ▸ List.mem_singleton_self _)
  rw [haddress] at haddressed
  rw [hcode] at hregistered
  rw [hcode'] at hregistered'
  -- Two copies of what is registered under one name are equal.
  obtain rfl := Except.ok.inj (hregistered.symm.trans hregistered')
  obtain ⟨place, hplace⟩ := hcoherent.parents "Site" site hsite "Place" hparent
  exact ⟨r, site, address, code, place, hbuild, hcoherent, hsite, hobjects, haddressed, helements,
    helements', hregistered, hparent, hplace⟩

end Registry

end Taxonomy
