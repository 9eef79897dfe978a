import Mathlib.Data.List.Permutation
import Mathlib.Data.Set.Card
import Taxonomy.Proofs.Composition.Growth
import Taxonomy.Proofs.Composition.Parts

/-!
# What a compilation keeps

An object that compiles on a new compiler leaves in memory itself, the objects that it reaches, and
the elements of all of them, and each of these once, however often it is met. The invariant is that
a memory is closed: with an object it keeps all that the object needs, so that nothing is missing
where an object is given back from memory. The numbers of entries then count what the document says
the object needs.
-/

namespace Taxonomy

namespace Cache

variable {κ α : Type} [DecidableEq κ]

theorem isSome_get?_insertNew (c : Cache κ α) (key other : κ) (value : α) :
    ((c.insertNew key value).get? other).isSome = true ↔
      (c.get? other).isSome = true ∨ other = key := by
  rw [get?_insertNew]
  by_cases hsame : key = other
  · simp [hsame]
  · simp [hsame, Ne.symm hsame]

/-- A cache without repeated keys has as many entries as keys. -/
theorem encard_eq_size {c : Cache κ α} (h : c.Distinct) :
    {key | (c.get? key).isSome = true}.encard = c.size := by
  have hkeys : {key | (c.get? key).isSome = true} = ((c.entries.map (·.1)).toFinset : Set κ) := by
    ext key
    simp only [Set.mem_ofPred_eq, isSome_get?_iff, List.coe_toFinset]
  rw [hkeys, Set.encard_coe_eq_coe_finsetCard, List.toFinset_card_of_nodup h, List.length_map, size]

end Cache

/-- What follows a result is met with the result. -/
theorem Remembering.ofExcept_ok_bind {α β : Type} (a : α) (f : α → Remembering β) :
    (Remembering.ofExcept (.ok a) >>= f) = f a := rfl

namespace Memory

variable {m : Memory} {request : Request}

/-- The memory has what is requested. -/
def Keeps (m : Memory) : Request → Prop
  | .element name overrides => (m.elements.get? (name, overrides)).isSome = true
  | .object name overrides => (m.objects.get? (name, overrides)).isSome = true

theorem not_keeps_empty (request : Request) : ¬ Keeps {} request := by
  cases request <;> exact Bool.false_ne_true

theorem keeps_insertElement (m : Memory) (name : String) (overrides : ValueOverrides)
    (e : CompiledElement) :
    Keeps { m with elements := m.elements.insertNew (name, overrides) e } request ↔
      m.Keeps request ∨ request = .element name overrides := by
  cases request with
  | element other o => simp [Keeps, Cache.isSome_get?_insertNew]
  | object other o => simp [Keeps]

theorem keeps_insertObject (m : Memory) (name : String) (overrides : ObjectOverrides)
    (o : CompiledObject) :
    Keeps { m with objects := m.objects.insertNew (name, overrides) o } request ↔
      m.Keeps request ∨ request = .object name overrides := by
  cases request with
  | element other o => simp [Keeps]
  | object other o => simp [Keeps, Cache.isSome_get?_insertNew]

end Memory

namespace Store

variable {s : Store} {m left : Memory} {name part : String} {overrides : ObjectOverrides}
variable {request : Request} {definition : ObjectDefinition} {α β : Type}

/-- The request is for the object itself, or for an element that a property of the object names,
with the overrides of the property. -/
def Takes (s : Store) (name : String) (overrides : ObjectOverrides) : Request → Prop
  | .object other o => other = name ∧ o = overrides
  | .element target o => ∃ definition, s.schemas.get? name = some (.object definition) ∧
      ∃ p ∈ definition.properties, s.elementOf? p.target = some target ∧ overrides.at p.name = o

/-- What is requested to compile the object: what it takes itself, and what each object that it
reaches by one property or more takes without overrides. -/
def Needs (s : Store) (name : String) (overrides : ObjectOverrides) (request : Request) : Prop :=
  s.Takes name overrides request ∨
    ∃ part, Relation.TransGen s.Composes name part ∧ s.Takes part .empty request

/-- An object needs what it takes and what its direct parts need. -/
theorem needs_iff : s.Needs name overrides request ↔
    s.Takes name overrides request ∨
      ∃ part, s.Composes name part ∧ s.Needs part .empty request := by
  constructor
  · rintro (htakes | ⟨last, hlast, htakes⟩)
    · exact .inl htakes
    · obtain ⟨part, hpart, hreach⟩ := Relation.TransGen.head'_iff.mp hlast
      refine .inr ⟨part, hpart, ?_⟩
      rcases Relation.reflTransGen_iff_eq_or_transGen.mp hreach with rfl | hreach
      · exact .inl htakes
      · exact .inr ⟨last, hreach, htakes⟩
  · rintro (htakes | ⟨part, hpart, htakes | ⟨last, hlast, htakes⟩⟩)
    · exact .inl htakes
    · exact .inr ⟨part, .single hpart, htakes⟩
    · exact .inr ⟨last, .head hpart hlast, htakes⟩

/-- What one property contributes: the element that it names, or all that the object that it names
needs. -/
def PropertyNeeds (s : Store) (overrides : ObjectOverrides) (p : PropertyDefinition)
    (request : Request) : Prop :=
  (∃ target, s.elementOf? p.target = some target ∧
    request = .element target (overrides.at p.name)) ∨
  ∃ part, p.target = .schema part ∧ s.DeclaresObject part ∧ s.Needs part .empty request

/-- An object needs itself and what its properties contribute. -/
theorem needs_iff_of_declared (hentry : s.schemas.get? name = some (.object definition)) :
    s.Needs name overrides request ↔
      (∃ p ∈ definition.properties, s.PropertyNeeds overrides p request) ∨
        request = .object name overrides := by
  rw [needs_iff]
  constructor
  · rintro (htakes | ⟨part, ⟨found, hfound, ⟨p, hp, htarget⟩, hdeclared⟩, hneeds⟩)
    · cases request with
      | object other o =>
          obtain ⟨rfl, rfl⟩ := htakes
          exact .inr rfl
      | element target o =>
          obtain ⟨found, hfound, p, hp, helement, rfl⟩ := htakes
          rw [hentry] at hfound
          cases hfound
          exact .inl ⟨p, hp, .inl ⟨target, helement, rfl⟩⟩
    · rw [hentry] at hfound
      cases hfound
      exact .inl ⟨p, hp, .inr ⟨part, htarget, hdeclared, hneeds⟩⟩
  · rintro (⟨p, hp, ⟨target, helement, rfl⟩ | ⟨part, htarget, hdeclared, hneeds⟩⟩ | rfl)
    · exact .inl ⟨definition, hentry, p, hp, helement, rfl⟩
    · exact .inr ⟨part, ⟨definition, hentry, ⟨p, hp, htarget⟩, hdeclared⟩, hneeds⟩
    · exact .inl ⟨rfl, rfl⟩

/-- With an object the memory keeps all that the object needs. -/
def Closed (s : Store) (m : Memory) : Prop :=
  ∀ ⦃name overrides⦄, m.Keeps (.object name overrides) →
    ∀ request, s.Needs name overrides request → m.Keeps request

theorem closed_empty (s : Store) : s.Closed {} :=
  fun _ _ hkeeps => absurd hkeeps (Memory.not_keeps_empty _)

/-- Where the computation succeeds it leaves a closed memory closed, and what is kept then is what
was kept before and the given requests. -/
def Adds (s : Store) (x : Remembering α) (added : Request → Prop) : Prop :=
  ∀ ⦃m left a⦄, s.Closed m → x m = (.ok a, left) →
    s.Closed left ∧ ∀ request, left.Keeps request ↔ m.Keeps request ∨ added request

namespace Adds

theorem pure (a : α) : s.Adds (Pure.pure a) (fun _ => False) := by
  intro m left b hm hrun
  cases hrun
  exact ⟨hm, fun request => by simp⟩

theorem congr {x : Remembering α} {added added' : Request → Prop} (hx : s.Adds x added)
    (h : ∀ request, added request ↔ added' request) : s.Adds x added' := by
  have hsame : added = added' := funext fun request => propext (h request)
  rwa [← hsame]

/-- What is computed without the memory adds nothing, and what follows is met only with its
result. -/
theorem ofExcept_bind {result : Except TaxonomyError α} {f : α → Remembering β}
    {added : Request → Prop} (hf : ∀ a, result = .ok a → s.Adds (f a) added) :
    s.Adds (Remembering.ofExcept result >>= f) added := by
  intro m left b hm hrun
  cases result with
  | error fault => cases hrun
  | ok a => exact hf a rfl hm hrun

/-- A sequence adds what its first step adds and what follows it adds. -/
theorem bind {x : Remembering α} {f : α → Remembering β} {first later : Request → Prop}
    (hx : s.Adds x first) (hf : ∀ a, s.Adds (f a) later) :
    s.Adds (x >>= f) (fun request => first request ∨ later request) := by
  intro m left b hm hrun
  rcases hfirst : x m with ⟨fault | a, middle⟩
  · rw [Remembering.bind_of_error hfirst] at hrun
    cases hrun
  · rw [Remembering.bind_of_ok hfirst] at hrun
    obtain ⟨hmiddle, hkept⟩ := hx hm hfirst
    obtain ⟨hleft, hlater⟩ := hf a hmiddle hrun
    refine ⟨hleft, fun request => ?_⟩
    rw [hlater, hkept, or_assoc]

/-- A sequence adds what its first step adds if what follows it adds nothing. -/
theorem bind_none {x : Remembering α} {f : α → Remembering β} {added : Request → Prop}
    (hx : s.Adds x added) (hf : ∀ a, s.Adds (f a) (fun _ => False)) : s.Adds (x >>= f) added :=
  (hx.bind hf).congr fun _ => iff_of_eq (or_false _)

end Adds

/-- After an element is compiled it is kept, and it was already or nothing else changed. -/
theorem compileElementOnce_adds (s : Store) (name : String) (o : ValueOverrides) :
    s.Adds (s.compileElementOnce name o) (· = .element name o) := by
  intro m left e hm hrun
  rw [compileElementOnce] at hrun
  cases hkept : m.elements.get? (name, o) with
  | some kept =>
      rw [hkept] at hrun
      cases hrun
      have hkeeps : m.Keeps (.element name o) := by simp [Memory.Keeps, hkept]
      refine ⟨hm, fun request => ⟨.inl, ?_⟩⟩
      rintro (h | rfl)
      · exact h
      · exact hkeeps
  | none =>
      rw [hkept] at hrun
      cases hcompile : s.compileElement name o with
      | error fault =>
          rw [hcompile] at hrun
          cases hrun
      | ok compiled =>
          rw [hcompile] at hrun
          cases hrun
          refine ⟨?_, fun request => m.keeps_insertElement name o _⟩
          intro owner overrides hobject request hneeds
          exact (m.keeps_insertElement name o _).mpr (.inl (hm hobject request hneeds))

/-- Keeping an object leaves a closed memory closed if all that the object needs is kept. -/
theorem closed_keepObject {o : CompiledObject} (hm : s.Closed m)
    (hneeds : ∀ request, s.Needs name overrides request →
      m.Keeps request ∨ request = .object name overrides) :
    s.Closed (keepObject name overrides o m).2 := by
  intro owner adjustments hobject request hrequest
  refine (m.keeps_insertObject name overrides o).mpr ?_
  rcases (m.keeps_insertObject name overrides o).mp hobject with hkept | hsame
  · exact .inl (hm hkept request hrequest)
  · cases hsame
    exact hneeds request hrequest

/-- A name that classifies names an element exactly if it classifies as one. -/
theorem elementOf?_of_classify {kind : SchemaKind} (h : s.classify name = .ok kind) :
    s.elementOf? (.schema name) = if kind = .element then some name else none := by
  cases hentry : s.schemas.get? name with
  | none => simp [classify, lookup_of_none hentry] at h
  | some found =>
      cases found with
      | element e =>
          obtain ⟨category, _, rfl⟩ := Except.map_eq_ok_iff.mp (classify_of_element hentry ▸ h)
          simp [elementOf?, hentry]
      | object definition =>
          cases (classify_of_object hentry).symm.trans h
          simp [elementOf?, hentry]
      | array items =>
          cases (classify_of_array hentry).symm.trans h
          simp [elementOf?, hentry]
      | unrecognized fault => simp [classify, lookup_of_some hentry] at h

/-- What a property contributes is seen from the kind of the schema that it names. -/
theorem propertyNeeds_iff_of_classify {kind : SchemaKind} {property target : String}
    (h : s.classify target = .ok kind) :
    s.PropertyNeeds overrides ⟨property, .schema target⟩ request ↔
      (kind = .element ∧ request = .element target (overrides.at property)) ∨
        (kind = .object ∧ s.Needs target .empty request) := by
  simp only [PropertyNeeds, elementOf?_of_classify h, ← classify_eq_object_iff,
    PropertyTarget.schema.injEq]
  constructor
  · rintro (⟨found, hfound, rfl⟩ | ⟨part, rfl, hpart, hneeds⟩)
    · split at hfound
      · rename_i hkind
        cases hfound
        exact .inl ⟨hkind, rfl⟩
      · cases hfound
    · cases h.symm.trans hpart
      exact .inr ⟨rfl, hneeds⟩
  · rintro (⟨rfl, rfl⟩ | ⟨rfl, hneeds⟩)
    · exact .inl ⟨target, if_pos rfl, rfl⟩
    · exact .inr ⟨target, rfl, h, hneeds⟩

/-- Properties add what each of them contributes. -/
theorem compileParts_adds {nested : String → Remembering CompiledObject}
    {properties : List PropertyDefinition}
    (hnested : ∀ p ∈ properties, ∀ target, p.target = .schema target → s.DeclaresObject target →
      s.Adds (nested target) (s.Needs target .empty)) :
    s.Adds (s.compileParts overrides nested properties)
      (fun request => ∃ p ∈ properties, s.PropertyNeeds overrides p request) := by
  induction properties with
  | nil => exact (Adds.pure _).congr (by simp)
  | cons p rest ih =>
      obtain ⟨hp, hrest⟩ := List.forall_mem_cons.mp hnested
      have ih := ih hrest
      obtain ⟨property, target⟩ := p
      simp only [List.exists_mem_cons_iff]
      cases target with
      | array items =>
          exact (ih.bind_none fun _ => Adds.pure _).congr (by simp [PropertyNeeds, elementOf?])
      | schema target =>
          refine Adds.ofExcept_bind fun kind hkind => ?_
          simp only [propertyNeeds_iff_of_classify hkind]
          cases kind with
          | element =>
              refine ((s.compileElementOnce_adds target _).bind fun _ =>
                ih.bind_none fun _ => Adds.pure _).congr ?_
              simp
          | object =>
              have hdeclared := classify_eq_object_iff.mp hkind
              refine ((hp target rfl hdeclared).bind fun _ =>
                ih.bind_none fun _ => Adds.pure _).congr ?_
              simp
          | array =>
              refine (ih.bind_none fun parts => ?_).congr (by simp)
              cases s.arrayItemsOf? (.schema target) <;> exact Adds.pure _

/-- An object that compiles was kept already, or its properties compile and it is kept then. -/
theorem compileOn_ok_cases {path : List String} {o : CompiledObject}
    (h : s.compileOn path name overrides m = (.ok o, left)) :
    (m.objects.get? (name, overrides) = some o ∧ left = m) ∨
    ∃ definition parts middle, name ∉ path ∧ s.objectWithParent name = .ok definition ∧
      s.compileParts overrides (fun target => s.compileOn (path ++ [name]) target .empty)
        definition.properties m = (.ok parts, middle) ∧
      left = (keepObject name overrides o middle).2 := by
  by_cases hpath : name ∈ path
  · rw [compileOn_of_mem hpath] at h
    cases h
  cases hkept : m.objects.get? (name, overrides) with
  | some kept =>
      rw [compileOn_of_kept hpath hkept] at h
      cases h
      exact .inl ⟨rfl, rfl⟩
  | none =>
      rw [compileOn_of_not_kept hpath hkept] at h
      cases hdefinition : s.objectWithParent name with
      | error fault =>
          rw [hdefinition] at h
          cases h
      | ok definition =>
          rw [hdefinition, Remembering.ofExcept_ok_bind] at h
          rcases hparts : s.compileParts overrides
            (fun target => s.compileOn (path ++ [name]) target .empty)
            definition.properties m with ⟨fault | parts, middle⟩
          · rw [Remembering.bind_of_error hparts] at h
            cases h
          · rw [Remembering.bind_of_ok hparts] at h
            cases h
            exact .inr ⟨definition, parts, middle, hpath, rfl, hparts, rfl⟩

/-- An object that compiles is kept. -/
theorem keeps_of_compileOn {path : List String} {o : CompiledObject}
    (h : s.compileOn path name overrides m = (.ok o, left)) :
    left.Keeps (.object name overrides) := by
  rcases compileOn_ok_cases h with ⟨hkept, rfl⟩ | ⟨_, _, middle, _, _, _, rfl⟩
  · simp [Memory.Keeps, hkept]
  · exact (middle.keeps_insertObject name overrides o).mpr (.inr rfl)

/-- An object that compiles adds what it needs. Where it is given back from memory, all of that is
there already, because the memory is closed. -/
theorem compileOn_adds (s : Store) (path : List String) (name : String)
    (overrides : ObjectOverrides) :
    s.Adds (s.compileOn path name overrides) (s.Needs name overrides) := by
  induction path, name using composition_induction s generalizing overrides with
  | step path name ih =>
      intro m left o hm hrun
      rcases compileOn_ok_cases hrun with
        ⟨_, rfl⟩ | ⟨definition, parts, middle, hpath, hdefinition, hparts, rfl⟩
      · have hobject := keeps_of_compileOn hrun
        exact ⟨hm, fun request => (or_iff_left_of_imp (hm hobject request)).symm⟩
      · have hentry := (objectWithParent_eq_ok_iff.mp hdefinition).1
        obtain ⟨hmiddle, hadded⟩ := compileParts_adds
          (fun _ _ target _ _ => ih definition hpath hdefinition target .empty) hm hparts
        refine ⟨closed_keepObject hmiddle fun request hneeds => ?_, fun request => ?_⟩
        · rw [hadded, or_assoc]
          exact .inr ((needs_iff_of_declared hentry).mp hneeds)
        · rw [needs_iff_of_declared hentry, ← or_assoc, ← hadded]
          exact middle.keeps_insertObject name overrides o

/-- An object that is compiled again is given back, and the memory stays as it is. -/
theorem compile_again {o : CompiledObject} (h : s.compile name overrides m = (.ok o, left)) :
    (s.compile name overrides left).2 = left := by
  obtain ⟨kept, hkept⟩ := Option.isSome_iff_exists.mp (keeps_of_compileOn h)
  rw [compile, compileOn_of_kept List.not_mem_nil hkept]

/-- What a new compiler keeps of an object that compiles is what the object needs. -/
theorem keeps_compile_iff {o : CompiledObject} (h : (s.compile name overrides {}).1 = .ok o) :
    (s.compile name overrides {}).2.Keeps request ↔ s.Needs name overrides request := by
  obtain ⟨_, hadded⟩ := s.compileOn_adds [] name overrides s.closed_empty (Prod.ext h rfl)
  rw [compile, hadded, or_iff_right (Memory.not_keeps_empty request)]

/-- What an object is kept under that is compiled without overrides. -/
def plainKey (name : String) : String × ObjectOverrides :=
  (name, .empty)

/-- The objects that are needed are the object itself, under its overrides, and those that it
reaches, without any. -/
theorem needs_object_iff {key : String × ObjectOverrides} :
    s.Needs name overrides (.object key.1 key.2) ↔
      key = (name, overrides) ∨
        key ∈ plainKey '' {part | Relation.TransGen s.Composes name part} := by
  obtain ⟨other, o⟩ := key
  constructor
  · rintro (⟨hname, ho⟩ | ⟨part, hpart, hname, ho⟩)
    · exact .inl (Prod.ext hname ho)
    · exact .inr ⟨part, hpart, Prod.ext hname.symm ho.symm⟩
  · rintro (hsame | ⟨part, hpart, hsame⟩)
    · cases hsame
      exact .inl ⟨rfl, rfl⟩
    · cases hsame
      exact .inr ⟨other, hpart, rfl, rfl⟩

/-- The objects that are needed are one more than those that are reached, if the object is on no
cycle. -/
theorem encard_needs_object (h : ¬ s.OnCycle name) (overrides : ObjectOverrides) :
    {key : String × ObjectOverrides | s.Needs name overrides (.object key.1 key.2)}.encard =
      1 + {part | Relation.TransGen s.Composes name part}.encard := by
  have hset : {key : String × ObjectOverrides | s.Needs name overrides (.object key.1 key.2)} =
      insert (name, overrides) (plainKey '' {part | Relation.TransGen s.Composes name part}) := by
    ext key
    exact needs_object_iff
  have hroot : (name, overrides) ∉ plainKey '' {part | Relation.TransGen s.Composes name part} := by
    rintro ⟨part, hpart, ⟨⟩⟩
    exact h hpart
  have hinjective : Function.Injective plainKey := fun _ _ hsame => congrArg Prod.fst hsame
  rw [hset, Set.encard_insert_of_notMem hroot, hinjective.encard_image, add_comm]

/-- Each pair of a name and overrides is compiled once. If an object compiles on a new compiler,
then the elements in memory are as many as there are pairs of an element and overrides that are
needed, the objects are one more than the objects that it reaches by one property or more, and
compiling it again changes neither number. On every compiler every request, whether it succeeds or
fails, leaves the numbers of entries at least as they were, and each entry as it was. -/
theorem compile_keeps_each_once (s : Store) (name : String) (overrides : ObjectOverrides) :
    (∀ o, (s.compile name overrides {}).1 = .ok o →
      ((s.compile name overrides {}).2.sizes.1 : ℕ∞) =
        {key : String × ValueOverrides |
          s.Needs name overrides (.element key.1 key.2)}.encard ∧
      ((s.compile name overrides {}).2.sizes.2 : ℕ∞) =
        1 + {part | Relation.TransGen s.Composes name part}.encard ∧
      (s.compile name overrides (s.compile name overrides {}).2).2.sizes =
        (s.compile name overrides {}).2.sizes) ∧
    ∀ (m : Memory) (request : Request), m.Extends (s.serve request m).2 := by
  refine ⟨fun o ho => ?_, fun m request => (s.serve_grows request m).extends⟩
  have hcompose : s.compose name overrides = .ok o := by
    rw [← (s.compile_agrees name overrides {} s.sound_empty).1, ho]
  have hgrows := s.compileOn_grows [] name overrides {}
  have hkeeps : ∀ request, (s.compile name overrides {}).2.Keeps request ↔
      s.Needs name overrides request := fun _ => keeps_compile_iff ho
  refine ⟨?_, ?_, ?_⟩
  · have hsize := Cache.encard_eq_size (hgrows.elements.distinct List.nodup_nil)
    simp only [← hkeeps]
    exact hsize.symm
  · have hsize := Cache.encard_eq_size (hgrows.objects.distinct List.nodup_nil)
    rw [← encard_needs_object (not_onCycle_of_composeOn hcompose) overrides]
    simp only [← hkeeps]
    exact hsize.symm
  · rw [compile_again (Prod.ext ho rfl)]

/-- A cart has two wheels of one kind and a spare tyre like those on the wheels. -/
def carts : Store where
  source := none
  schemas := .ofList [
    ("Cart", .object ⟨none, "", [⟨"Left", .schema "Wheel"⟩, ⟨"Name", .schema "Label"⟩,
      ⟨"Right", .schema "Wheel"⟩, ⟨"Spare", .schema "Tyre"⟩, ⟨"Title", .schema "Label"⟩]⟩),
    ("Label", .element ⟨"TaxonomyElementString", "", "String", none⟩),
    ("Tyre", .object ⟨none, "", [⟨"Name", .schema "Label"⟩]⟩),
    ("Wheel", .object ⟨none, "", [⟨"Tyre", .schema "Tyre"⟩]⟩)]
  itemTypes := .ofList [("String", .obj [])]
  itemTypeGroups := .empty

/-- The name is shortened, and the title is overridden in nothing. -/
def cartOverrides : ObjectOverrides :=
  .ofList [("Name", { maxLength := some 16 }), ("Title", {})]

/-- The label is compiled shortened for the name and once more for the title and the tyres, and the
wheels and the tyre are compiled once. -/
theorem compile_keeps_each_once_cart :
    (∃ o, (carts.compile "Cart" cartOverrides {}).1 = .ok o) ∧
      {key : String × ValueOverrides |
        carts.Needs "Cart" cartOverrides (.element key.1 key.2)}.encard = 2 ∧
      1 + {part | Relation.TransGen carts.Composes "Cart" part}.encard = 3 := by
  obtain ⟨o, ho⟩ : ∃ o, (carts.compile "Cart" cartOverrides {}).1 = .ok o :=
    Except.exists_of_toBool (by cbv)
  have hsizes : (carts.compile "Cart" cartOverrides {}).2.sizes = (2, 3) := by
    cbv
  obtain ⟨helements, hobjects, -⟩ := (compile_keeps_each_once carts "Cart" cartOverrides).1 o ho
  rw [hsizes] at helements hobjects
  exact ⟨⟨o, ho⟩, helements.symm, hobjects.symm⟩

end Store

end Taxonomy
