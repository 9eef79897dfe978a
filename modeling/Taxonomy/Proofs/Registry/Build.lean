import Taxonomy.Proofs.Composition.Memory
import Taxonomy.Proofs.NameMap
import Taxonomy.Proofs.Text.ByteOrder
import Taxonomy.Registry

/-!
# Building a registry

A registry is built by one compiler that takes the schemas in name order and keeps what it
has compiled. It holds what each schema compiles to on its own: the memory is sound all along, so
adding a schema to the registry is compiling it alone and entering the result. A failure is that of
the first schema that does not compile alone.
-/

namespace Taxonomy

namespace Store

/-- What a schema compiles to on its own: an element without overrides, an object without overrides
by a new compiler, an array to its items. -/
def compileAlone (s : Store) (name : String) :
    SchemaDefinition → Except TaxonomyError CompiledSchema
  | .element _ => CompiledSchema.element <$> s.compileElement name .unchanged
  | .object _ => CompiledSchema.object <$> (s.compile name .empty {}).1
  | .array items => .ok (.array items)
  | .unrecognized fault => .error (.malformedSchema name fault)

end Store

namespace Registry

variable {s : Store} {r r' : Registry} {name other : String} {compiled : CompiledSchema}
variable {entries : List (String × SchemaDefinition)}

/-- Enter a compiled schema in the map of its kind. -/
def enter (r : Registry) (name : String) : CompiledSchema → Registry
  | .element e => { r with elements := r.elements.insert name e }
  | .object o => { r with objects := r.objects.insert name o }
  | .array items => { r with arrays := r.arrays.insert name items }

/-- All that a registry holds under a name, in any of its maps. -/
def entriesOf (r : Registry) (name : String) : List CompiledSchema :=
  (r.elements.get? name).toList.map .element ++ (r.objects.get? name).toList.map .object ++
    (r.arrays.get? name).toList.map .array

theorem entriesOf_enter_of_ne (r : Registry) (compiled : CompiledSchema) (h : name ≠ other) :
    (r.enter name compiled).entriesOf other = r.entriesOf other := by
  cases compiled <;> simp only [enter, entriesOf, NameMap.get?_insert, if_neg h]

/-- A name that has no entry has one after a schema was entered under it. -/
theorem entriesOf_enter_self (compiled : CompiledSchema) (h : r.entriesOf name = []) :
    (r.enter name compiled).entriesOf name = [compiled] := by
  simp only [entriesOf, List.append_eq_nil_iff, List.map_eq_nil_iff, Option.toList_eq_nil_iff] at h
  obtain ⟨⟨helements, hobjects⟩, harrays⟩ := h
  cases compiled <;>
    simp [enter, entriesOf, NameMap.get?_insert, helements, hobjects, harrays]

/-- Enter several schemas, each compiled on its own. -/
def enterAll (s : Store) (r : Registry) :
    List (String × SchemaDefinition) → Except TaxonomyError Registry
  | [] => .ok r
  | (name, definition) :: rest => do
    enterAll s (r.enter name (← s.compileAlone name definition)) rest

theorem addSchema_agrees (s : Store) (r : Registry) (name : String)
    (definition : SchemaDefinition) :
    s.Agrees (addSchema s r name definition) (r.enter name <$> s.compileAlone name definition) := by
  cases definition with
  | element definition =>
      rw [Store.compileAlone, Functor.map_map, map_eq_pure_bind]
      exact (s.compileElementOnce_agrees name .unchanged).bind fun e _ => Store.Agrees.pure _
  | object definition =>
      rw [Store.compileAlone, Functor.map_map, map_eq_pure_bind,
        (s.compile_agrees name .empty {} s.sound_empty).1]
      exact (s.compile_agrees name .empty).bind fun o _ => Store.Agrees.pure _
  | array items => exact Store.Agrees.pure _
  | unrecognized fault => exact Store.Agrees.ofExcept _

/-- The one compiler agrees with compiling every schema on its own. -/
theorem addSchemas_agrees (s : Store) (r : Registry)
    (entries : List (String × SchemaDefinition)) :
    s.Agrees (addSchemas s r entries) (enterAll s r entries) := by
  induction entries generalizing r with
  | nil => exact Store.Agrees.pure r
  | cons entry rest ih =>
      obtain ⟨name, definition⟩ := entry
      have henter : enterAll s r ((name, definition) :: rest) =
          (r.enter name <$> s.compileAlone name definition) >>= fun r => enterAll s r rest := by
        rw [enterAll, map_eq_pure_bind, bind_assoc]
        rfl
      rw [henter]
      exact (addSchema_agrees s r name definition).bind fun r _ => ih r

theorem build_eq_enterAll (s : Store) :
    build s = (fun r => { r with usages := .build s }) <$> enterAll s empty s.schemas.entries := by
  rw [build, (addSchemas_agrees s empty s.schemas.entries {} s.sound_empty).1, map_eq_pure_bind]

/-- Schemas with distinct names that have no entries yet: each has exactly one entry afterwards,
what it compiles to alone, and no other name gets any. -/
theorem entriesOf_of_enterAll (h : enterAll s r entries = .ok r')
    (hdistinct : Entries.Distinct entries) (hnew : ∀ e ∈ entries, r.entriesOf e.1 = []) :
    (∀ e ∈ entries, ∃ compiled, s.compileAlone e.1 e.2 = .ok compiled ∧
      r'.entriesOf e.1 = [compiled]) ∧
    ∀ other, (∀ e ∈ entries, e.1 ≠ other) → r'.entriesOf other = r.entriesOf other := by
  induction entries generalizing r with
  | nil =>
      cases h
      exact ⟨fun e he => absurd he List.not_mem_nil, fun _ _ => rfl⟩
  | cons entry rest ih =>
      obtain ⟨name, definition⟩ := entry
      obtain ⟨hname, hrest⟩ := List.nodup_cons.mp hdistinct
      obtain ⟨compiled, hcompiled, h⟩ := Except.bind_eq_ok_iff.mp h
      have hother : ∀ e ∈ rest, name ≠ e.1 := by
        rintro e he rfl
        exact hname (List.mem_map.mpr ⟨e, he, rfl⟩)
      obtain ⟨hentries, hkept⟩ := ih h hrest fun e he => by
        rw [entriesOf_enter_of_ne r compiled (hother e he)]
        exact hnew e (List.mem_cons_of_mem _ he)
      refine ⟨List.forall_mem_cons.mpr ⟨⟨compiled, hcompiled, ?_⟩, hentries⟩, ?_⟩
      · rw [hkept name fun e he => (hother e he).symm]
        exact entriesOf_enter_self compiled (hnew _ List.mem_cons_self)
      · intro other hne
        obtain ⟨hhead, htail⟩ := List.forall_mem_cons.mp hne
        rw [hkept other htail, entriesOf_enter_of_ne r compiled hhead]

/-- Schemas that all compile alone are all entered. -/
theorem exists_enterAll (h : ∀ e ∈ entries, ∃ compiled, s.compileAlone e.1 e.2 = .ok compiled)
    (r : Registry) : ∃ r', enterAll s r entries = .ok r' := by
  induction entries generalizing r with
  | nil => exact ⟨r, rfl⟩
  | cons entry rest ih =>
      obtain ⟨⟨compiled, hcompiled⟩, hrest⟩ := List.forall_mem_cons.mp h
      obtain ⟨r', hr'⟩ := ih hrest (r.enter entry.1 compiled)
      exact ⟨r', Except.bind_eq_ok_iff.mpr ⟨compiled, hcompiled, hr'⟩⟩

/-- The fault is that of the first schema that does not compile alone. -/
theorem exists_of_enterAll_error {fault : TaxonomyError} (h : enterAll s r entries = .error fault) :
    ∃ front name definition back, entries = front ++ (name, definition) :: back ∧
      s.compileAlone name definition = .error fault ∧
      ∀ e ∈ front, ∃ compiled, s.compileAlone e.1 e.2 = .ok compiled := by
  induction entries generalizing r with
  | nil => cases h
  | cons entry rest ih =>
      obtain ⟨name, definition⟩ := entry
      rcases Except.bind_eq_error_iff.mp h with hfault | ⟨compiled, hcompiled, h⟩
      · exact ⟨[], name, definition, rest, rfl, hfault, fun e he => absurd he List.not_mem_nil⟩
      · obtain ⟨front, first, firstDefinition, back, rfl, hfault, hfront⟩ := ih h
        refine ⟨(name, definition) :: front, first, firstDefinition, back, rfl, hfault, ?_⟩
        exact List.forall_mem_cons.mpr ⟨⟨compiled, hcompiled⟩, hfront⟩

/-- In an ascending list what comes before an entry by name stands in front of it. -/
theorem mem_front_of_before {front back : List (String × SchemaDefinition)}
    {entry e : String × SchemaDefinition} (h : Ascending (front ++ entry :: back))
    (he : e ∈ front ++ entry :: back) (hbefore : Text.before e.1 entry.1 = true) : e ∈ front := by
  rcases List.mem_append.mp he with hfront | hback
  · exact hfront
  rcases List.mem_cons.mp hback with rfl | hback
  · exact absurd rfl (Text.ne_of_before hbefore)
  · have hafter : Text.before entry.1 e.1 = true :=
      (List.pairwise_cons.mp (List.pairwise_append.mp h).2.1).1 e hback
    rw [Text.before_asymm hafter] at hbefore
    cases hbefore

theorem entriesOf_empty (name : String) : empty.entriesOf name = [] := rfl

/-- A registry that is built holds what each declared schema compiles to alone, and nothing else. -/
theorem entriesOf_of_build (h : build s = .ok r) :
    (∀ name definition, s.schemas.get? name = some definition →
      ∃ compiled, s.compileAlone name definition = .ok compiled ∧
        r.entriesOf name = [compiled]) ∧
    ∀ name, s.schemas.get? name = none → r.entriesOf name = [] := by
  rw [build_eq_enterAll, Except.map_eq_ok_iff] at h
  obtain ⟨built, hbuilt, rfl⟩ := h
  obtain ⟨hentries, hother⟩ :=
    entriesOf_of_enterAll hbuilt s.schemas.distinct_entries fun e _ => entriesOf_empty e.1
  refine ⟨fun name definition hget => hentries _ (NameMap.get?_eq_some_iff.mp hget), ?_⟩
  intro name hnone
  refine hother name ?_
  rintro e he rfl
  rw [NameMap.get?_eq_some_iff.mpr he] at hnone
  cases hnone

/-- Schemas that all compile alone are built into a registry. -/
theorem exists_build
    (h : ∀ name definition, s.schemas.get? name = some definition →
      ∃ compiled, s.compileAlone name definition = .ok compiled) : ∃ r, build s = .ok r := by
  obtain ⟨r, hr⟩ := exists_enterAll
    (fun e he => h e.1 e.2 (NameMap.get?_eq_some_iff.mpr he)) empty
  refine ⟨{ r with usages := .build s }, ?_⟩
  rw [build_eq_enterAll, hr, Except.map_ok]

/-- Whether a registry can be built is found out by compiling the entries one by one. -/
theorem exists_build_of_all
    (h : s.schemas.entries.all (fun e => (s.compileAlone e.1 e.2).toBool) = true) :
    ∃ r, build s = .ok r := by
  refine exists_build fun name definition hget => ?_
  have hok := List.all_eq_true.mp h _ (NameMap.get?_eq_some_iff.mp hget)
  cases hcompiled : s.compileAlone name definition with
  | error fault =>
      rw [hcompiled] at hok
      cases hok
  | ok compiled => exact ⟨compiled, rfl⟩

/-- The fault of a build is that of a schema, and all schemas whose names have lesser bytes compile
alone. -/
theorem exists_of_build_error {fault : TaxonomyError} (h : build s = .error fault) :
    ∃ name definition, s.schemas.get? name = some definition ∧
      s.compileAlone name definition = .error fault ∧
      ∀ other otherDefinition, s.schemas.get? other = some otherDefinition →
        Text.bytes other < Text.bytes name →
          ∃ compiled, s.compileAlone other otherDefinition = .ok compiled := by
  rw [build_eq_enterAll, Except.map_eq_error_iff] at h
  obtain ⟨front, name, definition, back, hsplit, hfails, hfront⟩ := exists_of_enterAll_error h
  refine ⟨name, definition, NameMap.get?_eq_some_iff.mpr (by simp [hsplit]), hfails, ?_⟩
  intro other otherDefinition hother hless
  have hascending := s.schemas.ascending
  have hmem := NameMap.get?_eq_some_iff.mp hother
  rw [hsplit] at hascending hmem
  exact hfront _ (mem_front_of_before hascending hmem (Text.before_iff_bytes_lt.mpr hless))

/-- A registry is built exactly if every declared schema compiles alone. It then holds one entry for
each declared name and none for any other, in the map of its kind and equal to what it compiles to
alone. If it is not built, the fault is that of the failing schema whose name has the least
bytes. -/
theorem build_iff_compileAlone (s : Store) :
    ((∃ r, build s = .ok r) ↔
      ∀ name definition, s.schemas.get? name = some definition →
        ∃ compiled, s.compileAlone name definition = .ok compiled) ∧
    (∀ r, build s = .ok r →
      (∀ name definition, s.schemas.get? name = some definition →
        ∃ compiled, s.compileAlone name definition = .ok compiled ∧
          r.entriesOf name = [compiled]) ∧
      ∀ name, s.schemas.get? name = none → r.entriesOf name = []) ∧
    ∀ fault, build s = .error fault →
      ∃ name definition, s.schemas.get? name = some definition ∧
        s.compileAlone name definition = .error fault ∧
        ∀ other otherDefinition, s.schemas.get? other = some otherDefinition →
          Text.bytes other < Text.bytes name →
            ∃ compiled, s.compileAlone other otherDefinition = .ok compiled := by
  refine ⟨⟨?_, exists_build⟩, fun r hr => entriesOf_of_build hr,
    fun fault hfault => exists_of_build_error hfault⟩
  rintro ⟨r, hr⟩ name definition hget
  obtain ⟨compiled, hcompiled, _⟩ := (entriesOf_of_build hr).1 name definition hget
  exact ⟨compiled, hcompiled⟩

end Registry

end Taxonomy
