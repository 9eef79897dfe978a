import Mathlib.Logic.Relation
import Taxonomy.Proofs.Render

/-!
# Visits of a rendering

Rendering visits an object together with the record that is rendered as it. From there it goes to
the nested objects that the record holds a record for, and to the registered items of each array
with every record of that array. Every visit goes down the record, so rendering ends whatever the
schemas contain; and since an array is looked up in the registry before its records are, a visited
object whose array has no registered items is the only thing that fails.
-/

namespace Taxonomy

/-- Every array of the object has a registered object as its items. -/
def CompiledObject.ItemsRegistered (o : CompiledObject) (r : Registry) : Prop :=
  ∀ usage ∈ o.arrays, ∃ items, r.object usage.items = .ok items

namespace Record

variable {r : Registry} {o : CompiledObject} {fault : TaxonomyError}

/-- The record that is held for a nested object, if there is one. -/
def nested? (property : String) : Record → Option Record
  | mk _ nested _ => Entries.lookup property nested

/-- The records that are held for an array. -/
def items (property : String) : Record → List Record
  | mk _ _ arrays => (Entries.lookup property arrays).getD []

theorem sizeOf_lt_of_nested? {property : String} {record below : Record}
    (h : record.nested? property = some below) : sizeOf below < sizeOf record := by
  obtain ⟨values, nested, arrays⟩ := record
  have hentry : sizeOf (property, below) < sizeOf nested :=
    List.sizeOf_lt_of_mem (Entries.mem_of_lookup h)
  simp only [Prod.mk.sizeOf_spec] at hentry
  rw [mk.sizeOf_spec]
  omega

theorem sizeOf_lt_of_mem_items {property : String} {record below : Record}
    (h : below ∈ record.items property) : sizeOf below < sizeOf record := by
  obtain ⟨values, nested, arrays⟩ := record
  cases hlookup : Entries.lookup property arrays with
  | none =>
      rw [items, hlookup, Option.getD_none] at h
      cases h
  | some records =>
      rw [items, hlookup, Option.getD_some] at h
      have hentry : sizeOf (property, records) < sizeOf arrays :=
        List.sizeOf_lt_of_mem (Entries.mem_of_lookup hlookup)
      have hbelow : sizeOf below < sizeOf records := List.sizeOf_lt_of_mem h
      simp only [Prod.mk.sizeOf_spec] at hentry
      rw [mk.sizeOf_spec]
      omega

theorem nestedRenderings_eq_map (r : Registry) (nested : List (String × Record)) :
    nestedRenderings r nested = nested.map (fun e => (e.1, render r [] e.2)) := by
  induction nested with
  | nil => rfl
  | cons entry rest ih => rw [nestedRenderings, ih, List.map_cons]

theorem itemRenderings_eq_map (r : Registry) (records : List Record) :
    itemRenderings r records = records.map (render r []) := by
  induction records with
  | nil => rfl
  | cons record rest ih => rw [itemRenderings, ih, List.map_cons]

theorem arrayRenderings_eq_map (r : Registry) (arrays : List (String × List Record)) :
    arrayRenderings r arrays = arrays.map (fun e => (e.1, e.2.map (render r []))) := by
  induction arrays with
  | nil => rfl
  | cons entry rest ih => rw [arrayRenderings, ih, itemRenderings_eq_map, List.map_cons]

theorem lookup_nestedRenderings (r : Registry) (property : String)
    (nested : List (String × Record)) :
    Entries.lookup property (nestedRenderings r nested) =
      (Entries.lookup property nested).map (render r []) := by
  rw [nestedRenderings_eq_map]
  exact Entries.lookup_map (fun _ => render r []) property nested

theorem lookup_arrayRenderings (r : Registry) (property : String)
    (arrays : List (String × List Record)) :
    (Entries.lookup property (arrayRenderings r arrays)).getD [] =
      ((Entries.lookup property arrays).getD []).map (render r []) := by
  have hlookup := Entries.lookup_map (fun _ => List.map (render r [])) property arrays
  rw [arrayRenderings_eq_map, hlookup]
  cases Entries.lookup property arrays <;> rfl

/-- A nested object is null without a record, and else the record rendered as it. -/
theorem renderObjects_cons (nested : List (String × Rendering)) (entry : String × CompiledObject)
    (rest : List (String × CompiledObject)) :
    renderObjects nested (entry :: rest) =
      (Entries.lookup entry.1 nested).elim (.ok .null) (fun rendering => rendering entry.2) >>=
        fun value => renderObjects nested rest >>= fun others =>
          .ok ((entry.1, value) :: others) := by
  rw [renderObjects]
  cases Entries.lookup entry.1 nested <;> rfl

/-! ### The parts of a successful rendering -/

theorem render_of_renderObjects {nested : List (String × Rendering)}
    {objects : List (String × CompiledObject)} {out : List (String × Json)}
    (h : renderObjects nested objects = .ok out) :
    ∀ entry ∈ objects, ∀ rendering, Entries.lookup entry.1 nested = some rendering →
      ∃ rendered, rendering entry.2 = .ok rendered := by
  induction objects generalizing out with
  | nil =>
      intro entry hentry
      cases hentry
  | cons head rest ih =>
      rw [renderObjects_cons, Except.bind_eq_ok_iff] at h
      obtain ⟨value, hvalue, h⟩ := h
      obtain ⟨others, hothers, _⟩ := Except.bind_eq_ok_iff.mp h
      refine List.forall_mem_cons.mpr ⟨?_, ih hothers⟩
      intro rendering hheld
      rw [hheld, Option.elim_some] at hvalue
      exact ⟨value, hvalue⟩

theorem render_of_renderItems {renderings : List Rendering} {out : List Json}
    (h : renderItems o renderings = .ok out) :
    ∀ rendering ∈ renderings, ∃ rendered, rendering o = .ok rendered := by
  induction renderings generalizing out with
  | nil =>
      intro rendering hrendering
      cases hrendering
  | cons head rest ih =>
      rw [renderItems, Except.bind_eq_ok_iff] at h
      obtain ⟨value, hvalue, h⟩ := h
      obtain ⟨others, hothers, _⟩ := Except.bind_eq_ok_iff.mp h
      exact List.forall_mem_cons.mpr ⟨⟨value, hvalue⟩, ih hothers⟩

theorem render_of_renderArrays {arrays : List (String × List Rendering)}
    {usages : List ArrayUsage} {out : List (String × Json)}
    (h : renderArrays r arrays usages = .ok out) :
    ∀ usage ∈ usages, ∃ items, r.object usage.items = .ok items ∧
      ∀ rendering ∈ (Entries.lookup usage.property arrays).getD [],
        ∃ rendered, rendering items = .ok rendered := by
  induction usages generalizing out with
  | nil =>
      intro usage husage
      cases husage
  | cons head rest ih =>
      rw [renderArrays, Except.bind_eq_ok_iff] at h
      obtain ⟨items, hitems, h⟩ := h
      obtain ⟨rendered, hrendered, h⟩ := Except.bind_eq_ok_iff.mp h
      obtain ⟨others, hothers, _⟩ := Except.bind_eq_ok_iff.mp h
      exact List.forall_mem_cons.mpr
        ⟨⟨items, hitems, render_of_renderItems hrendered⟩, ih hothers⟩

/-! ### The part that makes a rendering fail -/

theorem exists_of_renderObjects_error {nested : List (String × Rendering)}
    {objects : List (String × CompiledObject)} (h : renderObjects nested objects = .error fault) :
    ∃ entry ∈ objects, ∃ rendering, Entries.lookup entry.1 nested = some rendering ∧
      rendering entry.2 = .error fault := by
  induction objects with
  | nil => cases h
  | cons head rest ih =>
      rw [renderObjects_cons, Except.bind_eq_error_iff] at h
      rcases h with hhead | ⟨value, _, h⟩
      · cases hheld : Entries.lookup head.1 nested with
        | none =>
            rw [hheld, Option.elim_none] at hhead
            cases hhead
        | some rendering =>
            rw [hheld, Option.elim_some] at hhead
            exact ⟨head, List.mem_cons_self, rendering, hheld, hhead⟩
      · rcases Except.bind_eq_error_iff.mp h with hrest | ⟨_, _, hdone⟩
        · obtain ⟨entry, hentry, hfails⟩ := ih hrest
          exact ⟨entry, List.mem_cons_of_mem head hentry, hfails⟩
        · cases hdone

theorem exists_of_renderItems_error {renderings : List Rendering}
    (h : renderItems o renderings = .error fault) :
    ∃ rendering ∈ renderings, rendering o = .error fault := by
  induction renderings with
  | nil => cases h
  | cons head rest ih =>
      rw [renderItems, Except.bind_eq_error_iff] at h
      rcases h with hhead | ⟨value, _, h⟩
      · exact ⟨head, List.mem_cons_self, hhead⟩
      · rcases Except.bind_eq_error_iff.mp h with hrest | ⟨_, _, hdone⟩
        · obtain ⟨rendering, hrendering, hfails⟩ := ih hrest
          exact ⟨rendering, List.mem_cons_of_mem head hrendering, hfails⟩
        · cases hdone

theorem exists_of_renderArrays_error {arrays : List (String × List Rendering)}
    {usages : List ArrayUsage} (h : renderArrays r arrays usages = .error fault) :
    ∃ usage ∈ usages, r.object usage.items = .error fault ∨
      ∃ items, r.object usage.items = .ok items ∧
        ∃ rendering ∈ (Entries.lookup usage.property arrays).getD [],
          rendering items = .error fault := by
  induction usages with
  | nil => cases h
  | cons head rest ih =>
      rw [renderArrays, Except.bind_eq_error_iff] at h
      rcases h with hdangling | ⟨items, hitems, h⟩
      · exact ⟨head, List.mem_cons_self, .inl hdangling⟩
      rcases Except.bind_eq_error_iff.mp h with hfails | ⟨rendered, _, h⟩
      · exact ⟨head, List.mem_cons_self, .inr ⟨items, hitems, exists_of_renderItems_error hfails⟩⟩
      rcases Except.bind_eq_error_iff.mp h with hrest | ⟨_, _, hdone⟩
      · obtain ⟨usage, husage, hfails⟩ := ih hrest
        exact ⟨usage, List.mem_cons_of_mem head husage, hfails⟩
      · cases hdone

end Record

/-- An object and the record that is rendered as it. -/
structure Visit where
  object : CompiledObject
  record : Record

namespace Visit

variable {r : Registry} {s : Store} {v w : Visit} {fault : TaxonomyError}

/-- Rendering goes from one visit to another: to a nested object that the record holds a record for,
or to the items of an array with one of its records. -/
inductive Next (r : Registry) (v : Visit) : Visit → Prop
  | nested {property : String} {inner : CompiledObject} {below : Record}
      (inside : (property, inner) ∈ v.object.objects)
      (held : v.record.nested? property = some below) : Next r v ⟨inner, below⟩
  | item {usage : ArrayUsage} {items : CompiledObject} {below : Record}
      (used : usage ∈ v.object.arrays) (registered : r.object usage.items = .ok items)
      (held : below ∈ v.record.items usage.property) : Next r v ⟨items, below⟩

/-- Rendering comes from one visit to another, in any number of steps. -/
def Reaches (r : Registry) : Visit → Visit → Prop :=
  Relation.ReflTransGen (Next r)

/-- What is below the record of a visit, rendered. -/
def below (r : Registry) (v : Visit) : Except TaxonomyError (List (String × Json)) :=
  v.record.renderBelow r v.object

theorem Next.sizeOf_lt (h : v.Next r w) : sizeOf w.record < sizeOf v.record := by
  cases h with
  | nested inside held => exact Record.sizeOf_lt_of_nested? held
  | item used registered held => exact Record.sizeOf_lt_of_mem_items held

/-- No sequence of visits goes on for ever. -/
theorem wellFounded_next (r : Registry) :
    WellFounded (fun later earlier => Next r earlier later) := by
  have hmeasure : WellFounded (fun later earlier : Visit =>
      sizeOf later.record < sizeOf earlier.record) := InvImage.wf _ Nat.lt_wfRel.wf
  exact Subrelation.wf (fun h => h.sizeOf_lt) hmeasure

theorem render_eq_ok_iff (edits : PendingEdits) :
    (∃ rendered, v.record.render r edits v.object = .ok rendered) ↔
      ∃ members, v.below r = .ok members := by
  rw [Record.render_eq]
  simp only [Except.map_eq_ok_iff, below]
  exact ⟨fun ⟨_, members, h, _⟩ => ⟨members, h⟩, fun ⟨members, h⟩ => ⟨_, members, h, rfl⟩⟩

theorem render_eq_error_iff {edits : PendingEdits} :
    v.record.render r edits v.object = .error fault ↔ v.below r = .error fault := by
  rw [Record.render_eq, Except.map_eq_error_iff, below]

/-- A visit that succeeds has registered items in all its arrays, and succeeds at every next one. -/
theorem next_of_below_ok {members : List (String × Json)} (h : v.below r = .ok members) :
    v.object.ItemsRegistered r ∧ ∀ w, v.Next r w → ∃ members, w.below r = .ok members := by
  obtain ⟨o, ⟨values, nested, arrays⟩⟩ := v
  obtain ⟨objects, hobjects, h⟩ := Except.bind_eq_ok_iff.mp h
  obtain ⟨lists, hlists, _⟩ := Except.bind_eq_ok_iff.mp h
  have harrays := Record.render_of_renderArrays hlists
  constructor
  · intro usage husage
    obtain ⟨items, hitems, _⟩ := harrays usage husage
    exact ⟨items, hitems⟩
  · intro w hnext
    rw [← render_eq_ok_iff []]
    cases hnext with
    | nested inside held =>
        refine Record.render_of_renderObjects hobjects _ inside _ ?_
        rw [Record.lookup_nestedRenderings]
        exact congrArg (Option.map _) held
    | item used registered held =>
        obtain ⟨items, hitems, hrendered⟩ := harrays _ used
        cases registered.symm.trans hitems
        refine hrendered _ ?_
        rw [Record.lookup_arrayRenderings]
        exact List.mem_map_of_mem held

/-- A visit fails at an array without registered items, or because a next visit fails. -/
theorem next_of_below_error (h : v.below r = .error fault) :
    (∃ usage ∈ v.object.arrays, r.object usage.items = .error fault) ∨
      ∃ w, v.Next r w ∧ w.below r = .error fault := by
  obtain ⟨o, ⟨values, nested, arrays⟩⟩ := v
  rcases Except.bind_eq_error_iff.mp h with hobjects | ⟨objects, _, h⟩
  · obtain ⟨⟨property, inner⟩, inside, rendering, hheld, hfails⟩ :=
      Record.exists_of_renderObjects_error hobjects
    rw [Record.lookup_nestedRenderings, Option.map_eq_some_iff] at hheld
    obtain ⟨below, held, rfl⟩ := hheld
    exact .inr ⟨⟨inner, below⟩, .nested inside held, render_eq_error_iff.mp hfails⟩
  rcases Except.bind_eq_error_iff.mp h with hlists | ⟨_, _, hdone⟩
  · obtain ⟨usage, husage, hdangling | ⟨items, registered, rendering, hheld, hfails⟩⟩ :=
      Record.exists_of_renderArrays_error hlists
    · exact .inl ⟨usage, husage, hdangling⟩
    · rw [Record.lookup_arrayRenderings, List.mem_map] at hheld
      obtain ⟨below, held, rfl⟩ := hheld
      exact .inr ⟨⟨items, below⟩, .item husage registered held, render_eq_error_iff.mp hfails⟩
  · cases hdone

/-- Success is passed on to every visit that is reached. -/
theorem below_ok_of_reaches (hreaches : v.Reaches r w)
    (h : ∃ members, v.below r = .ok members) : ∃ members, w.below r = .ok members := by
  induction hreaches with
  | refl => exact h
  | tail _ hnext ih =>
      obtain ⟨members, hmembers⟩ := ih
      exact (next_of_below_ok hmembers).2 _ hnext

/-- A fault comes from an array of a visit that is reached. -/
theorem exists_of_below_error (h : v.below r = .error fault) :
    ∃ w, v.Reaches r w ∧ ∃ usage ∈ w.object.arrays, r.object usage.items = .error fault := by
  induction v using (wellFounded_next r).induction with
  | _ v ih =>
      rcases next_of_below_error h with hdangling | ⟨w, hnext, hfails⟩
      · exact ⟨v, .refl, hdangling⟩
      · obtain ⟨last, hreaches, hdangling⟩ := ih w hnext hfails
        exact ⟨last, .head hnext hreaches, hdangling⟩

/-- Every object that is visited is registered under its name. -/
theorem object_of_reaches (hbuild : Registry.build s = .ok r)
    (hobject : r.object v.object.name = .ok v.object) (hreaches : v.Reaches r w) :
    r.object w.object.name = .ok w.object := by
  induction hreaches with
  | refl => exact hobject
  | tail _ hnext ih =>
      cases hnext with
      | nested inside held =>
          exact (Registry.compose_part_of_build hbuild ih (.nested inside (.refl _))).1
      | item used registered held =>
          exact (Registry.compose_part_of_build hbuild registered (.refl _)).1

end Visit

namespace Registry

variable {s : Store} {r : Registry} {name : String} {fault : TaxonomyError}

/-- A name without a registered object is either declared as something else or not declared. -/
theorem object_fault_of_build (hbuild : build s = .ok r) (h : r.object name = .error fault) :
    fault = if s.contains name then .notAnObject name else .unknownSchema name := by
  obtain ⟨kind?, hanswers⟩ := exists_answers_of_build hbuild name
  rw [hanswers.declared]
  exact hanswers.object_fault fault h

end Registry

namespace Record

variable {s : Store} {r : Registry} {name : String} {o : CompiledObject}

/-- Rendering ends: no sequence of visits goes on for ever. It succeeds exactly if every array of
every visited object has registered items, and otherwise the fault names the items of an array that
does not. Where all arrays of the registry have registered items it never fails. -/
theorem render_iff_visits (hbuild : Registry.build s = .ok r) (hobject : r.object name = .ok o)
    (record : Record) (edits : PendingEdits) :
    WellFounded (fun later earlier => Visit.Next r earlier later) ∧
    ((∃ rendered, record.render r edits o = .ok rendered) ↔
      ∀ v, Visit.Reaches r ⟨o, record⟩ v →
        ∀ usage ∈ v.object.arrays, ∃ items, r.object usage.items = .ok items) ∧
    (∀ fault, record.render r edits o = .error fault →
      ∃ v, Visit.Reaches r ⟨o, record⟩ v ∧ ∃ usage ∈ v.object.arrays,
        r.object usage.items = .error fault ∧
        fault = if s.contains usage.items then .notAnObject usage.items
          else .unknownSchema usage.items) ∧
    ((∀ other p, r.object other = .ok p →
        ∀ usage ∈ p.arrays, ∃ items, r.object usage.items = .ok items) →
      ∃ rendered, record.render r edits o = .ok rendered) := by
  let root : Visit := ⟨o, record⟩
  have hfault : ∀ fault, record.render r edits o = .error fault →
      ∃ v, root.Reaches r v ∧ ∃ usage ∈ v.object.arrays, r.object usage.items = .error fault :=
    fun fault h => Visit.exists_of_below_error (Visit.render_eq_error_iff (v := root).mp h)
  have hsuccess : (∀ v, root.Reaches r v → v.object.ItemsRegistered r) →
      ∃ rendered, record.render r edits o = .ok rendered := by
    intro hregistered
    cases hrender : record.render r edits o with
    | ok rendered => exact ⟨rendered, rfl⟩
    | error fault =>
        obtain ⟨v, hreaches, usage, husage, hdangling⟩ := hfault fault hrender
        obtain ⟨items, hitems⟩ := hregistered v hreaches usage husage
        rw [hdangling] at hitems
        cases hitems
  have hroot : r.object root.object.name = .ok root.object :=
    (Registry.compose_part_of_build hbuild hobject (.refl o)).1
  refine ⟨Visit.wellFounded_next r, ⟨?_, hsuccess⟩, ?_, ?_⟩
  · intro hrendered v hreaches
    have hbelow := (Visit.render_eq_ok_iff (v := root) edits).mp hrendered
    obtain ⟨members, hmembers⟩ := Visit.below_ok_of_reaches hreaches hbelow
    exact (Visit.next_of_below_ok hmembers).1
  · intro fault h
    obtain ⟨v, hreaches, usage, husage, hdangling⟩ := hfault fault h
    exact ⟨v, hreaches, usage, husage, hdangling, Registry.object_fault_of_build hbuild hdangling⟩
  · intro hall
    exact hsuccess fun v hreaches => hall _ _ (Visit.object_of_reaches hbuild hroot hreaches)

/-- A folder has files, folders and a label; the notes of a label are of no declared schema. -/
def folders : Store where
  source := none
  schemas := .ofList [
    ("File", .object ⟨none, "", []⟩),
    ("Folder", .object ⟨none, "", [⟨"Files", .array "File"⟩, ⟨"Folders", .array "Folder"⟩,
      ⟨"Label", .schema "Label"⟩]⟩),
    ("Label", .object ⟨none, "", [⟨"Notes", .array "Note"⟩]⟩)]
  itemTypes := .empty
  itemTypeGroups := .empty

def compiledLabel : CompiledObject :=
  ⟨"Label", none, "", [], [], [⟨"Notes", "Note"⟩]⟩

def compiledFolder : CompiledObject :=
  ⟨"Folder", none, "", [], [("Label", compiledLabel)],
    [⟨"Files", "File"⟩, ⟨"Folders", "Folder"⟩]⟩

/-- A folder with a label. -/
def labelledFolder : Record :=
  mk [] [("Label", mk [] [] [])] []

/-- A folder without a label, which holds a folder that has one. -/
def outerFolder : Record :=
  mk [] [] [("Folders", [labelledFolder])]

/-- The label inside the inner folder is visited, and its notes are no registered objects, so the
outer folder is not rendered. -/
theorem render_iff_visits_folders : ∃ r,
    Registry.build folders = .ok r ∧ r.object "Folder" = .ok compiledFolder ∧
      ¬ ∃ rendered, outerFolder.render r [] compiledFolder = .ok rendered := by
  have hcompile : folders.schemas.entries.all (fun e =>
      (folders.compileAlone e.1 e.2).toBool) = true := by
    cbv
  obtain ⟨r, hbuild⟩ := Registry.exists_build_of_all hcompile
  have hcompose : folders.compose "Folder" .empty = .ok compiledFolder := by
    cbv
  have hobject : r.object "Folder" = .ok compiledFolder := Registry.object_eq_ok_iff.mpr
    ((Registry.get?_objects_of_build hbuild).mpr ⟨⟨_, rfl⟩, hcompose⟩)
  refine ⟨r, hbuild, hobject, fun hrendered => ?_⟩
  have hinner : Visit.Next r ⟨compiledFolder, outerFolder⟩ ⟨compiledFolder, labelledFolder⟩ :=
    .item (List.mem_cons_of_mem _ List.mem_cons_self) hobject List.mem_cons_self
  have hlabel : Visit.Next r ⟨compiledFolder, labelledFolder⟩ ⟨compiledLabel, mk [] [] []⟩ :=
    .nested List.mem_cons_self rfl
  obtain ⟨notes, hnotes⟩ := (render_iff_visits hbuild hobject outerFolder []).2.1.mp hrendered _
    (.tail (.single hinner) hlabel) ⟨"Notes", "Note"⟩ List.mem_cons_self
  obtain ⟨⟨definition, hdeclared⟩, _⟩ :=
    (Registry.get?_objects_of_build hbuild).mp (Registry.object_eq_ok_iff.mp hnotes)
  have hundeclared : folders.schemas.get? "Note" = none := by
    cbv
  rw [hundeclared] at hdeclared
  cases hdeclared

end Record

end Taxonomy
