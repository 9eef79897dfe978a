import Mathlib.Data.List.Nodup
import Taxonomy.Proofs.NameMap
import Taxonomy.Proofs.Text.ByteOrder
import Taxonomy.Usage

/-!
# The usage index

An index is made by adding the relations of a document one at a time. Each addition keeps
the relations of a target under that target, in order and without repeats; hence the finished index
lists every relation of the document once, and its order does not depend on the order of the
additions.
-/

namespace Taxonomy

namespace UsageRelation

variable {a b c r x : UsageRelation} {rs : List UsageRelation}

theorem isBefore_iff :
    a.isBefore b = true ↔ Text.before a.owner b.owner = true ∨ a.owner = b.owner ∧
      (Text.before a.target b.target = true ∨ a.target = b.target ∧
        Text.before a.property b.property = true) := by
  simp [isBefore]

theorem isBefore_trans (hab : a.isBefore b = true) (hbc : b.isBefore c = true) :
    a.isBefore c = true := by
  rw [isBefore_iff] at *
  rcases hab with hab | ⟨howner, hab⟩
  · rcases hbc with hbc | ⟨howner, _⟩
    · exact .inl (Text.before_trans hab hbc)
    · exact .inl (howner ▸ hab)
  · rw [howner]
    refine hbc.imp_right fun ⟨howner, hbc⟩ => ⟨howner, ?_⟩
    rcases hab with hab | ⟨htarget, hab⟩
    · rcases hbc with hbc | ⟨htarget, _⟩
      · exact .inl (Text.before_trans hab hbc)
      · exact .inl (htarget ▸ hab)
    · rw [htarget]
      exact hbc.imp_right fun ⟨htarget, hbc⟩ => ⟨htarget, Text.before_trans hab hbc⟩

theorem isBefore_total (h : a ≠ b) : a.isBefore b = true ∨ b.isBefore a = true := by
  rw [isBefore_iff, isBefore_iff]
  by_cases howner : a.owner = b.owner
  · by_cases htarget : a.target = b.target
    · have hproperty : a.property ≠ b.property := by
        intro hproperty
        cases a
        cases b
        simp_all
      exact (Text.before_total hproperty).imp
        (fun h => .inr ⟨howner, .inr ⟨htarget, h⟩⟩)
        (fun h => .inr ⟨howner.symm, .inr ⟨htarget.symm, h⟩⟩)
    · exact (Text.before_total htarget).imp
        (fun h => .inr ⟨howner, .inl h⟩) (fun h => .inr ⟨howner.symm, .inl h⟩)
  · exact (Text.before_total howner).imp .inl .inl

theorem mem_insertInto : x ∈ r.insertInto rs ↔ x = r ∨ x ∈ rs := by
  induction rs with
  | nil => simp [insertInto]
  | cons other rest ih =>
      rw [insertInto]
      split
      · rename_i hsame
        simp [hsame]
      · split
        · exact List.mem_cons
        · rw [List.mem_cons, ih, List.mem_cons]
          exact or_left_comm

/-- A relation is put in its place. -/
theorem pairwise_insertInto (h : rs.Pairwise (fun a b => a.isBefore b = true)) :
    (r.insertInto rs).Pairwise (fun a b => a.isBefore b = true) := by
  induction rs with
  | nil => exact List.pairwise_singleton _ _
  | cons other rest ih =>
      obtain ⟨hother, hrest⟩ := List.pairwise_cons.mp h
      rw [insertInto]
      split
      · exact h
      · rename_i hne
        split
        · rename_i hbefore
          refine List.pairwise_cons.mpr ⟨?_, h⟩
          exact List.forall_mem_cons.mpr
            ⟨hbefore, fun x hx => isBefore_trans hbefore (hother x hx)⟩
        · rename_i hnot
          refine List.pairwise_cons.mpr ⟨?_, ih hrest⟩
          intro x hx
          rcases mem_insertInto.mp hx with rfl | hx
          · exact (isBefore_total hne).resolve_left hnot
          · exact hother x hx

/-- One relation is listed before another: by target, then owner, then property, each by its
bytes. -/
def Precedes (a b : UsageRelation) : Prop :=
  Text.bytes a.target < Text.bytes b.target ∨ a.target = b.target ∧
    (Text.bytes a.owner < Text.bytes b.owner ∨ a.owner = b.owner ∧
      Text.bytes a.property < Text.bytes b.property)

theorem not_precedes_self (a : UsageRelation) : ¬ a.Precedes a := by
  simp [Precedes]

/-- Under one target the two orders are the same. -/
theorem precedes_of_isBefore (htarget : a.target = b.target) (h : a.isBefore b = true) :
    a.Precedes b := by
  simp only [isBefore_iff, Text.before_iff_bytes_lt] at h
  refine .inr ⟨htarget, h.imp_right fun ⟨howner, h⟩ => ⟨howner, ?_⟩⟩
  rcases h with h | ⟨_, hproperty⟩
  · rw [htarget] at h
    exact absurd h (List.lt_irrefl _)
  · exact hproperty

end UsageRelation

namespace UsageIndex

variable {index : UsageIndex} {r x : UsageRelation} {rs : List UsageRelation}
variable {target name : String}

theorem relationsOf_add :
    (index.add r).relationsOf target =
      if r.target = target then r.insertInto (index.relationsOf target)
      else index.relationsOf target := by
  rw [relationsOf, add, NameMap.alter, NameMap.get?_insert]
  split
  · rename_i htarget
    rw [htarget]
    rfl
  · rfl

theorem mem_relationsOf_add :
    x ∈ (index.add r).relationsOf target ↔
      x = r ∧ r.target = target ∨ x ∈ index.relationsOf target := by
  rw [relationsOf_add]
  split
  · rename_i htarget
    simp [UsageRelation.mem_insertInto, htarget]
  · rename_i htarget
    simp [htarget]

/-- After a run of additions an index has the relations that were added and those it had. -/
theorem mem_relationsOf_foldl_add :
    x ∈ (rs.foldl add index).relationsOf target ↔
      x ∈ rs ∧ x.target = target ∨ x ∈ index.relationsOf target := by
  induction rs generalizing index with
  | nil => simp
  | cons r rest ih =>
      rw [List.foldl_cons, ih, mem_relationsOf_add, List.mem_cons]
      grind

/-- The relations of a target are under that target, in order and each once. -/
structure WellFormed (index : UsageIndex) : Prop where
  target_eq : ∀ target, ∀ r ∈ index.relationsOf target, r.target = target
  ordered : ∀ target,
    (index.relationsOf target).Pairwise (fun a b => a.isBefore b = true)

theorem wellFormed_empty : empty.WellFormed where
  target_eq _ _ hr := absurd hr List.not_mem_nil
  ordered _ := List.Pairwise.nil

theorem WellFormed.add (h : index.WellFormed) (r : UsageRelation) : (index.add r).WellFormed where
  target_eq target x hx := by
    rcases mem_relationsOf_add.mp hx with ⟨rfl, htarget⟩ | hx
    · exact htarget
    · exact h.target_eq target x hx
  ordered target := by
    rw [relationsOf_add]
    split
    · exact UsageRelation.pairwise_insertInto (h.ordered target)
    · exact h.ordered target

theorem WellFormed.foldl_add (h : index.WellFormed) (rs : List UsageRelation) :
    (rs.foldl UsageIndex.add index).WellFormed := by
  induction rs generalizing index with
  | nil => exact h
  | cons r rest ih => exact ih (h.add r)

theorem wellFormed_build (s : Store) : (build s).WellFormed :=
  wellFormed_empty.foldl_add _

theorem relationsOf_of_mem_entries {entry : String × List UsageRelation}
    (h : entry ∈ index.byTarget.entries) : index.relationsOf entry.1 = entry.2 := by
  rw [relationsOf, NameMap.get?_eq_some_iff.mpr h]
  rfl

/-- All relations are those of every target. -/
theorem WellFormed.mem_relations_iff (h : index.WellFormed) :
    x ∈ index.relations ↔ x ∈ index.relationsOf x.target := by
  rw [relations, List.mem_flatMap]
  constructor
  · rintro ⟨entry, hentry, hx⟩
    rw [← relationsOf_of_mem_entries hentry] at hx
    rwa [h.target_eq entry.1 x hx]
  · intro hx
    cases hfound : index.byTarget.get? x.target with
    | none =>
        rw [relationsOf, hfound] at hx
        cases hx
    | some rs =>
        rw [relationsOf, hfound] at hx
        exact ⟨(x.target, rs), NameMap.get?_eq_some_iff.mp hfound, hx⟩

/-- All relations are listed in strict order. -/
theorem WellFormed.pairwise_relations (h : index.WellFormed) :
    index.relations.Pairwise UsageRelation.Precedes := by
  rw [relations, List.pairwise_flatMap]
  constructor
  -- Within a target owner and property decide, across targets the order of the map.
  · intro entry hentry
    rw [← relationsOf_of_mem_entries hentry]
    refine (h.ordered entry.1).imp_of_mem fun ha hb => UsageRelation.precedes_of_isBefore ?_
    rw [h.target_eq _ _ ha, h.target_eq _ _ hb]
  · refine index.byTarget.ascending.imp_of_mem fun ha hb hbefore x hx y hy => .inl ?_
    rw [← relationsOf_of_mem_entries ha] at hx
    rw [← relationsOf_of_mem_entries hb] at hy
    rw [h.target_eq _ _ hx, h.target_eq _ _ hy]
    exact Text.before_iff_bytes_lt.mp hbefore

theorem WellFormed.nodup_relations (h : index.WellFormed) : index.relations.Nodup :=
  h.pairwise_relations.imp fun hprecedes hsame => by
    subst hsame
    exact UsageRelation.not_precedes_self _ hprecedes

/-- The names that are put into a map one at a time are in it afterwards. -/
theorem mem_names_foldl_insert {m : NameMap Unit} :
    name ∈ (rs.foldl (fun names r => names.insert r.owner ()) m).names ↔
      (∃ r ∈ rs, r.owner = name) ∨ name ∈ m.names := by
  induction rs generalizing m with
  | nil => simp
  | cons r rest ih =>
      rw [List.foldl_cons, ih, NameMap.mem_names_insert]
      grind

theorem mem_ownersOf :
    name ∈ index.ownersOf target ↔ ∃ r ∈ index.relationsOf target, r.owner = name := by
  rw [ownersOf, mem_names_foldl_insert]
  exact or_iff_left List.not_mem_nil

/-- The owners are listed in ascending order. -/
theorem pairwise_ownersOf (index : UsageIndex) (target : String) :
    (index.ownersOf target).Pairwise (fun a b => Text.before a b = true) :=
  NameMap.pairwise_names _

end UsageIndex

namespace Store

variable {s : Store} {x : UsageRelation} {target name : String}

/-- The owner is an object that holds items of the target in the property. -/
def Holds (s : Store) (r : UsageRelation) : Prop :=
  ∃ definition, s.schemas.get? r.owner = some (.object definition) ∧
    (r.property, r.target) ∈ s.arrayProperties definition

/-- The object holds items of the target in some property. -/
def Uses (s : Store) (target name : String) : Prop :=
  ∃ property, s.Holds ⟨name, target, property⟩

/-- The index of a document has the relations that hold in it. -/
theorem mem_relationsOf_build :
    x ∈ (UsageIndex.build s).relationsOf target ↔ s.Holds x ∧ x.target = target := by
  have hadded : x ∈ s.schemas.entries.flatMap (fun e => UsageIndex.relationsFrom s e.1 e.2) ↔
      s.Holds x := by
    rw [List.mem_flatMap]
    constructor
    · rintro ⟨⟨owner, definition⟩, hentry, hx⟩
      cases definition with
      | object definition =>
          obtain ⟨⟨property, items⟩, hproperty, rfl⟩ := List.mem_map.mp hx
          exact ⟨definition, NameMap.get?_eq_some_iff.mpr hentry, hproperty⟩
      | element | array | unrecognized => cases hx
    · rintro ⟨definition, hdeclared, hproperty⟩
      exact ⟨_, NameMap.get?_eq_some_iff.mp hdeclared, List.mem_map.mpr ⟨_, hproperty, rfl⟩⟩
  rw [UsageIndex.build, UsageIndex.mem_relationsOf_foldl_add, hadded]
  exact or_iff_left List.not_mem_nil

theorem mem_relations_build : x ∈ (UsageIndex.build s).relations ↔ s.Holds x := by
  rw [(UsageIndex.wellFormed_build s).mem_relations_iff, mem_relationsOf_build]
  exact and_iff_left rfl

theorem mem_ownersOf_build :
    name ∈ (UsageIndex.build s).ownersOf target ↔ s.Uses target name := by
  rw [UsageIndex.mem_ownersOf]
  constructor
  · rintro ⟨⟨owner, items, property⟩, hr, rfl⟩
    obtain ⟨hholds, rfl⟩ := mem_relationsOf_build.mp hr
    exact ⟨property, hholds⟩
  · rintro ⟨property, hholds⟩
    exact ⟨_, mem_relationsOf_build.mpr ⟨hholds, rfl⟩, rfl⟩

end Store

end Taxonomy
