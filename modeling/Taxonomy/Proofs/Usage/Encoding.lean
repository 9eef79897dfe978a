import Taxonomy.Proofs.Json.Record
import Taxonomy.Proofs.Usage.Index

/-!
# The usage index read back from JSON

An index is written as an object with a list of relations for every target. The reader puts the
relations of a target in order and drops repeats, so what it reads is the index that was written as
long as that index kept its relations in order, each once.
-/

namespace Taxonomy

open Json (Exact)

variable {depth : Nat}

namespace UsageRelation

variable {r : UsageRelation} {rs kept : List UsageRelation}

theorem decode?_encode (r : UsageRelation) : decode? r.encode = some r := rfl

theorem exact_encode (r : UsageRelation) : Exact (depth + 1) r.encode := by
  refine .obj (by simp [Entries.Distinct]) ?_
  simp [Exact.str]

theorem not_isBefore_self (r : UsageRelation) : r.isBefore r = false := by
  simp [isBefore, Text.before_irrefl]

/-- A relation after all others is put at the end. -/
theorem insertInto_of_forall_isBefore (h : ∀ other ∈ rs, other.isBefore r = true) :
    r.insertInto rs = rs ++ [r] := by
  induction rs with
  | nil => rfl
  | cons other rest ih =>
      obtain ⟨hother, hrest⟩ := List.forall_mem_cons.mp h
      have hne : r ≠ other := by
        rintro rfl
        rw [not_isBefore_self] at hother
        cases hother
      have hafter : ¬ r.isBefore other = true := by
        intro hbefore
        have hself := isBefore_trans hbefore hother
        rw [not_isBefore_self] at hself
        cases hself
      rw [insertInto, if_neg hne, if_neg hafter, ih hrest, List.cons_append]

/-- Relations that are in order are read in this order. -/
theorem foldl_insertInto (h : (kept ++ rs).Pairwise (fun a b => a.isBefore b = true)) :
    rs.foldl (fun ordered r => r.insertInto ordered) kept = kept ++ rs := by
  induction rs generalizing kept with
  | nil => simp
  | cons r rest ih =>
      have hlast : ∀ other ∈ kept, other.isBefore r = true := fun other hother =>
        (List.pairwise_append.mp h).2.2 other hother r List.mem_cons_self
      rw [List.append_cons] at h
      rw [List.foldl_cons, insertInto_of_forall_isBefore hlast, ih h, ← List.append_cons]

end UsageRelation

namespace UsageIndex

variable {index : UsageIndex} {rs : List UsageRelation}

theorem decodeRelations?_encode (h : rs.Pairwise (fun a b => a.isBefore b = true)) :
    decodeRelations? (.arr (rs.map UsageRelation.encode)) = some rs := by
  have hlist : Json.asListOf? UsageRelation.decode? (.arr (rs.map UsageRelation.encode)) = some rs :=
    Json.asListOf?_map fun r _ => r.decode?_encode
  have hordered : rs.foldl (fun ordered r => r.insertInto ordered) [] = rs := by
    rw [UsageRelation.foldl_insertInto (by rwa [List.nil_append]), List.nil_append]
  rw [decodeRelations?, hlist, Option.map_some, hordered]

/-- The members of the targets. -/
def targetMembers (index : UsageIndex) : List (String × Json) :=
  index.byTarget.entries.map (fun e => (e.1, .arr (e.2.map UsageRelation.encode)))

theorem decodeTargets?_encode (h : index.WellFormed) :
    decodeTargets? (.obj index.targetMembers) = some index.byTarget := by
  have hmembers : index.targetMembers.mapM
      (fun m => (decodeRelations? m.2).map (fun rs => (m.1, rs))) = some index.byTarget.entries := by
    refine Json.mapM_map fun e he => ?_
    have hordered := h.ordered e.1
    rw [relationsOf_of_mem_entries he] at hordered
    rw [decodeRelations?_encode hordered, Option.map_some]
  rw [decodeTargets?, hmembers]
  exact congrArg some (NameMap.ofList_entries index.byTarget)

theorem decode?_encode (h : index.WellFormed) : decode? index.encode = some index := by
  have htargets := decodeTargets?_encode h
  rw [targetMembers] at htargets
  simp [decode?, encode, Json.Record.ofJson?, Json.Record.required?, Entries.lookup_cons, htargets]

theorem exact_encode (index : UsageIndex) : Exact (depth + 4) index.encode := by
  have hdistinct : Entries.Distinct index.targetMembers := by
    rw [Entries.Distinct, targetMembers, List.map_map]
    exact index.byTarget.distinct_entries
  have htargets : Exact (depth + 3) (.obj index.targetMembers) := by
    refine .obj hdistinct (List.forall_mem_map.mpr fun e _ => ?_)
    exact Json.exact_arr_map fun r _ => r.exact_encode
  refine .obj (by simp [Entries.Distinct]) ?_
  rw [List.forall_mem_singleton]
  exact htargets

end UsageIndex

end Taxonomy
