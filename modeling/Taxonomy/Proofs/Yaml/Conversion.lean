import Mathlib.Data.List.Forall2
import Taxonomy.Proofs.NameMap
import Taxonomy.Proofs.Outcome
import Taxonomy.Yaml.Value

/-!
# Conversion of collections

A sequence is converted item by item and a mapping entry by entry. The conversion succeeds if it
succeeds for each part, and what the parts become is then put together: the items in a list, the
named values one after the other into the members of one object.
-/

namespace Taxonomy.Yaml.Value

variable {items : List Value} {js : List Json} {entries : List (Value × Value)}
variable {kept members : List (String × Json)}

/-- The items of a sequence become the items of an array. -/
theorem itemsToJson_eq_ok_iff :
    itemsToJson items = .ok js ↔ List.Forall₂ (fun y j => toJson y = .ok j) items js := by
  induction items generalizing js with
  | nil => simp [itemsToJson, eq_comm]
  | cons item rest ih =>
      rw [itemsToJson, List.forall₂_cons_left_iff, Except.bind_eq_ok_iff]
      constructor
      · rintro ⟨j, hitem, h⟩
        obtain ⟨js', hrest, h⟩ := Except.bind_eq_ok_iff.mp h
        exact ⟨j, js', hitem, ih.mp hrest, (Except.ok.inj h).symm⟩
      · rintro ⟨j, js', hitem, hrest, rfl⟩
        exact ⟨j, hitem, Except.bind_eq_ok_iff.mpr ⟨js', ih.mpr hrest, rfl⟩⟩

/-- The entry of a mapping has this name and this value in JSON form. -/
def Names (entry : Value × Value) (named : String × Json) : Prop :=
  keyText entry.1 = .ok named.1 ∧ toJson entry.2 = .ok named.2

/-- Named values are members one after the other. -/
def gather (named kept : List (String × Json)) : List (String × Json) :=
  named.foldl (fun members e => Entries.set e.1 e.2 members) kept

/-- The entries of a mapping become named values, which are added to the members before. -/
theorem entriesToJson_eq_ok_iff : entriesToJson kept entries = .ok members ↔
    ∃ named, List.Forall₂ Names entries named ∧ members = gather named kept := by
  induction entries generalizing kept with
  | nil => simp [entriesToJson, gather, eq_comm]
  | cons entry rest ih =>
      obtain ⟨key, value⟩ := entry
      simp only [entriesToJson, Except.bind_eq_ok_iff, ih]
      constructor
      · rintro ⟨name, hname, j, hvalue, named, hnamed, rfl⟩
        exact ⟨(name, j) :: named, .cons ⟨hname, hvalue⟩ hnamed, rfl⟩
      · rintro ⟨named, hnamed, rfl⟩
        cases hnamed with
        | @cons _ head _ named hhead hrest =>
            exact ⟨head.1, hhead.1, head.2, hhead.2, named, hrest, rfl⟩

theorem toJson_seq_eq_ok_iff {j : Json} : toJson (.seq items) = .ok j ↔
    ∃ js, List.Forall₂ (fun y j => toJson y = .ok j) items js ∧ j = .arr js := by
  rw [toJson, Except.bind_eq_ok_iff]
  constructor
  · rintro ⟨js, hjs, h⟩
    exact ⟨js, itemsToJson_eq_ok_iff.mp hjs, (Except.ok.inj h).symm⟩
  · rintro ⟨js, hjs, rfl⟩
    exact ⟨js, itemsToJson_eq_ok_iff.mpr hjs, rfl⟩

theorem toJson_map_eq_ok_iff {j : Json} : toJson (.map entries) = .ok j ↔
    ∃ named, List.Forall₂ Names entries named ∧ j = .obj (gather named []) := by
  rw [toJson, Except.bind_eq_ok_iff]
  constructor
  · rintro ⟨members, hmembers, h⟩
    obtain ⟨named, hnamed, rfl⟩ := entriesToJson_eq_ok_iff.mp hmembers
    exact ⟨named, hnamed, (Except.ok.inj h).symm⟩
  · rintro ⟨named, hnamed, rfl⟩
    exact ⟨_, entriesToJson_eq_ok_iff.mpr ⟨named, hnamed, rfl⟩, rfl⟩

/-! ### The members of an object -/

/-- Distinct names are the names of the members in their order. -/
theorem gather_of_distinct {named : List (String × Json)} (h : Entries.Distinct named) :
    gather named [] = named :=
  Entries.foldl_set_of_distinct h

theorem distinct_gather (named : List (String × Json)) (h : Entries.Distinct kept) :
    Entries.Distinct (gather named kept) := by
  induction named generalizing kept with
  | nil => exact h
  | cons head rest ih => exact ih (h.set head.1 head.2)

/-- The last value of a name counts. -/
theorem lookup_gather (name : String) (named kept : List (String × Json)) :
    Entries.lookup name (gather named kept) =
      (Entries.lookup name named.reverse).or (Entries.lookup name kept) := by
  induction named generalizing kept with
  | nil => rfl
  | cons head rest ih =>
      have hstep : gather (head :: rest) kept = gather rest (Entries.set head.1 head.2 kept) := rfl
      rw [hstep, ih, Entries.lookup_set, List.reverse_cons, Entries.lookup_append, Option.or_assoc]
      congr 1
      rw [Entries.lookup_cons, Entries.lookup_nil]
      by_cases hname : head.1 = name
      · rw [if_pos hname, if_pos hname, Option.some_or]
      · rw [if_neg hname, if_neg hname, Option.none_or]

/-- New names stand behind the names before, each where it is first given. -/
theorem names_gather (named kept : List (String × Json)) :
    (gather named kept).map (·.1) = kept.map (·.1) ++
      ((named.map (·.1)).filter (fun name => !(kept.map (·.1)).contains name)).eraseDups := by
  induction named generalizing kept with
  | nil => simp [gather]
  | cons head rest ih =>
      have hstep : gather (head :: rest) kept = gather rest (Entries.set head.1 head.2 kept) := rfl
      rw [hstep, ih, Entries.names_set, List.map_cons]
      by_cases hmem : head.1 ∈ kept.map (·.1)
      · have hknown : (!(kept.map (·.1)).contains head.1) = false := by simpa using hmem
        rw [if_pos hmem, List.filter_cons, hknown, if_neg Bool.false_ne_true]
      · have hnew : (!(kept.map (·.1)).contains head.1) = true := by simpa using hmem
        rw [if_neg hmem, List.filter_cons, hnew, if_pos rfl, List.eraseDups_cons, List.append_assoc,
          List.singleton_append, List.filter_filter]
        congr 4
        funext name
        rw [List.contains_append, Bool.not_or, Bool.and_comm, List.contains_cons,
          List.contains_nil, Bool.or_false]

end Taxonomy.Yaml.Value
