/-!
# Named entries in written order

The members of an object keep the order in which they were written. Looking a name up finds
its first entry; setting a name replaces its value where it stands, or adds it at the end.
-/

namespace Taxonomy.Entries

/-- The value of the first entry of a name. -/
def lookup (name : String) : List (String × α) → Option α
  | [] => none
  | (other, value) :: rest => if other = name then some value else lookup name rest

/-- Give a name a value, at its old place if it has one and at the end otherwise. -/
def set (name : String) (value : α) : List (String × α) → List (String × α)
  | [] => [(name, value)]
  | (other, kept) :: rest =>
    if other = name then (name, value) :: rest else (other, kept) :: set name value rest

/-- No name has two entries. -/
def Distinct (entries : List (String × α)) : Prop :=
  (entries.map (·.1)).Nodup

@[simp] theorem lookup_nil (name : String) : lookup name ([] : List (String × α)) = none := rfl

theorem lookup_cons (name other : String) (value : α) (rest : List (String × α)) :
    lookup name ((other, value) :: rest) =
      if other = name then some value else lookup name rest := rfl

theorem lookup_set (name other : String) (value : α) (entries : List (String × α)) :
    lookup other (set name value entries) =
      if name = other then some value else lookup other entries := by
  induction entries with
  | nil => rfl
  | cons head rest ih =>
    obtain ⟨first, kept⟩ := head
    simp only [set]
    split
    · rename_i heq
      subst heq
      by_cases h : first = other <;> simp [lookup_cons, h]
    · rename_i hne
      simp only [lookup_cons, ih]
      by_cases h : first = other
      · subst h
        simp [Ne.symm hne]
      · simp [h]

theorem mem_of_lookup {name : String} {value : α} {entries : List (String × α)}
    (h : lookup name entries = some value) : (name, value) ∈ entries := by
  induction entries with
  | nil => simp at h
  | cons head rest ih =>
    obtain ⟨first, kept⟩ := head
    simp only [lookup_cons] at h
    split at h
    · rename_i heq
      cases h
      exact heq ▸ List.mem_cons_self
    · exact List.mem_cons_of_mem _ (ih h)

end Taxonomy.Entries
