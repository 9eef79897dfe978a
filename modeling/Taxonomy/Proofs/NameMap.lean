import Taxonomy.NameMap

/-!
# Entries of a map

A map answers a name with the value of the entry that carries the name, and there is at most
one such entry.
-/

namespace Taxonomy

namespace Entries

variable {α : Type u} {name : String} {value : α} {entries : List (String × α)}

instance (entries : List (String × α)) : Decidable (Distinct entries) :=
  inferInstanceAs (Decidable (entries.map (·.1)).Nodup)

/-- Among entries with distinct names every entry is found under its name. -/
theorem lookup_of_mem (hdistinct : Distinct entries) (h : (name, value) ∈ entries) :
    lookup name entries = some value := by
  induction entries with
  | nil => cases h
  | cons head rest ih =>
      obtain ⟨other, kept⟩ := head
      obtain ⟨hother, hrest⟩ := List.nodup_cons.mp hdistinct
      rw [lookup_cons]
      rcases List.mem_cons.mp h with hhead | hmem
      · cases hhead
        rw [if_pos rfl]
      · have hne : other ≠ name := by
          rintro rfl
          exact hother (List.mem_map.mpr ⟨_, hmem, rfl⟩)
        rw [if_neg hne, ih hrest hmem]

theorem lookup_eq_none_iff : lookup name entries = none ↔ ∀ e ∈ entries, e.1 ≠ name := by
  induction entries with
  | nil => simp
  | cons head rest ih =>
      obtain ⟨other, kept⟩ := head
      by_cases hsame : other = name <;> simp [lookup_cons, hsame, ih]

/-- Where the entries of one name, and no others, are given another name, they are found under that
name; their values may change with their names. -/
theorem lookup_rename {β : Type v} {old : String} (rename : String → String)
    (f : String → α → β) (h : ∀ e ∈ entries, rename e.1 = name ↔ e.1 = old) :
    lookup name (entries.map fun e => (rename e.1, f e.1 e.2)) =
      (lookup old entries).map (f old) := by
  induction entries with
  | nil => rfl
  | cons head rest ih =>
      obtain ⟨other, kept⟩ := head
      obtain ⟨hhead, hrest⟩ := List.forall_mem_cons.mp h
      rw [List.map_cons, lookup_cons, lookup_cons, ih hrest]
      by_cases hsame : other = old
      · rw [if_pos hsame, if_pos (hhead.mpr hsame), Option.map_some, hsame]
      · rw [if_neg hsame, if_neg fun hname => hsame (hhead.mp hname)]

/-- A value that is changed in its place is found changed. -/
theorem lookup_map {β : Type v} (f : String → α → β) (name : String) (entries : List (String × α)) :
    lookup name (entries.map fun e => (e.1, f e.1 e.2)) = (lookup name entries).map (f name) :=
  lookup_rename id f fun _ _ => Iff.rfl

theorem lookup_append (name : String) (entries entries' : List (String × α)) :
    lookup name (entries ++ entries') = (lookup name entries).or (lookup name entries') := by
  induction entries with
  | nil => rfl
  | cons head rest ih =>
      obtain ⟨other, kept⟩ := head
      rw [List.cons_append, lookup_cons, lookup_cons, ih]
      by_cases hsame : other = name
      · rw [if_pos hsame, if_pos hsame, Option.some_or]
      · rw [if_neg hsame, if_neg hsame]

/-- The order of entries with distinct names does not matter. -/
theorem lookup_perm {entries' : List (String × α)} (hdistinct : Distinct entries)
    (hperm : entries.Perm entries') (name : String) :
    lookup name entries = lookup name entries' := by
  have hdistinct' : Distinct entries' := (hperm.map Prod.fst).nodup hdistinct
  refine Option.ext fun value => ⟨fun h => ?_, fun h => ?_⟩
  · exact lookup_of_mem hdistinct' (hperm.mem_iff.mp (mem_of_lookup h))
  · exact lookup_of_mem hdistinct (hperm.mem_iff.mpr (mem_of_lookup h))

/-- A name without an entry gets one at the end. -/
theorem set_of_not_mem (value : α) (h : name ∉ entries.map (·.1)) :
    set name value entries = entries ++ [(name, value)] := by
  induction entries with
  | nil => rfl
  | cons head rest ih =>
      obtain ⟨other, kept⟩ := head
      rw [List.map_cons, List.mem_cons, not_or] at h
      rw [set, if_neg (Ne.symm h.1), ih h.2, List.cons_append]

/-- The names stay in their order; a new one stands at the end. -/
theorem names_set (name : String) (value : α) (entries : List (String × α)) :
    (set name value entries).map (·.1) =
      if name ∈ entries.map (·.1) then entries.map (·.1) else entries.map (·.1) ++ [name] := by
  induction entries with
  | nil => rfl
  | cons head rest ih =>
      obtain ⟨other, kept⟩ := head
      rw [set]
      by_cases hsame : other = name
      · subst hsame
        simp
      · rw [if_neg hsame, List.map_cons, ih]
        by_cases hmem : name ∈ rest.map (·.1)
        · simp [hmem]
        · simp [hmem, Ne.symm hsame]

theorem Distinct.set (h : Distinct entries) (name : String) (value : α) :
    Distinct (set name value entries) := by
  rw [Distinct, names_set]
  split
  · exact h
  · rename_i hnew
    exact List.nodup_append.mpr ⟨h, List.pairwise_singleton _ name, fun other hother name' hname' heq =>
      hnew (List.mem_singleton.mp hname' ▸ heq ▸ hother)⟩

/-- Entries with new and distinct names are added in their order. -/
theorem foldl_set_append {kept : List (String × α)} (h : Distinct (kept ++ entries)) :
    entries.foldl (fun members e => set e.1 e.2 members) kept = kept ++ entries := by
  induction entries generalizing kept with
  | nil => simp
  | cons head rest ih =>
      have hnew : head.1 ∉ kept.map (·.1) := by
        rw [Distinct, List.map_append, List.nodup_append] at h
        intro hmem
        exact h.2.2 _ hmem _ List.mem_cons_self rfl
      rw [List.append_cons] at h
      rw [List.foldl_cons, set_of_not_mem _ hnew, ih h, ← List.append_cons]

/-- Entries with distinct names stay as they are when they are set one after the other. -/
theorem foldl_set_of_distinct (h : Distinct entries) :
    entries.foldl (fun members e => set e.1 e.2 members) [] = entries := by
  rw [foldl_set_append (by rwa [List.nil_append]), List.nil_append]

end Entries

namespace NameMap

variable {α : Type u} {m : NameMap α} {name : String} {value : α}

theorem distinct_entries (m : NameMap α) : Entries.Distinct m.entries :=
  List.pairwise_map.mpr (m.ascending.imp fun h => Text.ne_of_before h)

theorem get?_eq_some_iff : m.get? name = some value ↔ (name, value) ∈ m.entries :=
  ⟨Entries.mem_of_lookup, Entries.lookup_of_mem m.distinct_entries⟩

/-- Maps that answer every name alike are equal. -/
theorem ext_get? {m m' : NameMap α} (h : ∀ name, m.get? name = m'.get? name) : m = m' := by
  have hmem : ∀ e : String × α, e ∈ m.entries ↔ e ∈ m'.entries := by
    rintro ⟨name, value⟩
    rw [← get?_eq_some_iff, ← get?_eq_some_iff, h]
  have hnodup : ∀ m : NameMap α, m.entries.Nodup := fun m =>
    m.ascending.imp fun hbefore heq => Text.ne_of_before hbefore (congrArg Prod.fst heq)
  have hperm : m.entries.Perm m'.entries :=
    (List.perm_ext_iff_of_nodup (hnodup m) (hnodup m')).mpr hmem
  have hentries : m.entries = m'.entries := by
    refine hperm.eq_of_pairwise (fun a b _ _ hab hba => ?_) m.ascending m'.ascending
    rw [Text.before_asymm hab] at hba
    cases hba
  cases m
  cases m'
  cases hentries
  rfl

/-- The entries of a map make the map again. -/
theorem ofList_entries (m : NameMap α) : ofList m.entries = m :=
  ext_get? fun name => get?_ofList m.entries name

theorem get?_mapWithName {β : Type v} (f : String → α → β) (m : NameMap α) (name : String) :
    (m.mapWithName f).get? name = (m.get? name).map (f name) :=
  Entries.lookup_map f name m.entries

theorem get?_filterNames (p : String → Bool) (m : NameMap α) (name : String) :
    (m.filterNames p).get? name = if p name then m.get? name else none := by
  refine Option.ext fun value => ?_
  rw [get?_eq_some_iff]
  by_cases hp : p name <;> simp [filterNames, hp, get?_eq_some_iff]

/-- Entries whose values are read alike under every name make the same map of what is read. -/
theorem mapWithName_ofList_congr {β : Type v} {f : String → α → β}
    {entries entries' : List (String × α)}
    (h : ∀ name, (Entries.lookup name entries).map (f name) =
      (Entries.lookup name entries').map (f name)) :
    (ofList entries).mapWithName f = (ofList entries').mapWithName f := by
  refine ext_get? fun name => ?_
  rw [get?_mapWithName, get?_mapWithName, get?_ofList, get?_ofList, h]

theorem mem_names_iff : name ∈ m.names ↔ ∃ value, m.get? name = some value := by
  simp [names, get?_eq_some_iff]

theorem mem_names_insert {other : String} :
    other ∈ (m.insert name value).names ↔ other = name ∨ other ∈ m.names := by
  rw [mem_names_iff, mem_names_iff, get?_insert]
  by_cases hsame : name = other
  · simp [hsame]
  · simp [hsame, Ne.symm hsame]

/-- The names are listed in ascending order. -/
theorem pairwise_names (m : NameMap α) :
    m.names.Pairwise (fun a b => Text.before a b = true) :=
  List.pairwise_map.mpr m.ascending

end NameMap

end Taxonomy
