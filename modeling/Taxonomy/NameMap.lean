import Taxonomy.Entries
import Taxonomy.Text.Order

/-!
# Maps from names

A map whose entries are kept strictly ascending by name. A name has at most one entry, the
listing of a map is in name order, and two maps that answer every lookup alike are equal.
-/

namespace Taxonomy

open Text (before)

/-- Entries strictly ascending by name. -/
def Ascending (entries : List (String × α)) : Prop :=
  entries.Pairwise (fun a b => before a.1 b.1 = true)

/-- A finite map from names to values. -/
structure NameMap (α : Type u) where
  entries : List (String × α)
  ascending : Ascending entries

namespace NameMap

/-- Put one entry in its place, replacing an entry of the same name. -/
def insertEntry (name : String) (value : α) : List (String × α) → List (String × α)
  | [] => [(name, value)]
  | (other, kept) :: rest =>
    if name = other then (name, value) :: rest
    else if before name other then (name, value) :: (other, kept) :: rest
    else (other, kept) :: insertEntry name value rest

theorem mem_insertEntry {name : String} {value : α} {e : String × α} {entries : List (String × α)}
    (h : e ∈ insertEntry name value entries) : e = (name, value) ∨ e ∈ entries := by
  induction entries with
  | nil => simpa [insertEntry] using h
  | cons head rest ih =>
    obtain ⟨other, kept⟩ := head
    simp only [insertEntry] at h
    split at h
    · rcases List.mem_cons.mp h with h | h
      · exact .inl h
      · exact .inr (List.mem_cons_of_mem _ h)
    · split at h
      · rcases List.mem_cons.mp h with h | h
        · exact .inl h
        · exact .inr h
      · rcases List.mem_cons.mp h with h | h
        · exact .inr (h ▸ List.mem_cons_self)
        · rcases ih h with h | h
          · exact .inl h
          · exact .inr (List.mem_cons_of_mem _ h)

theorem ascending_insertEntry {entries : List (String × α)} (h : Ascending entries)
    (name : String) (value : α) : Ascending (insertEntry name value entries) := by
  induction entries with
  | nil => simp [insertEntry, Ascending]
  | cons head rest ih =>
    obtain ⟨other, kept⟩ := head
    obtain ⟨hhead, hrest⟩ := List.pairwise_cons.mp h
    simp only [insertEntry]
    split
    · rename_i heq
      subst heq
      exact List.pairwise_cons.mpr ⟨hhead, hrest⟩
    · rename_i hne
      split
      · rename_i hbefore
        refine List.pairwise_cons.mpr ⟨?_, h⟩
        intro e he
        rcases List.mem_cons.mp he with he | he
        · exact he ▸ hbefore
        · exact Text.before_trans hbefore (hhead e he)
      · rename_i hnot
        refine List.pairwise_cons.mpr ⟨?_, ih hrest⟩
        intro e he
        rcases mem_insertEntry he with he | he
        · subst he
          exact (Text.before_total hne).resolve_left hnot
        · exact hhead e he

def empty : NameMap α := ⟨[], List.Pairwise.nil⟩

instance : EmptyCollection (NameMap α) := ⟨empty⟩
instance : Inhabited (NameMap α) := ⟨empty⟩

instance [DecidableEq α] : DecidableEq (NameMap α) := fun a b =>
  if h : a.entries = b.entries then
    isTrue (by cases a; cases b; cases h; rfl)
  else isFalse (fun hab => h (hab ▸ rfl))

/-- The value of a name. -/
def get? (m : NameMap α) (name : String) : Option α :=
  Entries.lookup name m.entries

def contains (m : NameMap α) (name : String) : Bool :=
  (m.get? name).isSome

/-- Give a name a value, replacing the one it had. -/
def insert (m : NameMap α) (name : String) (value : α) : NameMap α :=
  ⟨insertEntry name value m.entries, ascending_insertEntry m.ascending name value⟩

/-- Replace the value of a name by one computed from it. -/
def alter (m : NameMap α) (name : String) (change : Option α → α) : NameMap α :=
  m.insert name (change (m.get? name))

/-- The map of a list of entries. The first entry of a name counts. -/
def ofList (entries : List (String × α)) : NameMap α :=
  entries.foldr (fun e m => m.insert e.1 e.2) empty

def names (m : NameMap α) : List String :=
  m.entries.map (·.1)

def size (m : NameMap α) : Nat :=
  m.entries.length

def isEmpty (m : NameMap α) : Bool :=
  m.entries.isEmpty

/-- Change every value by a function of its name and itself. -/
def mapWithName (f : String → α → β) (m : NameMap α) : NameMap β :=
  ⟨m.entries.map (fun e => (e.1, f e.1 e.2)),
    List.pairwise_map.mpr (m.ascending.imp (fun h => h))⟩

/-- The entries whose name passes a test. -/
def filterNames (p : String → Bool) (m : NameMap α) : NameMap α :=
  ⟨m.entries.filter (fun e => p e.1), m.ascending.filter _⟩

@[simp] theorem get?_empty (name : String) : (empty : NameMap α).get? name = none := rfl

theorem lookup_insertEntry (name other : String) (value : α) (entries : List (String × α)) :
    Entries.lookup other (insertEntry name value entries) =
      if name = other then some value else Entries.lookup other entries := by
  induction entries with
  | nil => rfl
  | cons head rest ih =>
    obtain ⟨first, kept⟩ := head
    simp only [insertEntry]
    split
    · rename_i heq
      subst heq
      by_cases h : name = other <;> simp [Entries.lookup_cons, h]
    · rename_i hne
      split
      · rfl
      · simp only [Entries.lookup_cons, ih]
        by_cases h : first = other
        · subst h
          simp [hne]
        · simp [h]

theorem get?_insert (m : NameMap α) (name other : String) (value : α) :
    (m.insert name value).get? other = if name = other then some value else m.get? other :=
  lookup_insertEntry name other value m.entries

theorem get?_ofList (entries : List (String × α)) (name : String) :
    (ofList entries).get? name = Entries.lookup name entries := by
  induction entries with
  | nil => rfl
  | cons head rest ih =>
    obtain ⟨first, value⟩ := head
    have hstep : ofList ((first, value) :: rest) = (ofList rest).insert first value := rfl
    rw [hstep, get?_insert, ih]
    rfl

end NameMap

end Taxonomy
