import Taxonomy.Json.Record
import Taxonomy.Proofs.Json.Token
import Taxonomy.Proofs.NameMap

/-!
# Fields read back from a record

A record is written as an object with a member for every field that is present. Each way of reading a
field is described here by the member that it finds: a member gives the value that was written,
and where none was written the reader falls back on what counts as absent.
-/

namespace Taxonomy.Json

variable {α β : Type} {encode : α → Json} {read? : Json → Option α} {key field : String}
variable {value : Option α} {items : List α} {r : Record} {depth : Nat} {a : α}

/-- The names of the members of an object, in written order. -/
def memberNames (value : Json) : List String :=
  (value.asObject?.getD []).map (·.1)

/-! ### Members -/

theorem lookup_memberIfSome (encode : α → Json) (value : Option α) (key field : String) :
    Entries.lookup field (memberIfSome key encode value) =
      if key = field then value.map encode else none := by
  cases value <;> simp [memberIfSome, Entries.lookup_cons]

theorem lookup_memberIfAny (encode : α → Json) (items : List α) (key field : String) :
    Entries.lookup field (memberIfAny key encode items) =
      if key = field ∧ items ≠ [] then some (.arr (items.map encode)) else none := by
  cases items <;> simp [memberIfAny, Entries.lookup_cons]

/-- Fields that are each written at most once make members with distinct names. -/
theorem distinct_of_memberNames {fields : List String} {p : String → Bool}
    {members : List (String × Json)} (hfields : fields.Nodup)
    (hnames : (obj members).memberNames = fields.filter p) : Entries.Distinct members := by
  have hmembers : members.map (·.1) = fields.filter p := hnames
  rw [Entries.Distinct, hmembers]
  exact hfields.filter p

theorem exact_memberIfSome (h : ∀ a ∈ value, Exact depth (encode a)) :
    ∀ member ∈ memberIfSome key encode value, Exact depth member.2 := by
  cases value with
  | none => exact fun _ hmember => absurd hmember List.not_mem_nil
  | some a =>
      intro member hmember
      rw [memberIfSome, List.mem_singleton] at hmember
      rw [hmember]
      exact h a rfl

/-- The items of a list are one level below it. -/
theorem exact_arr_map (h : ∀ a ∈ items, Exact depth (encode a)) :
    Exact (depth + 1) (.arr (items.map encode)) :=
  .arr (List.forall_mem_map.mpr h)

theorem exact_memberIfAny (h : ∀ a ∈ items, Exact depth (encode a)) :
    ∀ member ∈ memberIfAny key encode items, Exact (depth + 1) member.2 := by
  intro member hmember
  rw [memberIfAny] at hmember
  split at hmember
  · cases hmember
  · rw [List.mem_singleton] at hmember
    rw [hmember]
    exact exact_arr_map h

/-- A length is a whole number of 64 bits. -/
theorem exact_ofNat {n : Nat} (h : n < 2 ^ 64) : Exact depth (ofNat n) :=
  .int (by omega) (by omega)

/-! ### Readers -/

/-- Values that are written and read back one by one are read back as a list. -/
theorem mapM_map {γ : Type} {write : α → γ} {read? : γ → Option α}
    (h : ∀ a ∈ items, read? (write a) = some a) : (items.map write).mapM read? = some items := by
  induction items with
  | nil => rfl
  | cons a rest ih =>
      obtain ⟨ha, hrest⟩ := List.forall_mem_cons.mp h
      rw [List.map_cons, List.mapM_cons, ha, ih hrest]
      rfl

theorem asListOf?_map (h : ∀ a ∈ items, read? (encode a) = some a) :
    asListOf? read? (.arr (items.map encode)) = some items :=
  mapM_map h

theorem asLength?_ofNat (n : Nat) : asLength? (ofNat n) = some n := by
  simp [asLength?, ofNat]

namespace Record

theorem required?_of_lookup (hlookup : Entries.lookup field r.members = some (encode a))
    (hread : read? (encode a) = some a) : r.required? field read? = some a := by
  rw [required?, hlookup, Option.bind_some, hread]

/-- A member that was written for a value that is present. It is never null, which would stand for
an absent value. -/
theorem optional?_of_lookup {f : α → α} (hnamed : r.named = true)
    (hlookup : Entries.lookup field r.members = value.map encode)
    (hnull : ∀ a, encode a ≠ .null) (hread : ∀ a ∈ value, read? (encode a) = some (f a)) :
    r.optional? field read? = some (value.map f) := by
  rw [optional?, hlookup]
  cases value with
  | none => simp [hnamed]
  | some a =>
      have hpresent := hnull a
      simp only [Option.map_some, hread a rfl]

theorem omissible?_eq_optional? (hnamed : r.named = true) :
    r.omissible? field read? = r.optional? field read? := by
  rw [omissible?, optional?]
  simp only [hnamed, if_true]

/-- A list that is written if it has items, and counts as empty if it is absent. -/
theorem defaulted?_of_lookup
    (hlookup : Entries.lookup field r.members =
      if items ≠ [] then some (.arr (items.map encode)) else none)
    (hread : ∀ a ∈ items, read? (encode a) = some a) :
    r.defaulted? field [] (asListOf? read?) = some items := by
  rw [defaulted?, hlookup]
  cases items with
  | nil => rfl
  | cons a rest => exact asListOf?_map hread

end Record

end Taxonomy.Json
