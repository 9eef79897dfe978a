import Mathlib.Data.List.Sort
import Taxonomy.CommandLine.Report
import Taxonomy.Proofs.Schema.Classify
import Taxonomy.Proofs.Usage.Index

/-!
# Scanning candidates

The owners of a target are found in two ways: by looking at candidates one after the other,
or from the index of the whole document. A scan stops at the first candidate that is not declared or
has a definition of no shape. Otherwise it answers what the index says of the candidates; elements
and arrays among them own nothing in either way.
-/

namespace Taxonomy

/-- Two ascending lists of the same names are equal. -/
theorem Text.eq_of_pairwise_before {xs ys : List String}
    (hxs : xs.Pairwise (fun a b => before a b = true))
    (hys : ys.Pairwise (fun a b => before a b = true)) (h : ∀ name, name ∈ xs ↔ name ∈ ys) :
    xs = ys := by
  have : Std.Irrefl (fun a b => before a b = true) := ⟨fun a => by simp⟩
  have : Std.Antisymm (fun a b => before a b = true) :=
    ⟨fun a b hab hba => by simp [before_asymm hab] at hba⟩
  exact hxs.eq_of_mem_iff hys h

namespace Store

variable {s : Store} {target name candidate : String} {rest candidates : List String}
variable {definition : ObjectDefinition} {fault : TaxonomyError}

/-- What is wrong with a candidate, if anything: it is not declared, or its definition has no
shape. -/
def candidateFault? (s : Store) (candidate : String) : Option TaxonomyError :=
  match s.schemas.get? candidate with
  | none => some (.unknownSchema candidate)
  | some (.unrecognized fault) => some (.malformedSchema candidate fault)
  | some _ => none

theorem candidateFault?_of_object (h : s.schemas.get? candidate = some (.object definition)) :
    s.candidateFault? candidate = none := by
  rw [candidateFault?, h]

theorem declaresObject_of_uses (h : s.Uses target name) : s.DeclaresObject name := by
  obtain ⟨_, definition, hdeclared, _⟩ := h
  exact ⟨definition, hdeclared⟩

theorem uses_iff (h : s.schemas.get? name = some (.object definition)) :
    s.Uses target name ↔ (s.arrayProperties definition).any (fun p => p.2 == target) = true := by
  simp [Uses, Holds, h]

/-- A candidate with a fault ends the scan. -/
theorem owners_cons_of_fault (h : s.candidateFault? candidate = some fault) :
    s.owners target (candidate :: rest) = .error fault := by
  cases hentry : s.schemas.get? candidate with
  | none =>
      rw [candidateFault?, hentry] at h
      cases h
      simp [owners, object, lookup_of_none hentry]
  | some entry =>
      rw [candidateFault?, hentry] at h
      cases entry with
      | unrecognized shape =>
          cases h
          simp [owners, object, lookup_of_some hentry]
      | element | object | array => cases h

/-- A candidate that uses the target is put among the owners. -/
theorem owners_cons_of_uses (h : s.Uses target candidate) :
    s.owners target (candidate :: rest) =
      (fun others => others.insert candidate ()) <$> s.owners target rest := by
  obtain ⟨definition, hdeclared⟩ := declaresObject_of_uses h
  have hany := (uses_iff hdeclared).mp h
  rw [owners, object_eq_ok_iff.mpr hdeclared, map_eq_pure_bind]
  simp [hany]

/-- A candidate without a fault that does not use the target is passed over, of whatever kind. -/
theorem owners_cons_of_not_uses (h : s.candidateFault? candidate = none)
    (hnot : ¬ s.Uses target candidate) :
    s.owners target (candidate :: rest) = s.owners target rest := by
  cases hentry : s.schemas.get? candidate with
  | none => simp [candidateFault?, hentry] at h
  | some entry =>
      cases entry with
      | object definition =>
          rw [uses_iff hentry] at hnot
          rw [owners, object_eq_ok_iff.mpr hentry]
          simp only [hnot]
          exact bind_pure _
      | unrecognized => simp [candidateFault?, hentry] at h
      | element | array => simp [owners, object, lookup_of_some hentry]

/-- The scan fails with the fault of the first candidate that has one. -/
theorem owners_of_fault (h : candidates.findSome? s.candidateFault? = some fault) :
    s.owners target candidates = .error fault := by
  induction candidates with
  | nil => cases h
  | cons candidate rest ih =>
      rw [List.findSome?_cons] at h
      cases hfault : s.candidateFault? candidate with
      | some first =>
          rw [hfault] at h
          cases h
          exact owners_cons_of_fault hfault
      | none =>
          rw [hfault] at h
          by_cases huses : s.Uses target candidate
          · rw [owners_cons_of_uses huses, ih h, Except.map_error]
          · rw [owners_cons_of_not_uses hfault huses, ih h]

/-- Without a fault the scan collects the candidates that use the target. -/
theorem exists_owners (target : String) (h : candidates.findSome? s.candidateFault? = none) :
    ∃ found, s.owners target candidates = .ok found ∧
      ∀ name, name ∈ found.names ↔ name ∈ candidates ∧ s.Uses target name := by
  induction candidates with
  | nil => exact ⟨.empty, rfl, fun name => by simp [NameMap.names, NameMap.empty]⟩
  | cons candidate rest ih =>
      rw [List.findSome?_cons] at h
      cases hfault : s.candidateFault? candidate with
      | some first =>
          rw [hfault] at h
          cases h
      | none =>
          rw [hfault] at h
          obtain ⟨found, hfound, hnames⟩ := ih h
          -- What the rest finds is independent of the candidate, which is added to it or not.
          by_cases huses : s.Uses target candidate
          · refine ⟨_, by rw [owners_cons_of_uses huses, hfound, Except.map_ok], ?_⟩
            intro name
            rw [NameMap.mem_names_insert, hnames, List.mem_cons, or_and_right]
            refine or_congr_left (iff_self_and.mpr ?_)
            rintro rfl
            exact huses
          · refine ⟨found, by rw [owners_cons_of_not_uses hfault huses, hfound], ?_⟩
            intro name
            rw [hnames, List.mem_cons, or_and_right]
            refine (or_iff_right ?_).symm
            rintro ⟨rfl, hname⟩
            exact huses hname

/-- A scan answers with the fault of the first candidate that has one, or else with the owners that
the index names, as far as they are candidates. -/
theorem usagesOf_eq (s : Store) (target : String) (candidates : List String) :
    s.usagesOf target candidates =
      match candidates.findSome? s.candidateFault? with
      | some fault => .error fault
      | none => .ok (((UsageIndex.build s).ownersOf target).filter (· ∈ candidates)) := by
  cases hfault : candidates.findSome? s.candidateFault? with
  | some fault =>
      rw [usagesOf, owners_of_fault hfault]
      rfl
  | none =>
      obtain ⟨found, hfound, hnames⟩ := exists_owners target hfault
      rw [usagesOf, hfound]
      refine congrArg Except.ok (Text.eq_of_pairwise_before found.pairwise_names ?_ ?_)
      · exact (UsageIndex.pairwise_ownersOf _ target).filter _
      · intro name
        rw [hnames, List.mem_filter, mem_ownersOf_build, decide_eq_true_iff, and_comm]

end Store

namespace CommandLine

variable {s : Store} {target name : String}

/-- A name is listed with the kind that it is classified as, if this kind is asked for. -/
theorem mem_listing_iff {filter : Option SchemaKind} {kind : SchemaKind} :
    (name, kind) ∈ listing s filter ↔
      s.classify name = .ok kind ∧ (filter = none ∨ filter = some kind) := by
  constructor
  · intro h
    obtain ⟨found, _, hfound⟩ := List.mem_filterMap.mp h
    cases hkind : s.classify found with
    | error fault => simp [hkind] at hfound
    | ok foundKind =>
        obtain ⟨hfilter, rfl, rfl⟩ :
            (filter = none ∨ filter = some foundKind) ∧ found = name ∧ foundKind = kind := by
          simpa [hkind] using hfound
        exact ⟨hkind, hfilter⟩
  · rintro ⟨hkind, hfilter⟩
    have hdeclared : name ∈ s.schemas.names := by
      obtain ⟨entry, hentry, _⟩ := Except.bind_eq_ok_iff.mp hkind
      cases hget : s.schemas.get? name with
      | none =>
          rw [Store.lookup_of_none hget] at hentry
          cases hentry
      | some definition => exact NameMap.mem_names_iff.mpr ⟨definition, hget⟩
    exact List.mem_filterMap.mpr ⟨name, hdeclared, by simp [hkind, hfilter]⟩

/-- The listing of objects has the names of the declared objects. -/
theorem mem_listing_object_iff :
    name ∈ (listing s (some .object)).map (·.1) ↔ s.DeclaresObject name := by
  rw [List.mem_map, ← Store.classify_eq_object_iff]
  constructor
  · rintro ⟨⟨_, kind⟩, hrow, rfl⟩
    obtain ⟨hkind, hfilter⟩ := mem_listing_iff.mp hrow
    obtain rfl : SchemaKind.object = kind := by simpa using hfilter
    exact hkind
  · intro hkind
    exact ⟨(name, .object), mem_listing_iff.mpr ⟨hkind, .inr rfl⟩, rfl⟩

/-- Among all objects the scan finds what the index has. -/
theorem usagesOf_listing (s : Store) (target : String) :
    s.usagesOf target ((listing s (some .object)).map (·.1)) =
      .ok ((UsageIndex.build s).ownersOf target) := by
  have hfault : ((listing s (some .object)).map (·.1)).findSome? s.candidateFault? = none := by
    refine List.findSome?_eq_none_iff.mpr fun name hname => ?_
    obtain ⟨definition, hdeclared⟩ := mem_listing_object_iff.mp hname
    exact Store.candidateFault?_of_object hdeclared
  rw [Store.usagesOf_eq, hfault]
  refine congrArg Except.ok (List.filter_eq_self.mpr fun name hname => decide_eq_true ?_)
  have huses : s.Uses target name := Store.mem_ownersOf_build.mp hname
  exact mem_listing_object_iff.mpr (Store.declaresObject_of_uses huses)

theorem usageOwners_of_not_contains (h : s.contains target = false) (candidates : List String) :
    usageOwners s target candidates = .error (.taxonomy (.unknownSchema target)) := by
  have hnone : s.schemas.get? target = none := by
    simpa [Store.contains, NameMap.contains] using h
  rw [usageOwners, Store.lookup_of_none hnone]
  rfl

theorem usageOwners_of_contains (h : s.contains target = true) (candidates : List String) :
    usageOwners s target candidates =
      if candidates.isEmpty then .ok ((UsageIndex.build s).ownersOf target)
      else orFail (s.usagesOf target candidates) := by
  obtain ⟨entry, hentry⟩ : ∃ entry, s.schemas.get? target = some entry :=
    Option.isSome_iff_exists.mp h
  rw [usageOwners, Store.lookup_of_some hentry]
  rfl

/-- To name no candidate is to name every object, and gives what the index has. -/
theorem usageOwners_listing (s : Store) (target : String) :
    usageOwners s target ((listing s (some .object)).map (·.1)) = usageOwners s target [] := by
  cases hdeclared : s.contains target with
  | false => rw [usageOwners_of_not_contains hdeclared, usageOwners_of_not_contains hdeclared]
  | true =>
      rw [usageOwners_of_contains hdeclared, usageOwners_of_contains hdeclared, usagesOf_listing]
      split <;> rfl

end CommandLine

/-- Looking at candidates and asking the index of the document come to the same. The scan fails with
the fault of the first candidate that has one, and otherwise answers the indexed owners that are
candidates. On the command line a declared target has the indexed owners, without candidates and
with every object as a candidate. -/
theorem scan_agrees_with_index (s : Store) (target : String) (candidates : List String) :
    (s.usagesOf target candidates =
      match candidates.findSome? s.candidateFault? with
      | some fault => .error fault
      | none => .ok (((UsageIndex.build s).ownersOf target).filter (· ∈ candidates))) ∧
    CommandLine.usageOwners s target [] =
      (if s.contains target = true then .ok ((UsageIndex.build s).ownersOf target)
      else .error (.taxonomy (.unknownSchema target))) ∧
    CommandLine.usageOwners s target ((CommandLine.listing s (some .object)).map (·.1)) =
      CommandLine.usageOwners s target [] := by
  refine ⟨s.usagesOf_eq target candidates, ?_, CommandLine.usageOwners_listing s target⟩
  split
  · rename_i hdeclared
    exact CommandLine.usageOwners_of_contains hdeclared []
  · rename_i hdeclared
    exact CommandLine.usageOwners_of_not_contains (Bool.eq_false_iff.mpr hdeclared) []

/-- A depot and a yard have meters, a shed has none, and a crate has no shape. -/
def yards : Store where
  source := none
  schemas := .ofList [
    ("Crate", .unrecognized .noShape),
    ("Depot", .object ⟨none, "", [⟨"Meters", .array "Meter"⟩]⟩),
    ("Meter", .object ⟨none, "", []⟩),
    ("Meters", .array "Meter"),
    ("Shed", .object ⟨none, "", []⟩),
    ("Yard", .object ⟨none, "", [⟨"Meters", .schema "Meters"⟩]⟩)]
  itemTypes := .empty
  itemTypeGroups := .empty

/-- Of the candidates the yard owns meters, by an array that has a name; of a candidate that is not
declared and one without a shape the first ends the scan. Without candidates the depot is found
too. -/
theorem scan_agrees_with_index_yards :
    (UsageIndex.build yards).ownersOf "Meter" = ["Depot", "Yard"] ∧
    yards.usagesOf "Meter" ["Yard", "Shed", "Meters", "Yard"] = .ok ["Yard"] ∧
    yards.usagesOf "Meter" ["Yard", "Fence", "Crate"] = .error (.unknownSchema "Fence") ∧
    yards.usagesOf "Meter" ["Yard", "Crate", "Fence"] = .error (.malformedSchema "Crate" .noShape) ∧
    CommandLine.usageOwners yards "Meter" [] = .ok ["Depot", "Yard"] ∧
    CommandLine.usageOwners yards "Meter" ["Depot", "Meter", "Shed", "Yard"] =
      .ok ["Depot", "Yard"] ∧
    CommandLine.usageOwners yards "Fence" [] = .error (.taxonomy (.unknownSchema "Fence")) := by
  have howners : (UsageIndex.build yards).ownersOf "Meter" = ["Depot", "Yard"] := by
    decide +kernel
  have hobjects : (CommandLine.listing yards (some .object)).map (·.1) =
      ["Depot", "Meter", "Shed", "Yard"] := by
    decide +kernel
  obtain ⟨-, hindexed, hlisted⟩ := scan_agrees_with_index yards "Meter" []
  rw [howners] at hindexed
  rw [hobjects, hindexed] at hlisted
  refine ⟨howners, ?_, ?_, ?_, hindexed, hlisted, (scan_agrees_with_index yards "Fence" []).2.1⟩
  · rw [(scan_agrees_with_index yards "Meter" _).1, howners]
    rfl
  · rw [(scan_agrees_with_index yards "Meter" _).1]
    rfl
  · rw [(scan_agrees_with_index yards "Meter" _).1]
    rfl

end Taxonomy
