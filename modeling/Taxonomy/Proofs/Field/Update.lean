import Taxonomy.Proofs.Field.Check

/-!
# Updates of a column

A column holds a value, and a submitted value takes its place exactly if the update is accepted.
Whatever a column comes to hold has been checked, and an immutable column holds on to the first
value that it is assigned. What one submission does is stated first; what a run of submissions comes
to follows by induction on the run.
-/

namespace Taxonomy

/-- Values other than decimals are the same if they are equal, and not otherwise. -/
theorem FacetValue.same_iff_eq {v w : FacetValue} (hexact : ∀ d, v ≠ .decimal d) :
    v.same w = true ↔ v = w := by
  cases v with
  | decimal d => exact absurd rfl (hexact d)
  | _ => simp [same]

namespace FieldDescriptor

variable {f : FieldDescriptor} {v w old new : FacetValue} {submissions : List FacetValue}

/-- What a column holds after a submission: the submitted value if the update is accepted, and
otherwise what it held before. -/
def submit (f : FieldDescriptor) (stored submitted : FacetValue) : FacetValue :=
  match f.checkUpdate stored submitted with
  | .ok _ => submitted
  | .error _ => stored

/-- What a column holds after a run of submissions. -/
def submitAll (f : FieldDescriptor) (stored : FacetValue) (submissions : List FacetValue) :
    FacetValue :=
  submissions.foldl f.submit stored

@[simp] theorem submitAll_nil (f : FieldDescriptor) (v : FacetValue) : f.submitAll v [] = v := rfl

@[simp] theorem submitAll_cons (f : FieldDescriptor) (v w : FacetValue)
    (submissions : List FacetValue) :
    f.submitAll v (w :: submissions) = f.submitAll (f.submit v w) submissions := rfl

theorem submitAll_append (f : FieldDescriptor) (v : FacetValue) (before after : List FacetValue) :
    f.submitAll v (before ++ after) = f.submitAll (f.submitAll v before) after :=
  List.foldl_append

/-! ### One submission -/

/-- An immutable column accepts what it accepts at all and what is the same as the value that it
has, if it has one. -/
theorem checkUpdate_eq_ok_iff (himmutable : f.constraints.immutable = true) :
    f.checkUpdate old new = .ok () ↔
      (old ≠ .null → old.same new = true) ∧ f.check new = .ok () := by
  rw [checkUpdate, ite_refuse_eq_ok_iff]
  simp [himmutable]

/-- A column without a value is updated to whatever it accepts. -/
theorem checkUpdate_null (f : FieldDescriptor) (w : FacetValue) :
    f.checkUpdate .null w = f.check w := by
  simp [checkUpdate]

theorem check_of_checkUpdate (h : f.checkUpdate old new = .ok ()) : f.check new = .ok () := by
  rw [checkUpdate, ite_refuse_eq_ok_iff] at h
  exact h.2

theorem submit_of_ok (h : f.checkUpdate v w = .ok ()) : f.submit v w = w := by
  rw [submit, h]

theorem submit_of_ne_ok (h : f.checkUpdate v w ≠ .ok ()) : f.submit v w = v := by
  cases hupdate : f.checkUpdate v w with
  | ok => exact absurd hupdate h
  | error violation => rw [submit, hupdate]

/-- An immutable column that has a value keeps it. -/
theorem submit_of_assigned (himmutable : f.constraints.immutable = true) (hassigned : v ≠ .null)
    (hexact : ∀ d, v ≠ .decimal d) (w : FacetValue) : f.submit v w = v := by
  by_cases hupdate : f.checkUpdate v w = .ok ()
  · obtain ⟨hsame, _⟩ := (checkUpdate_eq_ok_iff himmutable).mp hupdate
    rw [submit_of_ok hupdate]
    exact ((FacetValue.same_iff_eq hexact).mp (hsame hassigned)).symm
  · exact submit_of_ne_ok hupdate

/-! ### Runs -/

/-- What a column comes to hold is what it held at first, or it is accepted. -/
theorem submitAll_eq_or_check (f : FieldDescriptor) (v : FacetValue)
    (submissions : List FacetValue) :
    f.submitAll v submissions = v ∨ f.check (f.submitAll v submissions) = .ok () := by
  induction submissions generalizing v with
  | nil => exact .inl rfl
  | cons w submissions ih =>
      rw [submitAll_cons]
      by_cases hupdate : f.checkUpdate v w = .ok ()
      · rw [submit_of_ok hupdate]
        rcases ih w with hw | hcheck
        · rw [hw]
          exact .inr (check_of_checkUpdate hupdate)
        · exact .inr hcheck
      · rw [submit_of_ne_ok hupdate]
        exact ih v

/-- An immutable column that has a value keeps it over every run. -/
theorem submitAll_of_assigned (himmutable : f.constraints.immutable = true)
    (hassigned : v ≠ .null) (hexact : ∀ d, v ≠ .decimal d) (submissions : List FacetValue) :
    f.submitAll v submissions = v := by
  induction submissions with
  | nil => rfl
  | cons w submissions ih =>
      rw [submitAll_cons, submit_of_assigned himmutable hassigned hexact]
      exact ih

/-- An immutable column that starts without a value comes to hold the first value that it accepts,
if it is neither null nor a decimal. -/
theorem submitAll_null (himmutable : f.constraints.immutable = true)
    (haccepts : ∀ v, f.check v = .ok () → v ≠ .null ∧ ∀ d, v ≠ .decimal d)
    (submissions : List FacetValue) :
    f.submitAll .null submissions =
      (submissions.find? (fun w => (f.check w).toBool)).getD .null := by
  induction submissions with
  | nil => rfl
  | cons w submissions ih =>
      rw [submitAll_cons]
      cases hcheck : f.check w with
      | ok =>
          obtain ⟨hassigned, hexact⟩ := haccepts w hcheck
          have hupdate : f.checkUpdate .null w = .ok () := by
            rw [checkUpdate_null, hcheck]
          rw [submit_of_ok hupdate, submitAll_of_assigned himmutable hassigned hexact]
          simp [hcheck, Except.toBool]
      | error violation =>
          have hupdate : f.checkUpdate .null w ≠ .ok () := by
            rw [checkUpdate_null, hcheck]
            exact nofun
          rw [submit_of_ne_ok hupdate, ih]
          simp [hcheck, Except.toBool]

end FieldDescriptor

end Taxonomy
