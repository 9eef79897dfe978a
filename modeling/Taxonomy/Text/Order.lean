/-!
# Order of names

Names are compared by the code points of their characters, a proper initial part coming
first; the bytes of their UTF-8 form compare the same way. The order is strict and total, which is
what a map sorted by name relies on.
-/

namespace Taxonomy.Text

/-- Whether one list of characters comes strictly before another. -/
def charsBefore : List Char → List Char → Bool
  | [], [] => false
  | [], _ :: _ => true
  | _ :: _, [] => false
  | a :: as, b :: bs =>
    decide (a.toNat < b.toNat) || (decide (a.toNat = b.toNat) && charsBefore as bs)

/-- Whether one name comes strictly before another. -/
def before (a b : String) : Bool :=
  charsBefore a.toList b.toList

theorem char_eq_of_toNat {a b : Char} (h : a.toNat = b.toNat) : a = b :=
  Char.ext (UInt32.toNat_inj.mp h)

theorem charsBefore_irrefl (s : List Char) : charsBefore s s = false := by
  induction s with
  | nil => rfl
  | cons c s ih => simp [charsBefore, ih]

theorem charsBefore_trans {s t u : List Char} (hst : charsBefore s t = true)
    (htu : charsBefore t u = true) : charsBefore s u = true := by
  induction s generalizing t u with
  | nil =>
    cases t with
    | nil => simp [charsBefore] at hst
    | cons b t =>
      cases u with
      | nil => simp [charsBefore] at htu
      | cons c u => rfl
  | cons a s ih =>
    cases t with
    | nil => simp [charsBefore] at hst
    | cons b t =>
      cases u with
      | nil => simp [charsBefore] at htu
      | cons c u =>
        simp only [charsBefore, Bool.or_eq_true, Bool.and_eq_true, decide_eq_true_eq] at *
        rcases hst with hab | ⟨hab, hst⟩
        · rcases htu with hbc | ⟨hbc, _⟩
          · exact .inl (by omega)
          · exact .inl (by omega)
        · rcases htu with hbc | ⟨hbc, htu⟩
          · exact .inl (by omega)
          · exact .inr ⟨by omega, ih hst htu⟩

theorem charsBefore_total {s t : List Char} (hne : s ≠ t) :
    charsBefore s t = true ∨ charsBefore t s = true := by
  induction s generalizing t with
  | nil =>
    cases t with
    | nil => exact absurd rfl hne
    | cons b t => exact .inl rfl
  | cons a s ih =>
    cases t with
    | nil => exact .inr rfl
    | cons b t =>
      simp only [charsBefore, Bool.or_eq_true, Bool.and_eq_true, decide_eq_true_eq]
      by_cases hab : a.toNat = b.toNat
      · have hst : s ≠ t := by
          intro h
          exact hne (by rw [char_eq_of_toNat hab, h])
        rcases ih hst with h | h
        · exact .inl (.inr ⟨hab, h⟩)
        · exact .inr (.inr ⟨hab.symm, h⟩)
      · rcases Nat.lt_or_gt_of_ne hab with h | h
        · exact .inl (.inl h)
        · exact .inr (.inl h)

@[simp] theorem before_irrefl (a : String) : before a a = false :=
  charsBefore_irrefl a.toList

theorem before_trans {a b c : String} (hab : before a b = true) (hbc : before b c = true) :
    before a c = true :=
  charsBefore_trans hab hbc

theorem before_total {a b : String} (hne : a ≠ b) : before a b = true ∨ before b a = true :=
  charsBefore_total (fun h => hne (String.toList_injective h))

theorem ne_of_before {a b : String} (h : before a b = true) : a ≠ b := by
  intro hab
  rw [hab, before_irrefl] at h
  exact Bool.noConfusion h

theorem before_asymm {a b : String} (h : before a b = true) : before b a = false := by
  cases hba : before b a with
  | false => rfl
  | true => exact absurd (before_trans h hba) (by simp)

end Taxonomy.Text
