import Taxonomy.Json.Token
import Taxonomy.Json.Writer
import Taxonomy.Proofs.Text.Digits

/-!
# Whole numbers of a JSON text

A whole number is written as its digits after an optional sign, with no zero in front. The reader
takes the text apart in the same way, so a number that fits 64 bits is read back exactly.
-/

namespace Taxonomy.Json

/-- The characters of a whole number. -/
theorem toList_toString_int (n : Int) :
    (toString n).toList = (if n < 0 then ['-'] else []) ++ Nat.toDigits 10 n.natAbs := by
  rw [Int.toString_eq_repr, Int.repr_eq_if]
  by_cases hnegative : n < 0
  · have habs : (-n).toNat = n.natAbs := by omega
    rw [if_neg (Int.not_le.mpr hnegative), if_pos hnegative, habs, String.toList_append,
      Nat.toList_repr]
    rfl
  · have habs : n.toNat = n.natAbs := by omega
    rw [if_pos (Int.not_lt.mp hnegative), if_neg hnegative, habs, Nat.toList_repr]
    rfl

/-- Digits without a leading zero are a whole number. -/
theorem numberParts?_of_spells {cs : List Char} {d : Nat} {ds : List Nat}
    (hspells : Text.Spells Text.digit? cs (d :: ds)) (hlead : d = 0 → ds = []) (negative : Bool) :
    numberParts? ((if negative then ['-'] else []) ++ cs) = some ⟨negative, d :: ds, none, none⟩ := by
  have hspan : spanDigitValues cs = (d :: ds, []) := by
    have hall : Text.spanDigits cs.length (cs ++ []) = (d :: ds, []) :=
      Text.spanDigits_of_spells hspells (Nat.le_refl _) fun hlt => by omega
    rwa [List.append_nil] at hall
  have hzero : ((d :: ds).isEmpty || ((d :: ds).head? == some 0 && decide (1 < (d :: ds).length))) =
      false := by
    by_cases hd : d = 0
    · simp [hlead hd]
    · simp [hd]
  cases negative with
  | true =>
      simp only [numberParts?, if_true, List.cons_append, List.nil_append, hspan, hzero]
      rfl
  | false =>
      obtain ⟨c, cs, rfl⟩ : ∃ c cs', cs = c :: cs' := by
        cases cs with
        | nil => cases hspells
        | cons c cs' => exact ⟨c, cs', rfl⟩
      obtain ⟨_, _, _, hdigit, _⟩ := hspells.exists_cons
      have hminus : c ≠ '-' := Text.ne_of_digit? hdigit (by decide)
      simp only [numberParts?, Bool.false_eq_true, if_false, List.nil_append]
      split
      · rename_i heq
        exact absurd (List.cons.inj heq).1 hminus
      · simp only [hspan, hzero]
        rfl

/-- A whole number of 64 bits, signed or unsigned, is read back from its characters. -/
theorem readNumber?_toString {n : Int} (hlow : -2 ^ 63 ≤ n) (hhigh : n < 2 ^ 64) :
    readNumber? (toString n).toList = some (.int n) := by
  obtain ⟨d, ds, hspells, hvalue, hlead⟩ := Text.exists_spells_toDigits_head n.natAbs
  have hparts := numberParts?_of_spells hspells hlead (decide (n < 0))
  simp only [decide_eq_true_eq] at hparts
  rw [readNumber?, toList_toString_int, hparts]
  simp only [Option.bind_eq_bind, Option.bind_some, hvalue]
  by_cases hnegative : n < 0
  · have hpositive : 0 < n.natAbs := by omega
    have hfits : n.natAbs ≤ Nat.pow 2 63 := by
      rw [Nat.pow_eq]
      omega
    have hvalue : -(n.natAbs : Int) = n := by omega
    simp only [hnegative, decide_true, Bool.not_true, Bool.false_and, Bool.false_eq_true, if_false,
      hpositive, hfits, Bool.and_self, if_true, hvalue]
  · have hfits : n.natAbs < Nat.pow 2 64 := by
      rw [Nat.pow_eq]
      omega
    have hvalue : (n.natAbs : Int) = n := by omega
    simp only [hnegative, decide_false, Bool.not_false, hfits, decide_true, Bool.and_self, if_true,
      hvalue]

end Taxonomy.Json
