import Taxonomy.Proofs.Decimal.Numeral
import Taxonomy.Proofs.Field.Verdict

/-!
# Numbers that are submitted as text

A decimal column checks the decimal that it has read from a text and not the text itself. Where the
reading loses nothing, the limits hold of the number that was written. Where it rounds, they hold of
another number, and a text just beyond a bound is taken for the bound.
-/

namespace Taxonomy

open Decimal (Holds)
open Numeral (DigitsText ExponentText)

namespace FieldDescriptor

variable {f : FieldDescriptor} {t : String} {v : FacetValue} {m : Numeral}
variable {maxDigits decimalPlaces : UInt32}

/-- What a decimal column accepts of a text is the decimal that is read from it. -/
theorem exists_read?_of_checkJson (hkind : f.kind = .decimal maxDigits decimalPlaces)
    (h : f.checkJson (.str t) = .ok v) :
    ∃ d, Decimal.read? t = some d ∧ v = .decimal d ∧
      FitsDigits maxDigits decimalPlaces d.value ∧ f.constraints.Bounds d.value := by
  obtain ⟨hvalue, hcheck⟩ := checkJson_eq_ok_iff.mp h
  rw [hkind] at hvalue
  obtain ⟨d, hread, rfl⟩ := Option.map_eq_some_iff.mp hvalue
  rw [check_of_decimal? hkind rfl, checkDecimal_eq_ok_iff] at hcheck
  exact ⟨d, hread, rfl, hcheck⟩

/-- What a decimal column accepts of a numeral is the number that was written exactly if a decimal
can hold what stands before the exponent and the whole number. Then the number that was written has
no more digits than the column takes and is within its bounds. -/
theorem checkJson_numeral (hkind : f.kind = .decimal maxDigits decimalPlaces)
    (hplaces : decimalPlaces.toNat ≤ maxDigits.toNat) (hwrites : m.Writes t.toList)
    (h : f.checkJson (.str t) = .ok v) :
    (∃ d, v = .decimal d ∧ (d.value = m.value ↔ Holds m.base ∧ Holds m.value)) ∧
    (Holds m.base → Holds m.value →
      FixedPoint maxDigits.toNat decimalPlaces.toNat m.value ∧ f.constraints.Bounds m.value) := by
  obtain ⟨d, hread, rfl, hdigits, hbounds⟩ := exists_read?_of_checkJson hkind h
  have hvalue := Decimal.read?_value_iff hwrites hread
  refine ⟨⟨d, rfl, hvalue⟩, ?_⟩
  intro hbase hnumber
  rw [← hvalue.mpr ⟨hbase, hnumber⟩]
  exact ⟨(fitsDigits_iff_fixedPoint hplaces).mp hdigits, hbounds⟩

/-- An eighth, written `1.250e1` in percent. -/
def eighth : Numeral := ⟨false, [1], [2, 5, 0], 1⟩

/-- An eighth is accepted as the number that it is. -/
theorem checkJson_numeral_eighth :
    let d : Decimal := ⟨false, 1250, 2, by decide, by decide⟩
    shares.kind = .decimal 24 8 ∧ (8 : UInt32).toNat ≤ (24 : UInt32).toNat ∧
      eighth.Writes "1.250e1".toList ∧ shares.checkJson (.str "1.250e1") = .ok (.decimal d) ∧
      d.value = eighth.value ∧ FixedPoint 24 8 eighth.value ∧
      shares.constraints.Bounds eighth.value := by
  intro d
  have hdigits : DigitsText [1] [2, 5, 0] ['1', '.', '2', '5', '0'] :=
    @DigitsText.point ['1'] ['2', '5', '0'] [1] [2, 5, 0] (by decide) rfl rfl
  have hexponent : ExponentText 1 ['e', '1'] :=
    @ExponentText.up 'e' [] ['1'] [1] (.inl rfl) .none (by decide) rfl
  have hwrites : eighth.Writes "1.250e1".toList :=
    ⟨[], _, _, .none, hdigits, hexponent, by decide⟩
  have haccepted : shares.checkJson (.str "1.250e1") = .ok (.decimal d) := by decide +kernel
  obtain ⟨⟨d', hd', hread⟩, hlimits⟩ := checkJson_numeral rfl (by decide) hwrites haccepted
  cases hd'
  have hbase : Holds eighth.base := by
    refine ⟨⟨false, 125, 2, by decide, by decide⟩, ?_⟩
    norm_num [Decimal.value, Decimal.numerator, Numeral.base, Decimal.signed, eighth, Text.ofDigits]
  have hvalue : Holds eighth.value := by
    refine ⟨⟨false, 125, 1, by decide, by decide⟩, ?_⟩
    norm_num [Decimal.value, Decimal.numerator, Numeral.value, Numeral.base, Decimal.signed, eighth,
      Text.ofDigits]
  exact ⟨rfl, by decide, hwrites, haccepted, hread.mpr ⟨hbase, hvalue⟩, hlimits hbase hvalue⟩

/-- A hundred and one unit of the place behind those that a decimal of that size can have. -/
def beyond : Numeral := ⟨false, [1, 0, 0], List.replicate 28 0 ++ [1], 0⟩

/-- Not every number that is accepted is the number that was written: what lies beyond a bound by
less than a decimal can show is taken for the bound. -/
theorem checkJson_beyond :
    let t := "100.00000000000000000000000000001"
    let d : Decimal := ⟨false, 10 ^ 28, 26, by decide, by decide⟩
    shares.kind = .decimal 24 8 ∧ beyond.Writes t.toList ∧
      shares.checkJson (.str t) = .ok (.decimal d) ∧ d.value < beyond.value ∧
      ¬ shares.constraints.Bounds beyond.value := by
  intro t d
  have hplaces : Text.Spells Text.digit? (List.replicate 28 '0' ++ ['1'])
      (List.replicate 28 0 ++ [1]) := by
    rw [Text.Spells]
    decide
  have hdigits : DigitsText [1, 0, 0] (List.replicate 28 0 ++ [1])
      (['1', '0', '0'] ++ '.' :: (List.replicate 28 '0' ++ ['1'])) :=
    @DigitsText.point ['1', '0', '0'] _ [1, 0, 0] _ (by decide) rfl hplaces
  have hvalue : d.value = 100 := by
    norm_num [d, Decimal.value, Decimal.numerator]
  have hnumber : Text.ofDigits 10 ([1, 0, 0] ++ (List.replicate 28 0 ++ [1])) = 10 ^ 31 + 1 := by
    decide
  have hbeyond : 100 < beyond.value := by
    simp only [Numeral.value, Numeral.base, Decimal.signed, beyond, hnumber]
    norm_num
  refine ⟨rfl, ⟨[], _, [], .none, hdigits, .none, by decide⟩, by decide +kernel, ?_, ?_⟩
  · rwa [hvalue]
  · rintro ⟨-, hmax⟩
    have hhundred := hmax (.ofNat 100) rfl
    rw [Decimal.value_ofNat] at hhundred
    exact absurd hhundred (not_le.mpr hbeyond)

end FieldDescriptor

end Taxonomy
