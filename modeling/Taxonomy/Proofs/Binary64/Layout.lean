import Taxonomy.Binary64.Layout
import Taxonomy.Proofs.Binary64.Shortest
import Taxonomy.Proofs.Decimal.Numeral

/-!
# The text of a double

In every layout the text of a double is a numeral of the double's sign and of the number of its
shortest decimal. A text is at most one numeral, and different magnitudes have different shortest
decimals, so doubles with one text are equal.
-/

namespace Taxonomy.Binary64

open Decimal (signed)
open Numeral (SignText DigitsText ExponentText)

variable {x y : Binary64} {layout : Layout} {c : Char}

/-- The number that is written for the magnitude of a double. -/
def written (tie : Tie) (x : Binary64) : ℚ :=
  if x.isZero then 0 else (shortest tie x).digits * 10 ^ (shortest tie x).power

theorem isZero_eq_false_iff : x.isZero = false ↔ x.significand ≠ 0 :=
  beq_eq_false_iff_ne

theorem written_of_isZero (tie : Tie) (h : x.isZero = true) : written tie x = 0 :=
  if_pos h

theorem written_of_isZero_eq_false (tie : Tie) (h : x.isZero = false) :
    written tie x = (shortest tie x).digits * 10 ^ (shortest tie x).power :=
  if_neg (Bool.eq_false_iff.mp h)

/-- The digits of a text denote a number, the point of it counted. -/
def Shows (q : ℚ) (cs : List Char) : Prop :=
  ∃ whole fraction, DigitsText whole fraction cs ∧
    (Text.ofDigits 10 (whole ++ fraction) : ℚ) / 10 ^ fraction.length = q

theorem spells_replicate (k : Nat) :
    Text.Spells Text.digit? (List.replicate k '0') (List.replicate k 0) := by
  rw [Text.Spells, List.map_replicate, List.map_replicate]
  rfl

theorem toDigits_ne_nil (n : Nat) : Nat.toDigits 10 n ≠ [] :=
  List.ne_nil_of_length_pos Nat.length_toDigits_pos

/-- A point among the digits divides their number. -/
theorem shows_take_drop {places : Nat} (n : Nat) (h : places < (Nat.toDigits 10 n).length) :
    Shows (n / 10 ^ places)
      ((Nat.toDigits 10 n).take ((Nat.toDigits 10 n).length - places) ++
        '.' :: (Nat.toDigits 10 n).drop ((Nat.toDigits 10 n).length - places)) := by
  obtain ⟨ds, hspells, hvalue⟩ := Text.exists_spells_toDigits n
  have hlength := hspells.length_eq
  refine ⟨_, _, .point ?_ (hspells.take _) (hspells.drop _), ?_⟩
  · rw [← List.length_pos_iff, List.length_take]
    omega
  · have hplaces : (ds.drop ((Nat.toDigits 10 n).length - places)).length = places := by
      rw [List.length_drop]
      omega
    rw [List.take_append_drop, hvalue, hplaces]

/-- Zeros behind a whole number, and a point with one more zero where it is kept. -/
theorem shows_whole (keepsPoint : Bool) (n k : Nat) : Shows (n * 10 ^ k)
    (Nat.toDigits 10 n ++ List.replicate k '0' ++ if keepsPoint then ['.', '0'] else []) := by
  obtain ⟨ds, hspells, hvalue⟩ := Text.exists_spells_toDigits n
  have hwhole := hspells.append (spells_replicate k)
  have hne : Nat.toDigits 10 n ++ List.replicate k '0' ≠ [] :=
    List.append_ne_nil_of_left_ne_nil (toDigits_ne_nil n) _
  cases keepsPoint with
  | false =>
      rw [if_neg Bool.false_ne_true, List.append_nil]
      refine ⟨_, _, .whole hne hwhole, ?_⟩
      rw [List.append_nil, Text.ofDigits_append_replicate, hvalue, List.length_nil, pow_zero, div_one]
      push_cast
      rfl
  | true =>
      refine ⟨_, _, .point hne hwhole (spells_replicate 1), ?_⟩
      rw [Text.ofDigits_append_replicate, Text.ofDigits_append_replicate, hvalue,
        List.length_replicate]
      push_cast
      exact mul_div_cancel_right₀ _ (by norm_num)

/-- Zeros between the point and the digits. -/
theorem shows_fraction {places : Nat} (n : Nat) (h : (Nat.toDigits 10 n).length ≤ places) :
    Shows (n / 10 ^ places)
      ('0' :: '.' :: (List.replicate (places - (Nat.toDigits 10 n).length) '0' ++
        Nat.toDigits 10 n)) := by
  obtain ⟨ds, hspells, hvalue⟩ := Text.exists_spells_toDigits n
  have hfraction := (spells_replicate (places - (Nat.toDigits 10 n).length)).append hspells
  refine ⟨_, _, .point (List.cons_ne_nil '0' []) (spells_replicate 1) hfraction, ?_⟩
  have hplaces : (List.replicate (places - (Nat.toDigits 10 n).length) 0 ++ ds).length = places := by
    rw [List.length_append, List.length_replicate, ← hspells.length_eq]
    omega
  rw [hplaces, Text.ofDigits_replicate_append, Text.ofDigits_replicate_append, hvalue]

/-- Positional form shows the decimal. -/
theorem shows_positional (keepsPoint : Bool) (d : DecimalDigits) :
    Shows (d.digits * 10 ^ d.power) (positional keepsPoint d).toList := by
  obtain ⟨n, power⟩ := d
  by_cases hpower : 0 ≤ power
  · obtain ⟨k, rfl⟩ := Int.eq_ofNat_of_zero_le hpower
    simp only [positional, hpower, if_true, String.toList_ofList, Int.toNat_natCast, zpow_natCast]
    exact shows_whole keepsPoint n k
  · obtain ⟨places, rfl⟩ : ∃ places : Nat, power = -(places : Int) := ⟨(-power).toNat, by omega⟩
    simp only [positional, hpower, if_false, neg_neg, Int.toNat_natCast, zpow_neg, zpow_natCast,
      ← div_eq_mul_inv]
    split
    · rename_i hinside
      rw [String.toList_ofList]
      exact shows_take_drop n hinside
    · rename_i hinside
      rw [String.toList_ofList]
      exact shows_fraction n (Nat.not_lt.mp hinside)

/-- The digits before an exponent show the decimal with its point behind the first digit. -/
theorem shows_leading (n : Nat) :
    Shows (n / 10 ^ ((Nat.toDigits 10 n).length - 1))
      ((Nat.toDigits 10 n).take 1 ++
        if ((Nat.toDigits 10 n).drop 1).isEmpty then [] else '.' :: (Nat.toDigits 10 n).drop 1) := by
  have hlength : 0 < (Nat.toDigits 10 n).length := Nat.length_toDigits_pos
  by_cases hone : (Nat.toDigits 10 n).length = 1
  · obtain ⟨ds, hspells, hvalue⟩ := Text.exists_spells_toDigits n
    have hdrop : (Nat.toDigits 10 n).drop 1 = [] := List.drop_eq_nil_of_le hone.le
    have htake : (Nat.toDigits 10 n).take 1 = Nat.toDigits 10 n := List.take_of_length_le hone.le
    refine ⟨ds, [], ?_, ?_⟩
    · rw [hdrop, htake, List.isEmpty_nil, if_pos rfl, List.append_nil]
      exact .whole (toDigits_ne_nil n) hspells
    · rw [List.append_nil, hvalue, hone, List.length_nil]
  · have hplaces : (Nat.toDigits 10 n).length - ((Nat.toDigits 10 n).length - 1) = 1 := by omega
    have hshows := shows_take_drop n (Nat.sub_lt hlength Nat.one_pos)
    rw [hplaces] at hshows
    have hdrop : ((Nat.toDigits 10 n).drop 1).isEmpty = false := by
      rw [List.isEmpty_eq_false_iff, ← List.length_pos_iff, List.length_drop]
      omega
    rwa [hdrop, if_neg Bool.false_ne_true]

/-- The exponent of scientific form. -/
theorem exponentText_scientific (signsExponent : Bool) (exponent : Int) :
    ExponentText exponent ('e' ::
      ((if exponent < 0 then ['-'] else if signsExponent then ['+'] else []) ++
        Nat.toDigits 10 exponent.natAbs)) := by
  obtain ⟨ds, hspells, hvalue⟩ := Text.exists_spells_toDigits exponent.natAbs
  by_cases hnegative : exponent < 0
  · have hexponent : exponent = -Text.ofDigits 10 ds := by omega
    rw [if_pos hnegative]
    nth_rewrite 1 [hexponent]
    exact .down (.inl rfl) (toDigits_ne_nil _) hspells
  · have hexponent : exponent = Text.ofDigits 10 ds := by omega
    rw [if_neg hnegative]
    nth_rewrite 1 [hexponent]
    refine .up (.inl rfl) ?_ (toDigits_ne_nil _) hspells
    cases signsExponent with
    | false => exact .none
    | true => exact .plus

/-- A text with a sign, digits that show a number and an exponent is a numeral. -/
theorem Shows.exists_writes {q : ℚ} {digits exponent : List Char} {k : Int} (h : Shows q digits)
    (hexponent : ExponentText k exponent) (negative : Bool) :
    ∃ n : Numeral, n.Writes ((if negative then "-" else "").toList ++ (digits ++ exponent)) ∧
      n.negative = negative ∧ n.value = signed negative (q * 10 ^ k) := by
  obtain ⟨whole, fraction, hdigits, rfl⟩ := h
  refine ⟨⟨negative, whole, fraction, k⟩, ⟨_, digits, exponent, ?_, hdigits, hexponent, rfl⟩, rfl, ?_⟩
  · cases negative with
    | false => exact .none
    | true => exact .minus
  · rw [Numeral.value, Numeral.base, Decimal.signed_mul]

theorem shows_zero (keepsPoint : Bool) : Shows 0 (if keepsPoint then "0.0" else "0").toList := by
  have hshows := shows_whole keepsPoint 0 0
  rw [Nat.cast_zero, zero_mul] at hshows
  cases keepsPoint <;> exact hshows

/-- The decimal in scientific form after the sign is a numeral. -/
theorem exists_writes_scientific (signsExponent negative : Bool) (d : DecimalDigits) :
    ∃ n : Numeral,
      n.Writes ((if negative then "-" else "").toList ++ (scientific signsExponent d).toList) ∧
      n.negative = negative ∧ n.value = signed negative (d.digits * 10 ^ d.power) := by
  obtain ⟨k, hk⟩ : ∃ k, (Nat.toDigits 10 d.digits).length = k + 1 :=
    Nat.exists_eq_succ_of_ne_zero (Nat.length_toDigits_pos).ne'
  have hwrites := (shows_leading d.digits).exists_writes
    (exponentText_scientific signsExponent (d.power + (Nat.toDigits 10 d.digits).length - 1))
    negative
  have hvalue : (d.digits : ℚ) / 10 ^ ((Nat.toDigits 10 d.digits).length - 1) *
      10 ^ (d.power + (Nat.toDigits 10 d.digits).length - 1) = d.digits * 10 ^ d.power := by
    have hexponent : d.power + (k + 1 : Nat) - 1 = d.power + k := by omega
    rw [hk, hexponent, Nat.add_sub_cancel, zpow_add₀ (by norm_num), zpow_natCast, ← mul_assoc,
      mul_right_comm,
      div_mul_cancel₀ _ (by positivity)]
  rw [hvalue] at hwrites
  rwa [scientific, String.toList_ofList]

theorem text_of_isZero (layout : Layout) (h : x.isZero = true) :
    x.text layout = (if x.negative then "-" else "") ++
      if layout.keepsPoint then "0.0" else "0" := by
  simp only [text, h, if_true]

/-- A double other than zero is written in one of two forms. -/
theorem text_of_isZero_eq_false (layout : Layout) (h : x.isZero = false) :
    ∃ isPositional : Bool, x.text layout = (if x.negative then "-" else "") ++
      if isPositional then positional layout.keepsPoint (shortest layout.tie x)
      else scientific layout.signsExponent (shortest layout.tie x) := by
  simp only [text, h, Bool.false_eq_true, if_false]
  exact ⟨_, rfl⟩

/-- The text of a double is a numeral of its sign and of its shortest decimal. -/
theorem exists_writes_text (layout : Layout) (x : Binary64) : ∃ n : Numeral,
    n.Writes (x.text layout).toList ∧ n.negative = x.negative ∧
      n.value = signed x.negative (written layout.tie x) := by
  cases hzero : x.isZero with
  | true =>
      have hwrites := (shows_zero layout.keepsPoint).exists_writes .none x.negative
      rw [List.append_nil, zpow_zero, mul_one, ← String.toList_append] at hwrites
      rwa [text_of_isZero layout hzero, written_of_isZero layout.tie hzero]
  | false =>
      obtain ⟨isPositional, htext⟩ := text_of_isZero_eq_false layout hzero
      rw [htext, String.toList_append, written_of_isZero_eq_false layout.tie hzero]
      generalize shortest layout.tie x = d
      cases isPositional with
      | true =>
          have hwrites := (shows_positional layout.keepsPoint d).exists_writes .none x.negative
          rw [List.append_nil, zpow_zero, mul_one] at hwrites
          rwa [if_pos rfl]
      | false =>
          rw [if_neg Bool.false_ne_true]
          exact exists_writes_scientific layout.signsExponent x.negative d

theorem written_pos (tie : Tie) (h : x.isZero = false) : 0 < written tie x := by
  have hx := isZero_eq_false_iff.mp h
  rw [written_of_isZero_eq_false tie h]
  exact (covers_shortest tie hx).pos hx

/-- Doubles with one text are equal, or they are zeros. -/
theorem same_of_text_eq (h : x.text layout = y.text layout) : x.same y = true := by
  obtain ⟨m, hm, hnegative, hvalue⟩ := exists_writes_text layout x
  obtain ⟨n, hn, hnegative', hvalue'⟩ := exists_writes_text layout y
  rw [h] at hm
  obtain rfl : m = n := (Decimal.eq_numeralOf hm).trans (Decimal.eq_numeralOf hn).symm
  have hsign : x.negative = y.negative := hnegative.symm.trans hnegative'
  have hwritten : written layout.tie x = written layout.tie y := by
    rw [hvalue, hsign, Decimal.signed_inj] at hvalue'
    exact hvalue'
  cases hx : x.isZero with
  | true =>
      cases hy : y.isZero with
      | true => rw [same, hx, hy, Bool.and_self, Bool.true_or]
      | false =>
          rw [written_of_isZero layout.tie hx] at hwritten
          exact absurd hwritten (written_pos layout.tie hy).ne
  | false =>
      cases hy : y.isZero with
      | true =>
          rw [written_of_isZero layout.tie hy] at hwritten
          exact absurd hwritten (written_pos layout.tie hx).ne'
      | false =>
          rw [written_of_isZero_eq_false layout.tie hx, written_of_isZero_eq_false layout.tie hy]
            at hwritten
          obtain ⟨hsignificand, hexponent⟩ := parts_eq_of_shortest (isZero_eq_false_iff.mp hx)
            (isZero_eq_false_iff.mp hy) hwritten
          have heq : x = y := by
            obtain ⟨_, _, _, _⟩ := x
            obtain ⟨_, _, _, _⟩ := y
            obtain rfl : _ = _ := hsign
            obtain rfl : _ = _ := hsignificand
            obtain rfl : _ = _ := hexponent
            rfl
          rw [same, decide_eq_true heq, Bool.or_true]

end Taxonomy.Binary64
