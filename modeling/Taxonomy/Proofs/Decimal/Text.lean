import Taxonomy.Decimal.Text
import Taxonomy.Proofs.Decimal.Value
import Taxonomy.Proofs.Text.Digits

/-!
# Decimals read back from their text

The text of a decimal has every digit of its mantissa, and as many of them after the point
as its scale says. Reading it takes digit after digit without rounding, since mantissa and scale
stay within their bounds, and gives the decimal back. Only a zero loses its sign.
-/

namespace Taxonomy.Decimal

variable {r : Reading} {c : Char} {cs rest : List Char} {ds : List Nat} {d : Decimal}

/-- The decimal without the sign of a zero. -/
def dropZeroSign (d : Decimal) : Decimal :=
  { d with negative := d.negative && d.mantissa != 0 }

@[simp] theorem scale_dropZeroSign (d : Decimal) : d.dropZeroSign.scale = d.scale := rfl

@[simp] theorem value_dropZeroSign (d : Decimal) : d.dropZeroSign.value = d.value := by
  have hnumerator : d.dropZeroSign.numerator = d.numerator := by
    by_cases hzero : d.mantissa = 0 <;> simp [numerator, dropZeroSign, hzero]
  rw [value, value, hnumerator, scale_dropZeroSign]

/-- A decimal that is no negative zero keeps its sign. -/
theorem dropZeroSign_eq_self (h : d.negative = true → d.mantissa ≠ 0) : d.dropZeroSign = d := by
  obtain ⟨negative, mantissa, scale, _, _⟩ := d
  cases negative <;> simp_all [dropZeroSign]

theorem dropZeroSign_ofInt64 (n : Int64) : (ofInt64 n).dropZeroSign = ofInt64 n := by
  apply dropZeroSign_eq_self
  intro hnegative
  have hbelow : n.toInt < 0 := of_decide_eq_true hnegative
  show n.toInt.natAbs ≠ 0
  omega

namespace Reading

/-- What has been read after one more digit that is not rounded. -/
def push (r : Reading) (digit : Nat) : Reading where
  mantissa := r.mantissa * 10 + digit
  scale := if r.afterPoint then r.scale + 1 else 0
  afterPoint := r.afterPoint
  anyDigit := true
  wide := r.wide || decide (wideBound ≤ r.mantissa * 10 + digit)

/-- What has been read after more digits. -/
def pushAll (r : Reading) (ds : List Nat) : Reading :=
  ds.foldl push r

theorem mantissa_pushAll (r : Reading) (ds : List Nat) :
    (r.pushAll ds).mantissa = r.mantissa * 10 ^ ds.length + Text.ofDigits 10 ds := by
  have hfold : (r.pushAll ds).mantissa = ds.foldl (fun n digit => n * 10 + digit) r.mantissa :=
    (List.foldl_hom mantissa fun _ _ => rfl).symm
  rw [hfold, Text.foldl_digits]

theorem afterPoint_pushAll (r : Reading) (ds : List Nat) :
    (r.pushAll ds).afterPoint = r.afterPoint := by
  induction ds generalizing r with
  | nil => rfl
  | cons digit ds ih => exact ih (r.push digit)

theorem anyDigit_pushAll (r : Reading) (hds : ds ≠ []) : (r.pushAll ds).anyDigit = true := by
  induction ds generalizing r with
  | nil => exact absurd rfl hds
  | cons digit ds ih =>
      by_cases hlast : ds = []
      · subst hlast
        rfl
      · exact ih (r.push digit) hlast

/-- After the point each digit is one place. -/
theorem scale_pushAll (h : r.afterPoint = true) (ds : List Nat) :
    (r.pushAll ds).scale = r.scale + ds.length := by
  induction ds generalizing r with
  | nil => rfl
  | cons digit ds ih =>
      have hplace : (r.push digit).scale = r.scale + 1 := if_pos h
      have hrest : (r.pushAll (digit :: ds)).scale = (r.push digit).scale + ds.length := ih h
      rw [hrest, hplace, List.length_cons]
      omega

/-- Before the point there are no places. -/
theorem scale_pushAll_whole (h : r.afterPoint = false) (hscale : r.scale = 0) (ds : List Nat) :
    (r.pushAll ds).scale = 0 := by
  induction ds generalizing r with
  | nil => exact hscale
  | cons digit ds ih =>
      have hplace : (r.push digit).scale = 0 := if_neg (by simp [h])
      exact ih (r := r.push digit) h hplace

/-- The mantissa only grows. -/
theorem mantissa_le_pushAll (r : Reading) (ds : List Nat) :
    r.mantissa ≤ (r.pushAll ds).mantissa := by
  have hpos : 0 < 10 ^ ds.length := Nat.pow_pos (by omega)
  have hgrows : r.mantissa ≤ r.mantissa * 10 ^ ds.length := Nat.le_mul_of_pos_right _ hpos
  rw [mantissa_pushAll]
  omega

end Reading

/-- A digit is read as it is while the mantissa fits and, after the point, there are places left or
the text ends. -/
theorem readDigits?_cons {digit : Nat} (hdigit : Text.digit? c = some digit)
    (hfits : (r.push digit).mantissa < Nat.pow 2 96)
    (hplaces : r.afterPoint = true → (r.push digit).scale ≠ 28 ∨ cs = []) :
    readDigits? r (c :: cs) = readDigits? (r.push digit) cs := by
  have hmantissa : ¬ Nat.pow 2 96 ≤ r.mantissa * 10 + digit := Nat.not_le.mpr hfits
  have hround : (r.afterPoint && (if r.afterPoint then r.scale + 1 else 0) == 28 &&
      !cs.isEmpty) = false := by
    cases hpoint : r.afterPoint with
    | false => rfl
    | true =>
        rcases hplaces hpoint with hscale | rfl
        · simp only [Reading.push, hpoint, if_true] at hscale
          simp only [Bool.true_and, if_true, beq_eq_false_iff_ne.mpr hscale, Bool.false_and]
        · simp
  rw [readDigits?]
  simp only [hdigit, if_neg hmantissa, hround, Bool.false_eq_true, if_false]
  rfl

/-- Digits are read as they are while their number fits the mantissa and, after the point, their
count fits the scale. -/
theorem readDigits?_append (hspells : Text.Spells Text.digit? cs ds)
    (hfits : (r.pushAll ds).mantissa < Nat.pow 2 96)
    (hplaces : r.afterPoint = true → rest = [] ∧ r.scale + cs.length ≤ 28) :
    readDigits? r (cs ++ rest) = readDigits? (r.pushAll ds) rest := by
  induction cs generalizing r ds with
  | nil =>
      obtain rfl := hspells.eq_nil
      rfl
  | cons c cs ih =>
      obtain ⟨digit, ds, rfl, hdigit, hspells⟩ := hspells.exists_cons
      have hfirst : (r.push digit).mantissa < Nat.pow 2 96 :=
        Nat.lt_of_le_of_lt ((r.push digit).mantissa_le_pushAll ds) hfits
      have hplace : r.afterPoint = true → (r.push digit).scale = r.scale + 1 := fun h => if_pos h
      have hroom : r.afterPoint = true → (r.push digit).scale ≠ 28 ∨ cs ++ rest = [] := by
        intro hpoint
        obtain ⟨rfl, hlength⟩ := hplaces hpoint
        rw [List.length_cons] at hlength
        rw [hplace hpoint, List.append_nil, ← List.length_eq_zero_iff]
        omega
      have hrest : r.afterPoint = true → rest = [] ∧ (r.push digit).scale + cs.length ≤ 28 := by
        intro hpoint
        obtain ⟨hend, hlength⟩ := hplaces hpoint
        rw [List.length_cons] at hlength
        refine ⟨hend, ?_⟩
        rw [hplace hpoint]
        omega
      rw [List.cons_append, readDigits?_cons hdigit hfirst hroom]
      exact ih hspells hfits hrest

/-- The point is passed once. -/
theorem readDigits?_cons_point (h : r.afterPoint = false) :
    readDigits? r ('.' :: cs) = readDigits? { r with afterPoint := true } cs := by
  have hdigit : Text.digit? '.' = none := by decide
  rw [readDigits?]
  simp [hdigit, h]

theorem readDigits?_nil (h : r.anyDigit = true) :
    readDigits? r [] = some (r.mantissa, r.scale) := by
  rw [readDigits?, if_pos h]

theorem mantissa_pushAll_start (ds : List Nat) :
    (Reading.start.pushAll ds).mantissa = Text.ofDigits 10 ds := by
  rw [Reading.mantissa_pushAll, Reading.start, Nat.zero_mul, Nat.zero_add]

/-- Digits without a point are a whole number. -/
theorem readDigits?_whole (hspells : Text.Spells Text.digit? cs ds) (hds : ds ≠ [])
    (hfits : Text.ofDigits 10 ds < Nat.pow 2 96) :
    readDigits? .start cs = some (Text.ofDigits 10 ds, 0) := by
  have hread : readDigits? .start (cs ++ []) = readDigits? (Reading.start.pushAll ds) [] := by
    apply readDigits?_append hspells
    · rwa [mantissa_pushAll_start]
    · intro hpoint
      cases hpoint
  rw [List.append_nil] at hread
  rw [hread, readDigits?_nil (Reading.anyDigit_pushAll _ hds), mantissa_pushAll_start,
    Reading.scale_pushAll_whole rfl rfl]

/-- Digits on both sides of a point are a number with as many places as there are digits behind
it. -/
theorem readDigits?_point {fraction : List Char} {fs : List Nat}
    (hspells : Text.Spells Text.digit? cs ds) (hfraction : Text.Spells Text.digit? fraction fs)
    (hfs : fs ≠ []) (hplaces : fs.length ≤ 28)
    (hfits : Text.ofDigits 10 (ds ++ fs) < Nat.pow 2 96) :
    readDigits? .start (cs ++ '.' :: fraction) = some (Text.ofDigits 10 (ds ++ fs), fs.length) := by
  -- The reading past the point, to which the digits behind it are added.
  let r : Reading := { Reading.start.pushAll ds with afterPoint := true }
  have hscale : r.scale = 0 := Reading.scale_pushAll_whole rfl rfl ds
  have hmantissa : (r.pushAll fs).mantissa = Text.ofDigits 10 (ds ++ fs) := by
    have hr : r.mantissa = Text.ofDigits 10 ds := mantissa_pushAll_start ds
    rw [Reading.mantissa_pushAll, hr, Text.ofDigits_append]
  have hfront : readDigits? .start (cs ++ '.' :: fraction) =
      readDigits? (Reading.start.pushAll ds) ('.' :: fraction) := by
    apply readDigits?_append hspells
    · exact Nat.lt_of_le_of_lt (r.mantissa_le_pushAll fs) (hmantissa ▸ hfits)
    · intro hpoint
      cases hpoint
  have hback : readDigits? r (fraction ++ []) = readDigits? (r.pushAll fs) [] := by
    apply readDigits?_append hfraction
    · rwa [hmantissa]
    · intro _
      rw [hscale, Nat.zero_add, hfraction.length_eq]
      exact ⟨rfl, hplaces⟩
  rw [List.append_nil] at hback
  rw [hfront, readDigits?_cons_point (Reading.afterPoint_pushAll _ ds)]
  show readDigits? r fraction = _
  rw [hback, readDigits?_nil (Reading.anyDigit_pushAll r hfs), hmantissa, Reading.scale_pushAll rfl,
    hscale, Nat.zero_add]

/-! ### The text of a decimal -/

/-- The text of a decimal without its sign. -/
def digitText (d : Decimal) : List Char :=
  let ds := Text.zeroPadded (d.scale + 1) d.mantissa
  let places := ds.length - d.scale
  if d.scale = 0 then ds else ds.take places ++ '.' :: ds.drop places

theorem toList_text (d : Decimal) :
    d.text.toList = (if d.negative then ['-'] else []) ++ d.digitText := by
  rw [text, String.toList_ofList]
  rfl

/-- The text has at least one digit before the point and as many after it as the scale says, and
together they denote the mantissa. -/
theorem exists_digitText_eq (d : Decimal) :
    ∃ whole fraction ws fs, Text.Spells Text.digit? whole ws ∧ Text.Spells Text.digit? fraction fs ∧
      whole ≠ [] ∧ fs.length = d.scale ∧ Text.ofDigits 10 (ws ++ fs) = d.mantissa ∧
      d.digitText = whole ++ if d.scale = 0 then [] else '.' :: fraction := by
  obtain ⟨ds, hspells, hvalue⟩ := Text.exists_spells_zeroPadded (d.scale + 1) d.mantissa
  have hwidth := Text.le_length_zeroPadded (d.scale + 1) d.mantissa
  rw [digitText]
  generalize Text.zeroPadded (d.scale + 1) d.mantissa = cs at hspells hwidth
  have hlength := hspells.length_eq
  refine ⟨cs.take (cs.length - d.scale), cs.drop (cs.length - d.scale),
    ds.take (cs.length - d.scale), ds.drop (cs.length - d.scale), hspells.take _, hspells.drop _,
    ?_, ?_, ?_, ?_⟩
  · rw [← List.length_pos_iff, List.length_take]
    omega
  · rw [List.length_drop]
    omega
  · rw [List.take_append_drop, hvalue]
  · by_cases hscale : d.scale = 0
    · simp [hscale]
    · simp only [if_neg hscale]

/-- Reading the digits of a decimal gives its mantissa and its scale. -/
theorem readDigits?_digitText (d : Decimal) :
    readDigits? .start d.digitText = some (d.mantissa, d.scale) := by
  obtain ⟨whole, fraction, ws, fs, hwhole, hfraction, hnonempty, hplaces, hvalue, htext⟩ :=
    exists_digitText_eq d
  have hfits : Text.ofDigits 10 (ws ++ fs) < Nat.pow 2 96 := by
    rw [hvalue]
    exact d.mantissa_lt
  rw [htext]
  by_cases hscale : d.scale = 0
  · have hfs : fs = [] := List.length_eq_zero_iff.mp (hplaces.trans hscale)
    subst hfs
    rw [List.append_nil] at hvalue hfits
    rw [if_pos hscale, List.append_nil, readDigits?_whole hwhole (hwhole.ne_nil hnonempty) hfits,
      hvalue, hscale]
  · have hfs : fs ≠ [] := by
      rw [← List.length_pos_iff, hplaces]
      omega
    rw [if_neg hscale, readDigits?_point hwhole hfraction hfs (hplaces ▸ d.scale_le) hfits, hvalue,
      hplaces]

/-- The text of a decimal starts with a digit after its sign. -/
theorem splitSign_append_digitText (d : Decimal) :
    splitSign ((if d.negative then ['-'] else []) ++ d.digitText) = (d.negative, d.digitText) := by
  obtain ⟨whole, _, ws, _, hwhole, _, hnonempty, _, _, htext⟩ := exists_digitText_eq d
  cases hnegative : d.negative with
  | true => rfl
  | false =>
      obtain ⟨c, cs, _, rfl, hdigit⟩ := hwhole.exists_head hnonempty
      have hminus : c ≠ '-' := Text.ne_of_digit? hdigit (by decide)
      have hplus : c ≠ '+' := Text.ne_of_digit? hdigit (by decide)
      rw [htext]
      simp [splitSign, hminus, hplus]

/-- A decimal is read back from its text with its value and its scale. -/
theorem read?_text (d : Decimal) : read? d.text = some d.dropZeroSign := by
  have hplain : readPlain? d.text.toList = some d.dropZeroSign := by
    rw [readPlain?, toList_text, splitSign_append_digitText]
    show (readDigits? .start d.digitText >>= _) = _
    rw [readDigits?_digitText]
    show ofParts? (d.negative && d.mantissa != 0) d.mantissa d.scale = _
    rw [ofParts?, dif_pos ⟨d.mantissa_lt, d.scale_le⟩]
    rfl
  rw [read?, hplain, Option.some_or]

end Taxonomy.Decimal
