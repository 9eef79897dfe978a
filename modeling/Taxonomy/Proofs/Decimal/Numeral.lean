import Taxonomy.Proofs.Decimal.Rounding
import Taxonomy.Proofs.Text.Split

/-!
# The number that a decimal is read from

A numeral is a sign, digits with an optional fraction and an optional exponent. The digits before
the exponent are read on their own, and the point is moved afterwards. Each of the two steps rounds,
so the decimal is the number that is written exactly if a decimal can hold what stands before the
exponent and can hold the whole number.
-/

namespace Taxonomy

open Decimal (Holds signed)

/-- A number as it is written. -/
structure Numeral where
  negative : Bool
  whole : List Nat
  fraction : List Nat
  exponent : Int

namespace Numeral

/-- The number that stands before the exponent. -/
def base (n : Numeral) : ℚ :=
  signed n.negative (Text.ofDigits 10 (n.whole ++ n.fraction) / 10 ^ n.fraction.length)

/-- The number that is written. -/
def value (n : Numeral) : ℚ :=
  n.base * 10 ^ n.exponent

/-- An optional sign. -/
inductive SignText : Bool → List Char → Prop
  | none : SignText false []
  | plus : SignText false ['+']
  | minus : SignText true ['-']

/-- Digits with an optional fraction. -/
inductive DigitsText : (whole fraction : List Nat) → List Char → Prop
  | whole {cs : List Char} {ds : List Nat} (hcs : cs ≠ [])
      (hspells : Text.Spells Text.digit? cs ds) : DigitsText ds [] cs
  | point {cs cs' : List Char} {ds ds' : List Nat} (hcs : cs ≠ [])
      (hspells : Text.Spells Text.digit? cs ds) (hspells' : Text.Spells Text.digit? cs' ds') :
      DigitsText ds ds' (cs ++ '.' :: cs')

/-- An optional exponent. -/
inductive ExponentText : Int → List Char → Prop
  | none : ExponentText 0 []
  | up {mark : Char} {sign cs : List Char} {ds : List Nat} (hmark : mark = 'e' ∨ mark = 'E')
      (hsign : SignText false sign) (hcs : cs ≠ []) (hspells : Text.Spells Text.digit? cs ds) :
      ExponentText (Text.ofDigits 10 ds) (mark :: (sign ++ cs))
  | down {mark : Char} {cs : List Char} {ds : List Nat} (hmark : mark = 'e' ∨ mark = 'E')
      (hcs : cs ≠ []) (hspells : Text.Spells Text.digit? cs ds) :
      ExponentText (-Text.ofDigits 10 ds) (mark :: '-' :: cs)

/-- The text is this numeral. -/
def Writes (n : Numeral) (cs : List Char) : Prop :=
  ∃ sign digits exponent, SignText n.negative sign ∧ DigitsText n.whole n.fraction digits ∧
    ExponentText n.exponent exponent ∧ cs = sign ++ (digits ++ exponent)

end Numeral

namespace Decimal

open Numeral (SignText DigitsText ExponentText)

variable {r : Reading} {c : Char} {cs sign digits rest : List Char} {ds whole fraction : List Nat}
variable {p : Nat × Nat} {d e : Decimal} {n : Nat} {negative : Bool} {m : Numeral} {t : String}

/-! ### The digits before the exponent -/

/-- Digits before the point are all kept or nothing is read. -/
theorem readDigits?_of_append (hpoint : r.afterPoint = false)
    (hspells : Text.Spells Text.digit? cs ds) (h : readDigits? r (cs ++ rest) = some p) :
    readDigits? (r.pushAll ds) rest = some p := by
  induction cs generalizing r ds with
  | nil =>
      obtain rfl := hspells.eq_nil
      exact h
  | cons c cs ih =>
      obtain ⟨digit, ds, rfl, hdigit, hspells⟩ := hspells.exists_cons
      have hfits : (r.push digit).mantissa < Nat.pow 2 96 := by
        by_contra hfull
        have hover : Nat.pow 2 96 ≤ r.mantissa * 10 + digit := Nat.not_lt.mp hfull
        rw [List.cons_append, readDigits?, hdigit] at h
        simp [hover, hpoint] at h
      have hplaces : r.afterPoint = true → (r.push digit).scale ≠ 28 ∨ cs ++ rest = [] := by
        intro hafter
        rw [hpoint] at hafter
        cases hafter
      rw [List.cons_append, readDigits?_cons hdigit hfits hplaces] at h
      exact ih (r := r.push digit) hpoint hspells h

/-- Digits with an optional fraction are read without a loss if a decimal can hold their number. -/
theorem readDigits?_digitsText (hdigits : DigitsText whole fraction digits) {mantissa scale : Nat}
    (h : readDigits? .start digits = some (mantissa, scale)) {k s : Nat} (hk : k < 2 ^ 96)
    (hs : s ≤ 28)
    (heq : Text.ofDigits 10 (whole ++ fraction) * 10 ^ s = k * 10 ^ fraction.length) :
    mantissa * 10 ^ fraction.length = Text.ofDigits 10 (whole ++ fraction) * 10 ^ scale := by
  cases hdigits with
  | whole hcs hspells =>
      rw [← List.append_nil digits] at h
      have hread := readDigits?_of_append rfl hspells h
      rw [readDigits?_nil (Reading.anyDigit_pushAll _ (hspells.ne_nil hcs)), mantissa_pushAll_start,
        Reading.scale_pushAll_whole rfl rfl] at hread
      cases hread
      rw [List.append_nil]
      rfl
  | @point cs cs' ds ds' _ hspells hspells' =>
      have hread := readDigits?_of_append rfl hspells h
      rw [readDigits?_cons_point (Reading.afterPoint_pushAll _ _)] at hread
      -- The reading past the point, to which the digits behind it are added.
      let r : Reading := { Reading.start.pushAll whole with afterPoint := true }
      have hrscale : r.scale = 0 := Reading.scale_pushAll_whole rfl rfl whole
      have hmantissa : (r.pushAll fraction).mantissa = Text.ofDigits 10 (whole ++ fraction) := by
        have hwhole : r.mantissa = Text.ofDigits 10 whole := mantissa_pushAll_start whole
        rw [Reading.mantissa_pushAll, hwhole, Text.ofDigits_append]
      have hscale : (r.pushAll fraction).scale = fraction.length := by
        rw [Reading.scale_pushAll rfl, hrscale, Nat.zero_add]
      have hexact := readDigits?_exact (r := r) rfl (fun _ => by omega) hspells' hread hk hs
      rw [hmantissa, hscale] at hexact
      exact hexact heq

/-- A numeral starts with a digit after its sign. -/
theorem exists_digit_of_digitsText (hdigits : DigitsText whole fraction digits) :
    ∃ c cs digit, digits = c :: cs ∧ Text.digit? c = some digit := by
  cases hdigits with
  | whole hcs hspells => exact hspells.exists_head hcs
  | point hcs hspells _ =>
      obtain ⟨c, cs, digit, rfl, hdigit⟩ := hspells.exists_head hcs
      exact ⟨c, _, digit, rfl, hdigit⟩

theorem splitSign_append (hsign : SignText negative sign)
    (hdigits : DigitsText whole fraction digits) :
    splitSign (sign ++ (digits ++ rest)) = (negative, digits ++ rest) := by
  cases hsign with
  | plus => rfl
  | minus => rfl
  | none =>
      obtain ⟨c, cs, digit, rfl, hdigit⟩ := exists_digit_of_digitsText hdigits
      have hminus : c ≠ '-' := Text.ne_of_digit? hdigit (by decide)
      have hplus : c ≠ '+' := Text.ne_of_digit? hdigit (by decide)
      simp [splitSign, hminus, hplus]

/-- A decimal is read from what a sign and the digits behind it give. -/
theorem exists_readDigits?_of_readPlain? (hsign : SignText negative sign)
    (hdigits : DigitsText whole fraction digits)
    (h : readPlain? (sign ++ (digits ++ rest)) = some d) :
    ∃ mantissa scale, readDigits? .start (digits ++ rest) = some (mantissa, scale) ∧
      ofParts? (negative && mantissa != 0) mantissa scale = some d := by
  rw [readPlain?, splitSign_append hsign hdigits] at h
  obtain ⟨⟨mantissa, scale⟩, hread, hparts⟩ := Option.bind_eq_some_iff.mp h
  exact ⟨mantissa, scale, hread, hparts⟩

/-- A number without an exponent is read as itself exactly if a decimal can hold it. -/
theorem readPlain?_value_iff (hsign : SignText negative sign)
    (hdigits : DigitsText whole fraction digits) (h : readPlain? (sign ++ digits) = some d) {q : ℚ}
    (hq : q = signed negative (Text.ofDigits 10 (whole ++ fraction) / 10 ^ fraction.length)) :
    d.value = q ↔ Holds q := by
  constructor
  · intro hvalue
    exact ⟨d, hvalue⟩
  · intro hheld
    subst hq
    obtain ⟨k, s, hk, hs, heq⟩ := holds_signed_iff.mp hheld
    rw [← List.append_nil digits] at h
    obtain ⟨mantissa, scale, hread, hparts⟩ := exists_readDigits?_of_readPlain? hsign hdigits h
    rw [List.append_nil] at hread
    rw [value_of_ofParts? hparts, signed_and_ne_zero, signed_inj, div_eq_div_iff_mul]
    exact readDigits?_digitsText hdigits hread hk hs heq

/-! ### The exponent -/

section Mark

-- A character that is neither a digit nor stands between digits.
variable (hdigit : Text.digit? c = none) (hpoint : c ≠ '.') (hunderscore : c ≠ '_')

include hdigit hunderscore in
theorem not_mem_of_roundOn? {digit : Nat} (h : roundOn? r digit cs = some p) : c ∉ cs := by
  intro hmem
  rw [roundOn?] at h
  split at h
  · cases h
  · rename_i hall
    rw [Bool.not_eq_true', Bool.not_eq_false, List.all_eq_true] at hall
    have htrailing := hall c hmem
    simp [isTrailing, Text.isDigit, hdigit, hunderscore] at htrailing

include hdigit hunderscore in
theorem not_mem_of_roundPlace? (h : roundPlace? r cs = some p) : c ∉ cs := by
  induction cs with
  | nil => exact List.not_mem_nil
  | cons c' cs ih =>
      rw [roundPlace?] at h
      apply List.not_mem_cons_of_ne_of_not_mem
      · rintro rfl
        simp [hunderscore, hdigit] at h
      · split at h
        · split at h
          · exact ih h
          · exact not_mem_of_roundOn? hdigit hunderscore h
        · split at h
          · exact not_mem_of_roundOn? hdigit hunderscore h
          · cases h

include hdigit hpoint hunderscore in
/-- What is read as digits holds no exponent mark. -/
theorem not_mem_of_readDigits? (h : readDigits? r cs = some p) : c ∉ cs := by
  induction cs generalizing r with
  | nil => exact List.not_mem_nil
  | cons c' cs ih =>
      rw [readDigits?] at h
      apply List.not_mem_cons_of_ne_of_not_mem
      · rintro rfl
        simp [hdigit, hpoint, hunderscore] at h
      · split at h
        · simp only at h
          generalize (if r.afterPoint = true then r.scale + 1 else 0) = places at h
          split at h
          · split at h
            · exact not_mem_of_roundOn? hdigit hunderscore h
            · cases h
          · split at h
            · exact not_mem_of_roundPlace? hdigit hunderscore h
            · exact ih h
        · split at h
          · exact ih h
          · split at h
            · exact ih h
            · cases h

end Mark

/-- The marks of an exponent. -/
def isMark (c : Char) : Bool :=
  c == 'e' || c == 'E'

theorem isMark_of_digit? {digit : Nat} (h : Text.digit? c = some digit) : isMark c = false := by
  have hlower : c ≠ 'e' := Text.ne_of_digit? h (by decide)
  have hupper : c ≠ 'E' := Text.ne_of_digit? h (by decide)
  simp [isMark, hlower, hupper]

/-- Nothing before the exponent is a mark of it. -/
theorem isMark_of_mem (hsign : SignText negative sign) (hdigits : DigitsText whole fraction digits)
    (hc : c ∈ sign ++ digits) : isMark c = false := by
  rcases List.mem_append.mp hc with hc | hc
  · cases hsign with
    | none => cases hc
    | plus =>
        obtain rfl := List.mem_singleton.mp hc
        rfl
    | minus =>
        obtain rfl := List.mem_singleton.mp hc
        rfl
  · cases hdigits with
    | whole _ hspells =>
        obtain ⟨digit, hdigit⟩ := hspells.exists_digit hc
        exact isMark_of_digit? hdigit
    | point _ hspells hspells' =>
        rcases List.mem_append.mp hc with hc | hc
        · obtain ⟨digit, hdigit⟩ := hspells.exists_digit hc
          exact isMark_of_digit? hdigit
        · rcases List.mem_cons.mp hc with rfl | hc
          · rfl
          · obtain ⟨digit, hdigit⟩ := hspells'.exists_digit hc
            exact isMark_of_digit? hdigit

/-! ### One numeral for a text -/

/-- What stands before and after the first character that satisfies a test. -/
def cutOr (isCut : Char → Bool) (cs : List Char) : List Char × List Char :=
  (Text.cutAt? isCut cs).getD (cs, [])

/-- The number of an exponent behind its mark. -/
def exponentValue : List Char → Int
  | '-' :: cs => -Text.ofDigits 10 (cs.filterMap Text.digit?)
  | cs => Text.ofDigits 10 (cs.filterMap Text.digit?)

/-- The numeral that a text can be: the exponent is cut off and the digits are cut at the point. -/
def numeralOf (cs : List Char) : Numeral :=
  let unsigned := splitSign cs
  let scientific := cutOr isMark unsigned.2
  let digits := cutOr (· == '.') scientific.1
  ⟨unsigned.1, digits.1.filterMap Text.digit?, digits.2.filterMap Text.digit?,
    exponentValue scientific.2⟩

theorem cutOr_isPoint (hdigits : DigitsText whole fraction digits) :
    (cutOr (· == '.') digits).1.filterMap Text.digit? = whole ∧
      (cutOr (· == '.') digits).2.filterMap Text.digit? = fraction := by
  have hnone {cs : List Char} {ds : List Nat} (hspells : Text.Spells Text.digit? cs ds) :
      ∀ c ∈ cs, (c == '.') = false := by
    intro c hc
    obtain ⟨digit, hdigit⟩ := hspells.exists_digit hc
    exact beq_false_of_ne (Text.ne_of_digit? hdigit (by decide))
  cases hdigits with
  | whole _ hspells =>
      rw [cutOr, Text.cutAt?_eq_none (hnone hspells)]
      exact ⟨hspells.filterMap_eq, rfl⟩
  | point _ hspells hspells' =>
      rw [cutOr, Text.cutAt?_append_cons (hnone hspells) (by decide)]
      exact ⟨hspells.filterMap_eq, hspells'.filterMap_eq⟩

theorem exponentValue_append (hsign : SignText false sign)
    (hspells : Text.Spells Text.digit? cs ds) : exponentValue (sign ++ cs) = Text.ofDigits 10 ds := by
  have hvalue : exponentValue (sign ++ cs) =
      Text.ofDigits 10 ((sign ++ cs).filterMap Text.digit?) := by
    cases hsign with
    | plus => rfl
    | none =>
        cases cs with
        | nil => rfl
        | cons c cs =>
            obtain ⟨digit, -, -, hdigit, -⟩ := hspells.exists_cons
            have hminus : c ≠ '-' := Text.ne_of_digit? hdigit (by decide)
            simp [exponentValue, hminus]
  have hplain : sign.filterMap Text.digit? = [] := by
    cases hsign <;> rfl
  rw [hvalue, List.filterMap_append, hplain, List.nil_append, hspells.filterMap_eq]

/-- The exponent is what stands behind the first mark. -/
theorem cutOr_isMark (hdigits : DigitsText whole fraction digits) {exponent : List Char} {k : Int}
    (hexponent : ExponentText k exponent) : (cutOr isMark (digits ++ exponent)).1 = digits ∧
      exponentValue (cutOr isMark (digits ++ exponent)).2 = k := by
  have hfront : ∀ c ∈ digits, isMark c = false := fun c hc => isMark_of_mem .none hdigits hc
  have hcut {mark : Char} (hmark : mark = 'e' ∨ mark = 'E') (rest : List Char) :
      cutOr isMark (digits ++ mark :: rest) = (digits, rest) := by
    rw [cutOr, Text.cutAt?_append_cons hfront]
    · rfl
    · rcases hmark with rfl | rfl <;> rfl
  cases hexponent with
  | none =>
      rw [List.append_nil, cutOr, Text.cutAt?_eq_none hfront]
      exact ⟨rfl, rfl⟩
  | up hmark hsign _ hspells =>
      rw [hcut hmark]
      exact ⟨rfl, exponentValue_append hsign hspells⟩
  | down hmark _ hspells =>
      rw [hcut hmark, exponentValue, hspells.filterMap_eq]
      exact ⟨rfl, rfl⟩

/-- A text is at most one numeral. -/
theorem eq_numeralOf (h : m.Writes cs) : m = numeralOf cs := by
  obtain ⟨sign, digits, exponent, hsign, hdigits, hexponent, rfl⟩ := h
  obtain ⟨hfront, hvalue⟩ := cutOr_isMark hdigits hexponent
  obtain ⟨hwhole, hfraction⟩ := cutOr_isPoint hdigits
  simp only [numeralOf, splitSign_append hsign hdigits, hfront, hvalue, hwhole, hfraction]

/-! ### With an exponent and without -/

/-- Without an exponent a number is read in the plain form or not at all. -/
theorem readPlain?_of_read? (hsign : SignText negative sign)
    (hdigits : DigitsText whole fraction digits) (ht : t.toList = sign ++ digits)
    (h : read? t = some d) : readPlain? (sign ++ digits) = some d := by
  have hcut : Text.cutAt? isMark (sign ++ digits) = none := by
    apply Text.cutAt?_eq_none
    intro c hc
    exact isMark_of_mem hsign hdigits hc
  have hscientific : readScientific? (sign ++ digits) = none := by
    show (Text.cutAt? isMark (sign ++ digits) >>= _) = none
    rw [hcut]
    rfl
  rwa [read?, ht, hscientific, Option.or_none] at h

/-- With an exponent a number is read in the scientific form or not at all. -/
theorem readScientific?_of_read? (hsign : SignText negative sign)
    (hdigits : DigitsText whole fraction digits) (hmark : c = 'e' ∨ c = 'E')
    (ht : t.toList = sign ++ (digits ++ c :: rest)) (h : read? t = some d) :
    readScientific? (sign ++ (digits ++ c :: rest)) = some d := by
  have hplain : readPlain? (sign ++ (digits ++ c :: rest)) = none := by
    rw [Option.eq_none_iff_forall_ne_some]
    intro e he
    obtain ⟨mantissa, scale, hread, -⟩ := exists_readDigits?_of_readPlain? hsign hdigits he
    have hmem : c ∈ digits ++ c :: rest := by simp
    rcases hmark with rfl | rfl
    · exact not_mem_of_readDigits? (by decide) (by decide) (by decide) hread hmem
    · exact not_mem_of_readDigits? (by decide) (by decide) (by decide) hread hmem
  rwa [read?, ht, hplain, Option.none_or] at h

/-- The scientific form reads the digits before the exponent and moves the point. -/
theorem readScientific?_append (hsign : SignText negative sign)
    (hdigits : DigitsText whole fraction digits) (hmark : c = 'e' ∨ c = 'E') :
    readScientific? (sign ++ (digits ++ c :: rest)) = (readPlain? (sign ++ digits)).bind fun d =>
      match rest with
      | '-' :: cs => (readExponent? cs).bind d.shiftDown?
      | cs => (readExponent? cs).bind d.shiftUp? := by
  have hcut : Text.cutAt? isMark (sign ++ digits ++ c :: rest) = some (sign ++ digits, rest) := by
    apply Text.cutAt?_append_cons
    · intro c hc
      exact isMark_of_mem hsign hdigits hc
    · rcases hmark with rfl | rfl <;> rfl
  rw [List.append_assoc] at hcut
  show (Text.cutAt? isMark (sign ++ (digits ++ c :: rest)) >>= _) = _
  rw [hcut]
  rfl

/-- An exponent is read as its digits. -/
theorem readExponent?_of_spells (hsign : SignText false sign)
    (hspells : Text.Spells Text.digit? cs ds) (hcs : cs ≠ [])
    (h : readExponent? (sign ++ cs) = some n) : n = Text.ofDigits 10 ds := by
  have hdigits : readExponent? (sign ++ cs) =
      (Text.readDigits Text.digit? 10 (Nat.pow 2 32 - 1) 0 cs).toOption := by
    cases hsign with
    | none => rw [List.nil_append, readExponent?, Text.readUnsigned_digits hspells hcs]
    | plus => rw [List.singleton_append, readExponent?, Text.readUnsigned_plus hcs]
  rw [hdigits] at h
  cases hread : Text.readDigits Text.digit? 10 (Nat.pow 2 32 - 1) 0 cs with
  | error fault =>
      rw [hread] at h
      cases h
  | ok k =>
      rw [hread] at h
      cases h
      exact Text.readDigits_of_spells hspells hread

/-- Without a minus sign the exponent moves the point to the right. -/
theorem exponent_of_up {β : Type} (hsign : SignText false sign)
    (hspells : Text.Spells Text.digit? cs ds) (hcs : cs ≠ []) (down up : List Char → β) :
    (match sign ++ cs with
      | '-' :: cs => down cs
      | cs => up cs) = up (sign ++ cs) := by
  cases hsign with
  | plus => rfl
  | none =>
      obtain ⟨c, cs, digit, rfl, hdigit⟩ := hspells.exists_head hcs
      have hminus : c ≠ '-' := Text.ne_of_digit? hdigit (by decide)
      simp [hminus]

/-! ### Moving the point -/

/-- Moving the point to the right is exact. -/
theorem shiftUp?_value (h : d.shiftUp? n = some e) : e.value = d.value * 10 ^ n := by
  have hpos : (10 : ℚ) ^ n ≠ 0 := by positivity
  rw [shiftUp?] at h
  split at h
  · rename_i hle
    obtain ⟨k, hk⟩ := Nat.exists_eq_add_of_le hle
    have hplaces : (10 : ℚ) ^ d.scale = 10 ^ k * 10 ^ n := by rw [hk, pow_add, mul_comm]
    rw [value_of_ofParts? h, value_eq_signed d, signed_mul, hplaces, div_mul_eq_mul_div,
      mul_div_mul_right _ _ hpos, hk, Nat.add_sub_cancel_left]
  · split at h
    · cases h
    · rename_i hmore hmost
      obtain ⟨k, hk⟩ := Nat.exists_eq_add_of_le (Nat.le_of_not_le hmore)
      have hplaces : (10 : ℚ) ^ n = 10 ^ d.scale * 10 ^ k := by rw [hk, pow_add]
      rw [value_of_ofParts? h, value_eq_signed d, signed_mul, hplaces, ← mul_assoc,
        div_mul_cancel₀ _ (by positivity), hk, Nat.add_sub_cancel_left, pow_zero, div_one]
      simp

/-- A number that is held with some places is held with the point moved by as many. -/
theorem holds_mul_pow (h : n ≤ d.scale) : Holds (d.value * 10 ^ n) := by
  have hbounds : d.mantissa < Nat.pow 2 96 ∧ d.scale - n ≤ 28 :=
    ⟨d.mantissa_lt, Nat.le_trans (Nat.sub_le _ _) d.scale_le⟩
  have hshift : d.shiftUp? n =
      some ⟨d.negative, d.mantissa, d.scale - n, hbounds.1, hbounds.2⟩ := by
    rw [shiftUp?, if_pos h, ofParts?, dif_pos hbounds]
  exact ⟨_, shiftUp?_value hshift⟩

/-- Moving the point to the left makes as many places. -/
theorem le_scale_of_shiftDown? (h : d.shiftDown? n = some e) : n ≤ e.scale := by
  rw [shiftDown?] at h
  split at h
  · cases h
  · rename_i hmost
    split at h
    · rw [scale_of_ofParts? h]
      omega
    · rw [scale_of_ofParts? h]
      omega

/-- Places that hold only zeros are dropped without a loss. -/
theorem dropPlaces_mul_pow (places k : Nat) : dropPlaces places (k * 10 ^ places) = k := by
  have hpos : 0 < 10 ^ places := by positivity
  have hhalf : 10 ^ places / 2 < 10 ^ places := Nat.div_lt_self hpos (by omega)
  rw [dropPlaces, Nat.pow_eq, Nat.add_comm, Nat.add_mul_div_right _ _ hpos, Nat.div_eq_of_lt hhalf,
    Nat.zero_add]

/-- Moving the point to the left gives the number exactly if a decimal can hold it. -/
theorem shiftDown?_value_iff (h : d.shiftDown? n = some e) :
    e.value = d.value / 10 ^ n ↔ Holds (d.value / 10 ^ n) := by
  constructor
  · intro hvalue
    exact ⟨e, hvalue⟩
  intro hheld
  have hplaces : d.value / 10 ^ n = signed d.negative (d.mantissa / 10 ^ (d.scale + n)) := by
    rw [value_eq_signed, div_eq_mul_inv, signed_mul, ← div_eq_mul_inv, div_div, ← pow_add]
  rw [hplaces] at hheld ⊢
  rw [shiftDown?] at h
  split at h
  · cases h
  · split at h
    · exact value_of_ofParts? h
    · rename_i hmore
      obtain ⟨places, hscale⟩ := Nat.exists_eq_add_of_le (Nat.le_of_not_le hmore)
      obtain ⟨k, s, hk, hs, heq⟩ := holds_signed_iff.mp hheld
      rw [hscale] at h heq ⊢
      have hzeros := eq_mul_pow_of_places hs heq
      rw [Nat.add_sub_cancel_left, hzeros, dropPlaces_mul_pow] at h
      rw [value_of_ofParts? h, signed_inj, div_eq_div_iff_mul, hzeros]
      ring

/-! ### Reading a numeral -/

/-- What is read before an exponent that moves the point to the right is kept. -/
theorem shiftUp?_value_iff_base {q : ℚ} (hq : d.value = q ↔ Holds q) (h : d.shiftUp? n = some e) :
    e.value = q * 10 ^ n ↔ Holds q ∧ Holds (q * 10 ^ n) := by
  have hpos : (10 : ℚ) ^ n ≠ 0 := by positivity
  constructor
  · intro hvalue
    refine ⟨?_, e, hvalue⟩
    rw [shiftUp?_value h, mul_left_inj' hpos] at hvalue
    exact hq.mp hvalue
  · rintro ⟨hheld, -⟩
    rw [shiftUp?_value h, hq.mpr hheld]

/-- What is read before an exponent that moves the point to the left is rounded at most twice. -/
theorem shiftDown?_value_iff_base {q : ℚ} (hq : d.value = q ↔ Holds q)
    (h : d.shiftDown? n = some e) :
    e.value = q / 10 ^ n ↔ Holds q ∧ Holds (q / 10 ^ n) := by
  have hpos : (10 : ℚ) ^ n ≠ 0 := by positivity
  constructor
  · intro hvalue
    refine ⟨?_, e, hvalue⟩
    -- The result has the places that the exponent asks for, so moving the point back is exact.
    have hback := holds_mul_pow (le_scale_of_shiftDown? h)
    rwa [hvalue, div_mul_cancel₀ _ hpos] at hback
  · rintro ⟨hheld, hresult⟩
    rw [← hq.mpr hheld] at hresult ⊢
    exact (shiftDown?_value_iff h).mpr hresult

/-- A numeral is read as its number exactly if a decimal can hold both what stands before the
exponent and the whole number. -/
theorem read?_value_iff (hwrites : m.Writes t.toList) (h : read? t = some d) :
    d.value = m.value ↔ Holds m.base ∧ Holds m.value := by
  obtain ⟨sign, digits, exponent, hsign, hdigits, hexponent, ht⟩ := hwrites
  rw [Numeral.value]
  generalize m.exponent = k at hexponent
  cases hexponent with
  | none =>
      rw [List.append_nil] at ht
      have hplain := readPlain?_of_read? hsign hdigits ht h
      rw [zpow_zero, mul_one, and_self]
      exact readPlain?_value_iff hsign hdigits hplain rfl
  | @up mark sign' cs ds hmark hsign' hcs hspells =>
      have hscientific := readScientific?_of_read? hsign hdigits hmark ht h
      rw [readScientific?_append hsign hdigits hmark] at hscientific
      obtain ⟨base, hbase, hshift⟩ := Option.bind_eq_some_iff.mp hscientific
      rw [exponent_of_up hsign' hspells hcs] at hshift
      obtain ⟨n, hn, hshift⟩ := Option.bind_eq_some_iff.mp hshift
      obtain rfl := readExponent?_of_spells hsign' hspells hcs hn
      rw [zpow_natCast]
      exact shiftUp?_value_iff_base (readPlain?_value_iff hsign hdigits hbase rfl) hshift
  | @down mark cs ds hmark hcs hspells =>
      have hscientific := readScientific?_of_read? hsign hdigits hmark ht h
      rw [readScientific?_append hsign hdigits hmark] at hscientific
      obtain ⟨base, hbase, hshift⟩ := Option.bind_eq_some_iff.mp hscientific
      obtain ⟨n, hn, hshift⟩ := Option.bind_eq_some_iff.mp hshift
      obtain rfl := readExponent?_of_spells .none hspells hcs hn
      rw [zpow_neg, zpow_natCast, ← div_eq_mul_inv]
      exact shiftDown?_value_iff_base (readPlain?_value_iff hsign hdigits hbase rfl) hshift

end Decimal

end Taxonomy
