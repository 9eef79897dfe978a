import Mathlib.Data.Nat.Digits.Defs
import Mathlib.Tactic.IntervalCases
import Taxonomy.Text.Blank
import Taxonomy.Text.Digits

/-!
# Digits read back

The characters of a number denote its digits, and the digits denote the number. Leading zeros add
nothing, so a number written at a fixed width reads back as itself, and a reader that takes digits
from the front of a text stops where the number ends.
-/

namespace Taxonomy.Text

variable {value? : Char → Option Nat} {cs cs' rest : List Char} {ds ds' : List Nat}
variable {b n width most : Nat} {c : Char} {d : Nat}

/-- The characters are digits of the given values. -/
def Spells (value? : Char → Option Nat) (cs : List Char) (ds : List Nat) : Prop :=
  cs.map value? = ds.map some

theorem Spells.append (h : Spells value? cs ds) (h' : Spells value? cs' ds') :
    Spells value? (cs ++ cs') (ds ++ ds') := by
  rw [Spells, List.map_append, List.map_append, h, h']

theorem Spells.take (h : Spells value? cs ds) (k : Nat) :
    Spells value? (cs.take k) (ds.take k) := by
  rw [Spells, List.map_take, List.map_take, h]

theorem Spells.drop (h : Spells value? cs ds) (k : Nat) :
    Spells value? (cs.drop k) (ds.drop k) := by
  rw [Spells, List.map_drop, List.map_drop, h]

theorem Spells.length_eq (h : Spells value? cs ds) : cs.length = ds.length := by
  have hlength := congrArg List.length h
  rwa [List.length_map, List.length_map] at hlength

theorem Spells.ne_nil (h : Spells value? cs ds) (hcs : cs ≠ []) : ds ≠ [] := by
  rwa [← List.length_pos_iff, ← h.length_eq, List.length_pos_iff]

theorem Spells.eq_nil (h : Spells value? [] ds) : ds = [] :=
  List.length_eq_zero_iff.mp h.length_eq.symm

/-- Characters that are all digits spell some digits. -/
theorem exists_spells (h : ∀ c ∈ cs, (value? c).isSome = true) : ∃ ds, Spells value? cs ds := by
  induction cs with
  | nil => exact ⟨[], rfl⟩
  | cons c cs ih =>
      obtain ⟨hhead, hrest⟩ := List.forall_mem_cons.mp h
      obtain ⟨d, hdigit⟩ := Option.isSome_iff_exists.mp hhead
      obtain ⟨ds, hspells⟩ := ih hrest
      refine ⟨d :: ds, ?_⟩
      rw [Spells, List.map_cons, List.map_cons, hdigit, hspells]

/-- The first character is a digit of the first value. -/
theorem Spells.exists_cons (h : Spells value? (c :: cs) ds) :
    ∃ d ds', ds = d :: ds' ∧ value? c = some d ∧ Spells value? cs ds' := by
  cases ds with
  | nil => cases h
  | cons d ds' =>
      obtain ⟨hhead, hrest⟩ := List.cons.inj h
      exact ⟨d, ds', rfl, hhead, hrest⟩

/-- A text of digits that is not empty starts with a digit. -/
theorem Spells.exists_head (h : Spells value? cs ds) (hcs : cs ≠ []) :
    ∃ c rest d, cs = c :: rest ∧ value? c = some d := by
  obtain ⟨c, rest, rfl⟩ := List.exists_cons_of_ne_nil hcs
  obtain ⟨d, -, -, hdigit, -⟩ := h.exists_cons
  exact ⟨c, rest, d, rfl, hdigit⟩

theorem Spells.exists_of_mem (h : Spells value? cs ds) (hd : d ∈ ds) :
    ∃ c ∈ cs, value? c = some d := by
  have hmem : some d ∈ cs.map value? := by
    rw [h]
    exact List.mem_map_of_mem hd
  exact List.mem_map.mp hmem

theorem Spells.exists_digit (h : Spells value? cs ds) (hc : c ∈ cs) : ∃ d, value? c = some d := by
  have hmem : value? c ∈ ds.map some := by
    rw [← h]
    exact List.mem_map_of_mem hc
  obtain ⟨d, -, hdigit⟩ := List.mem_map.mp hmem
  exact ⟨d, hdigit.symm⟩

/-- Digits written in one way are the characters written in another if this is so for each. -/
theorem Spells.map_eq {α : Type} {f : Nat → α} {g : Char → α}
    (h : Spells value? cs ds) (heq : ∀ c d, value? c = some d → f d = g c) :
    ds.map f = cs.map g := by
  induction cs generalizing ds with
  | nil =>
      obtain rfl := h.eq_nil
      rfl
  | cons c cs ih =>
      obtain ⟨d, ds', rfl, hdigit, hspells⟩ := h.exists_cons
      rw [List.map_cons, List.map_cons, heq c d hdigit, ih hspells]

theorem Spells.filterMap_eq (h : Spells value? cs ds) : cs.filterMap value? = ds := by
  have hall : (cs.map value?).filterMap id = ds := by
    rw [h, List.filterMap_map]
    exact List.filterMap_some
  rwa [List.filterMap_map] at hall

/-! ### The number that digits denote -/

/-- The digits here are in reading order, those of `Nat.ofDigits` start from the last place. -/
theorem ofDigits_eq (b : Nat) (ds : List Nat) : ofDigits b ds = Nat.ofDigits b ds.reverse := by
  rw [ofDigits, Nat.ofDigits_eq_foldr, List.foldr_reverse]
  congr
  funext n d
  rw [Nat.cast_id, Nat.mul_comm, Nat.add_comm]

theorem ofDigits_append (b : Nat) (ds ds' : List Nat) :
    ofDigits b (ds ++ ds') = ofDigits b ds * b ^ ds'.length + ofDigits b ds' := by
  rw [ofDigits_eq, List.reverse_append, Nat.ofDigits_append, List.length_reverse, ← ofDigits_eq,
    ← ofDigits_eq, Nat.mul_comm, Nat.add_comm]

theorem ofDigits_singleton (b d : Nat) : ofDigits b [d] = d := by
  rw [ofDigits_eq, List.reverse_singleton, Nat.ofDigits_singleton]

/-- Digits that are read on top of a number. -/
theorem foldl_digits (b n : Nat) (ds : List Nat) :
    ds.foldl (fun n d => n * b + d) n = n * b ^ ds.length + ofDigits b ds := by
  have happend := ofDigits_append b [n] ds
  rw [ofDigits_singleton, ofDigits, List.singleton_append, List.foldl_cons, Nat.zero_mul,
    Nat.zero_add] at happend
  exact happend

/-- Leading zeros add nothing. -/
theorem ofDigits_replicate_append (b k : Nat) (ds : List Nat) :
    ofDigits b (List.replicate k 0 ++ ds) = ofDigits b ds := by
  induction k with
  | zero => rfl
  | succ k ih =>
      rw [List.replicate_succ, List.cons_append]
      simpa [ofDigits] using ih

/-- Zeros at the end multiply. -/
theorem ofDigits_append_replicate (b k : Nat) (ds : List Nat) :
    ofDigits b (ds ++ List.replicate k 0) = ofDigits b ds * b ^ k := by
  have hzeros : ofDigits b (List.replicate k 0) = 0 := by
    rw [← List.append_nil (List.replicate k 0), ofDigits_replicate_append]
    rfl
  rw [ofDigits_append, hzeros, List.length_replicate, Nat.add_zero]

theorem ofDigits_lt (hb : 1 < b) (h : ∀ d ∈ ds, d < b) : ofDigits b ds < b ^ ds.length := by
  rw [ofDigits_eq, ← List.length_reverse]
  apply Nat.ofDigits_lt_base_pow_length hb
  intro d hd
  exact h d (List.mem_reverse.mp hd)

/-- Digits of one length are determined by the number that they denote. -/
theorem ofDigits_inj (hb : 1 < b) (hlength : ds.length = ds'.length) (h : ∀ d ∈ ds, d < b)
    (h' : ∀ d ∈ ds', d < b) (heq : ofDigits b ds = ofDigits b ds') : ds = ds' := by
  rw [ofDigits_eq, ofDigits_eq] at heq
  apply List.reverse_inj.mp
  apply Nat.ofDigits_inj_of_len_eq hb
  · rw [List.length_reverse, List.length_reverse, hlength]
  · intro d hd
    exact h d (List.mem_reverse.mp hd)
  · intro d hd
    exact h' d (List.mem_reverse.mp hd)
  · exact heq

/-! ### Digits at a fixed width -/

/-- The digits of a number at a fixed width, greatest place first. -/
def placeDigits (b width n : Nat) : List Nat :=
  (List.range width).map fun i => n / b ^ (width - 1 - i) % b

theorem length_placeDigits (b width n : Nat) : (placeDigits b width n).length = width := by
  rw [placeDigits, List.length_map, List.length_range]

theorem lt_of_mem_placeDigits (hb : 0 < b) (hd : d ∈ placeDigits b width n) : d < b := by
  obtain ⟨i, -, rfl⟩ := List.mem_map.mp hd
  exact Nat.mod_lt _ hb

/-- The last digit is split off. -/
theorem placeDigits_succ (b width n : Nat) :
    placeDigits b (width + 1) n = placeDigits b width (n / b) ++ [n % b] := by
  have hplace : ∀ i ∈ List.range width,
      n / b ^ (width + 1 - 1 - i) % b = n / b / b ^ (width - 1 - i) % b := by
    intro i hi
    rw [List.mem_range] at hi
    have hpower : width + 1 - 1 - i = width - 1 - i + 1 := by omega
    rw [hpower, Nat.pow_succ, Nat.mul_comm, Nat.div_div_eq_div_mul]
  rw [placeDigits, List.range_succ, List.map_append, List.map_singleton, List.map_congr_left hplace]
  simp [placeDigits]

/-- The digits at a width denote what of the number fits the width. -/
theorem ofDigits_placeDigits (b width n : Nat) :
    ofDigits b (placeDigits b width n) = n % b ^ width := by
  induction width generalizing n with
  | zero => simp [placeDigits, ofDigits, Nat.mod_one]
  | succ width ih =>
      rw [placeDigits_succ, ofDigits_append, ofDigits_singleton, ih, List.length_singleton, pow_one,
        Nat.pow_succ, Nat.mul_comm (b ^ width), Nat.mod_mul, Nat.mul_comm b, Nat.add_comm]

/-- Digits are the digits of the number that they denote. -/
theorem placeDigits_ofDigits (hb : 1 < b) (h : ∀ d ∈ ds, d < b) :
    placeDigits b ds.length (ofDigits b ds) = ds := by
  apply ofDigits_inj hb (length_placeDigits b ds.length _)
  · intro d hd
    exact lt_of_mem_placeDigits (by omega) hd
  · exact h
  · rw [ofDigits_placeDigits, Nat.mod_eq_of_lt (ofDigits_lt hb h)]

/-! ### Decimal text -/

theorem digit?_digitChar (h : d < 10) : digit? d.digitChar = some d := by
  interval_cases d <;> rfl

theorem toNat_of_digit? (h : digit? c = some d) : 48 ≤ c.toNat ∧ c.toNat ≤ 57 := by
  rw [digit?] at h
  split at h
  · rename_i hrange
    exact hrange
  · cases h

theorem lt_of_digit? (h : digit? c = some d) : d < 10 := by
  have hrange := toNat_of_digit? h
  rw [digit?] at h
  split at h
  · cases h
    omega
  · cases h

theorem exists_spells_toDigits (n : Nat) :
    ∃ ds, Spells digit? (Nat.toDigits 10 n) ds ∧ ofDigits 10 ds = n := by
  induction n using Nat.strongRecOn with
  | ind n ih =>
      by_cases hsmall : n < 10
      · refine ⟨[n], ?_, ofDigits_singleton 10 n⟩
        rw [Nat.toDigits_of_lt_base hsmall, Spells, List.map_singleton, digit?_digitChar hsmall,
          List.map_singleton]
      · obtain ⟨ds, hspells, hvalue⟩ := ih (n / 10) (by omega)
        have hlast : n % 10 < 10 := Nat.mod_lt n (by omega)
        have hsplit : Nat.toDigits 10 n =
            Nat.toDigits 10 (n / 10) ++ Nat.toDigits 10 (n % 10) := by
          rw [Nat.toDigits_append_toDigits (by omega) (by omega) hlast, Nat.div_add_mod]
        refine ⟨ds ++ [n % 10], ?_, ?_⟩
        · rw [hsplit, Nat.toDigits_of_lt_base hlast]
          refine hspells.append ?_
          rw [Spells, List.map_singleton, digit?_digitChar hlast, List.map_singleton]
        · rw [ofDigits_append, ofDigits_singleton, hvalue, List.length_singleton, pow_one]
          omega

/-- A number is written without leading zeros. -/
theorem exists_spells_toDigits_head (n : Nat) :
    ∃ d ds, Spells digit? (Nat.toDigits 10 n) (d :: ds) ∧ ofDigits 10 (d :: ds) = n ∧
      (d = 0 → ds = []) := by
  obtain ⟨ds, hspells, hvalue⟩ := exists_spells_toDigits n
  have hnonempty : Nat.toDigits 10 n ≠ [] := by
    rw [← List.length_pos_iff]
    exact Nat.length_toDigits_pos
  obtain ⟨d, ds, rfl⟩ := List.exists_cons_of_ne_nil (hspells.ne_nil hnonempty)
  refine ⟨d, ds, hspells, hvalue, ?_⟩
  rintro rfl
  -- With a zero in front the other digits would do, and there are fewer of them.
  by_contra hmore
  have hsmall : n < 10 ^ ds.length := by
    have hdigits : ∀ digit ∈ ds, digit < 10 := by
      intro digit hdigit
      obtain ⟨c, _, hc⟩ := hspells.exists_of_mem (List.mem_cons_of_mem 0 hdigit)
      exact lt_of_digit? hc
    have hsame : ofDigits 10 (0 :: ds) = ofDigits 10 ds := ofDigits_replicate_append 10 1 ds
    rw [← hvalue, hsame]
    exact ofDigits_lt (by omega) hdigits
  have hlength := (Nat.length_toDigits_le_iff (b := 10) (by omega)
    (List.length_pos_iff.mpr hmore)).mpr hsmall
  rw [hspells.length_eq, List.length_cons] at hlength
  omega

/-- A number filled with zeros spells digits that denote it. -/
theorem exists_spells_zeroPadded (width n : Nat) :
    ∃ ds, Spells digit? (zeroPadded width n) ds ∧ ofDigits 10 ds = n := by
  obtain ⟨ds, hspells, hvalue⟩ := exists_spells_toDigits n
  refine ⟨List.replicate (width - (Nat.toDigits 10 n).length) 0 ++ ds, ?_, ?_⟩
  · refine Spells.append ?_ hspells
    rw [Spells, List.map_replicate, List.map_replicate]
    rfl
  · rw [ofDigits_replicate_append, hvalue]

theorem length_zeroPadded_eq_max (width n : Nat) :
    (zeroPadded width n).length = max width (Nat.toDigits 10 n).length := by
  rw [zeroPadded, List.length_append, List.length_replicate]
  omega

theorem le_length_zeroPadded (width n : Nat) : width ≤ (zeroPadded width n).length := by
  rw [length_zeroPadded_eq_max]
  omega

/-- A number that fits the width is written with exactly as many digits. -/
theorem length_zeroPadded (hwidth : 0 < width) (h : n < 10 ^ width) :
    (zeroPadded width n).length = width := by
  have hdigits := (Nat.length_toDigits_le_iff (b := 10) (by omega) hwidth).mpr h
  rw [length_zeroPadded_eq_max]
  omega

theorem zeroPadded_one (n : Nat) : zeroPadded 1 n = Nat.toDigits 10 n := by
  have hdigits : 0 < (Nat.toDigits 10 n).length := Nat.length_toDigits_pos
  have hfilling : 1 - (Nat.toDigits 10 n).length = 0 := by omega
  rw [zeroPadded, hfilling]
  rfl

theorem ne_of_digit? {c' : Char} (h : digit? c = some d) (h' : digit? c' = none) : c ≠ c' := by
  rintro rfl
  rw [h] at h'
  cases h'

/-- A digit is no white space. -/
theorem isBlank_of_digit? (h : digit? c = some d) : isBlank c = false := by
  have hrange := toNat_of_digit? h
  simp only [isBlank, blankRanges, List.any_cons, List.any_nil, Bool.or_false, Bool.or_eq_false_iff,
    Bool.and_eq_false_iff, decide_eq_false_iff_not]
  omega

/-- There is no white space to drop in front of a digit. -/
theorem trimStart_of_spells (h : Spells digit? cs ds) (hcs : cs ≠ []) (rest : List Char) :
    trimStart (cs ++ rest) = cs ++ rest := by
  obtain ⟨c, cs', d, rfl, hdigit⟩ := h.exists_head hcs
  rw [trimStart, List.cons_append, List.dropWhile_cons_of_neg]
  simp [isBlank_of_digit? hdigit]

/-- Digits are taken up to the greatest count, or else up to a character that is no digit. -/
theorem spanDigits_of_spells (h : Spells digit? cs ds) (hmost : cs.length ≤ most)
    (hstop : cs.length < most → ∀ c ∈ rest.head?, digit? c = none) :
    spanDigits most (cs ++ rest) = (ds, rest) := by
  induction cs generalizing ds most with
  | nil =>
      obtain rfl := h.eq_nil
      rcases most with _ | most
      · rfl
      · rcases rest with _ | ⟨c, rest⟩
        · rfl
        · have hnone := hstop (Nat.succ_pos most) c rfl
          simp only [List.nil_append, spanDigits, hnone]
  | cons c cs ih =>
      obtain ⟨d, ds', rfl, hdigit, hspells⟩ := h.exists_cons
      obtain ⟨most, rfl⟩ := Nat.exists_eq_succ_of_ne_zero (Nat.ne_of_gt (Nat.lt_of_lt_of_le
        (Nat.succ_pos cs.length) hmost))
      rw [List.length_cons] at hmost hstop
      have hrest : spanDigits most (cs ++ rest) = (ds', rest) :=
        ih hspells (by omega) fun hlt => hstop (by omega)
      simp only [List.cons_append, Nat.succ_eq_add_one, spanDigits, hdigit, hrest]

/-- Digits that are taken from the front of a text spell what they denote. -/
theorem exists_spells_of_spanDigits (h : spanDigits most cs = (ds, rest)) :
    ∃ front, Spells digit? front ds ∧ front.length ≤ most ∧ front ++ rest = cs := by
  induction most generalizing cs ds with
  | zero =>
      cases h
      exact ⟨[], rfl, Nat.le_refl _, rfl⟩
  | succ most ih =>
      cases cs with
      | nil =>
          cases h
          exact ⟨[], rfl, Nat.zero_le _, rfl⟩
      | cons c cs =>
          simp only [spanDigits] at h
          cases hdigit : digit? c with
          | none =>
              rw [hdigit] at h
              cases h
              exact ⟨[], rfl, Nat.zero_le _, rfl⟩
          | some d =>
              rw [hdigit] at h
              cases h
              obtain ⟨front, hspells, hlength, happend⟩ := ih (Eq.refl (spanDigits most cs))
              refine ⟨c :: front, ?_, Nat.succ_le_succ hlength, congrArg (c :: ·) happend⟩
              rw [Spells, List.map_cons, List.map_cons, hdigit, hspells]

/-- Decimal digits denote a number below the power of ten of their count. -/
theorem Spells.ofDigits_lt (h : Spells digit? cs ds) : ofDigits 10 ds < 10 ^ ds.length := by
  refine Text.ofDigits_lt (by omega) fun d hd => ?_
  obtain ⟨c, -, hc⟩ := h.exists_of_mem hd
  exact lt_of_digit? hc

/-! ### How a number is written -/

/-- The characters are digits, one at least, and denote the number. -/
def Denotes (n : Nat) (cs : List Char) : Prop :=
  cs ≠ [] ∧ ∃ ds, Spells digit? cs ds ∧ ofDigits 10 ds = n

/-- The number is written with no fewer digits than the width, and with more only if there is no
zero in front. -/
structure Padded (width n : Nat) (cs : List Char) : Prop where
  denotes : Denotes n cs
  wide : width ≤ cs.length
  tight : width < cs.length → cs.head? ≠ some '0'

theorem digitChar_of_digit? (h : digit? c = some d) : d.digitChar = c := by
  have hrange := toNat_of_digit? h
  have hall : ∀ k ≤ 57, 48 ≤ k → (k - 48).digitChar = Char.ofNat k := by decide
  have hcode := hall c.toNat hrange.2 hrange.1
  rw [Char.ofNat_toNat] at hcode
  rw [digit?] at h
  split at h
  · cases h
    exact hcode
  · cases h

/-- Digits are determined by their values. -/
theorem Spells.inj (h : Spells digit? cs ds) (h' : Spells digit? cs' ds) : cs = cs' := by
  have hchars : ∀ {cs : List Char}, Spells digit? cs ds → ds.map Nat.digitChar = cs := fun h => by
    rw [h.map_eq fun c d hdigit => digitChar_of_digit? (c := c) hdigit, List.map_id']
  rw [← hchars h, hchars h']

/-- Digits without a zero in front denote a number that has as many places. -/
theorem Spells.pow_le_ofDigits (h : Spells digit? cs ds) (hcs : cs ≠ [])
    (hhead : cs.head? ≠ some '0') : 10 ^ (cs.length - 1) ≤ ofDigits 10 ds := by
  obtain ⟨c, cs, rfl⟩ := List.exists_cons_of_ne_nil hcs
  obtain ⟨d, ds, rfl, hdigit, hspells⟩ := h.exists_cons
  have hd : d ≠ 0 := by
    rintro rfl
    rw [← digitChar_of_digit? hdigit] at hhead
    exact hhead rfl
  have hvalue : ofDigits 10 (d :: ds) = d * 10 ^ ds.length + ofDigits 10 ds := by
    rw [← List.singleton_append, ofDigits_append, ofDigits_singleton]
  rw [hvalue, List.length_cons, Nat.add_sub_cancel, hspells.length_eq]
  have hplace : 1 * 10 ^ ds.length ≤ d * 10 ^ ds.length :=
    Nat.mul_le_mul_right _ (Nat.pos_of_ne_zero hd)
  omega

theorem padded_zeroPadded (hwidth : 0 < width) (n : Nat) : Padded width n (zeroPadded width n) where
  denotes := by
    refine ⟨?_, exists_spells_zeroPadded width n⟩
    rw [← List.length_pos_iff]
    exact Nat.lt_of_lt_of_le hwidth (le_length_zeroPadded width n)
  wide := le_length_zeroPadded width n
  tight := by
    intro hmore
    obtain ⟨d, ds, hspells, -, hzero⟩ := exists_spells_toDigits_head n
    have hdigits : (Nat.toDigits 10 n).length = ds.length + 1 := hspells.length_eq
    rw [length_zeroPadded_eq_max, hdigits] at hmore
    have hfilling : width - (ds.length + 1) = 0 := by omega
    obtain ⟨c, cs, hcs⟩ := List.exists_cons_of_length_eq_add_one hdigits
    rw [zeroPadded, hdigits, hfilling, List.replicate_zero, List.nil_append, hcs]
    rw [hcs] at hspells
    obtain ⟨_, _, heq, hdigit, -⟩ := hspells.exists_cons
    cases heq
    rintro ⟨rfl⟩
    -- A zero in front would be the only digit, and the width has room for it.
    obtain rfl := hzero (Option.some.inj hdigit).symm
    rw [List.length_nil] at hmore
    omega

/-- There is one way to write a number at a width. -/
theorem eq_zeroPadded_iff (hwidth : 0 < width) : cs = zeroPadded width n ↔ Padded width n cs := by
  refine ⟨fun h => h ▸ padded_zeroPadded hwidth n, fun h => ?_⟩
  obtain ⟨⟨hcs, ds, hspells, hvalue⟩, hwide, htight⟩ := h
  obtain ⟨ds', hspells', hvalue'⟩ := exists_spells_zeroPadded width n
  have hdigits : ∀ {cs : List Char} {ds : List Nat}, Spells digit? cs ds → ∀ d ∈ ds, d < 10 :=
    fun h d hd => by
      obtain ⟨c, -, hdigit⟩ := h.exists_of_mem hd
      exact lt_of_digit? hdigit
  have hbelow : n < 10 ^ cs.length := by
    rw [← hvalue, hspells.length_eq]
    exact hspells.ofDigits_lt
  have hlength : (zeroPadded width n).length = cs.length := by
    rcases Nat.eq_or_lt_of_le hwide with heq | hmore
    · rw [length_zeroPadded hwidth (heq ▸ hbelow), heq]
    · have habove : 10 ^ (cs.length - 1) ≤ n := hvalue ▸ hspells.pow_le_ofDigits hcs (htight hmore)
      have hatMost : (Nat.toDigits 10 n).length ≤ cs.length :=
        (Nat.length_toDigits_le_iff (b := 10) (by omega) (by omega)).mpr hbelow
      have hatLeast : ¬ (Nat.toDigits 10 n).length ≤ cs.length - 1 := fun hle => by
        rw [Nat.length_toDigits_le_iff (b := 10) (by omega) (by omega)] at hle
        omega
      rw [length_zeroPadded_eq_max]
      omega
  have hsame : ds = ds' := by
    refine ofDigits_inj (b := 10) (by omega) ?_ (hdigits hspells) (hdigits hspells')
      (hvalue.trans hvalue'.symm)
    rw [← hspells.length_eq, ← hspells'.length_eq, hlength]
  exact hspells.inj (hsame ▸ hspells')

/-! ### Unsigned numbers -/

variable {greatest m : Nat}

/-- Digits that are read on top of a number give the number that they denote there. -/
theorem readDigits_of_spells (hspells : Spells value? cs ds)
    (h : readDigits value? b greatest m cs = .ok n) : n = ds.foldl (fun n d => n * b + d) m := by
  induction cs generalizing m ds with
  | nil =>
      obtain rfl := hspells.eq_nil
      cases h
      rfl
  | cons c cs ih =>
      obtain ⟨d, ds', rfl, hdigit, hspells⟩ := hspells.exists_cons
      simp only [readDigits, hdigit] at h
      split at h
      · cases h
      · rw [List.foldl_cons]
        exact ih hspells h

/-- An unsigned number is its digits. -/
theorem readUnsigned_digits (hspells : Spells digit? cs ds) (hcs : cs ≠ []) :
    readUnsigned digit? b greatest cs = readDigits digit? b greatest 0 cs := by
  obtain ⟨c, cs, d, rfl, hdigit⟩ := hspells.exists_head hcs
  have hplus : c ≠ '+' := ne_of_digit? hdigit (by decide)
  simp [readUnsigned, hplus]

/-- A plus sign in front of an unsigned number is passed over. -/
theorem readUnsigned_plus (hcs : cs ≠ []) :
    readUnsigned value? b greatest ('+' :: cs) = readDigits value? b greatest 0 cs := by
  simp [readUnsigned]

/-- Digits that are read on top of a number denote no less. -/
theorem le_foldl_digits (hb : 0 < b) (n : Nat) (ds : List Nat) :
    n ≤ ds.foldl (fun n d => n * b + d) n := by
  rw [foldl_digits]
  have hplaces : n * 1 ≤ n * b ^ ds.length := Nat.mul_le_mul_left n (Nat.pow_pos hb)
  omega

/-- Reading succeeds exactly on digits that denote, on top of the number read so far, no more than
the greatest number. What is read on the way is never more than that. -/
theorem readDigits_eq_ok_iff (hb : 0 < b) (hm : m ≤ greatest) :
    readDigits value? b greatest m cs = .ok n ↔
      (∃ ds, Spells value? cs ds ∧ ds.foldl (fun n d => n * b + d) m = n) ∧ n ≤ greatest := by
  induction cs generalizing m with
  | nil =>
      constructor
      · intro h
        cases h
        exact ⟨⟨[], rfl, rfl⟩, hm⟩
      · rintro ⟨⟨ds, hspells, rfl⟩, -⟩
        obtain rfl := hspells.eq_nil
        rfl
  | cons c cs ih =>
      cases hdigit : value? c with
      | none =>
          simp only [readDigits, hdigit, reduceCtorEq, false_iff]
          rintro ⟨⟨ds, hspells, -⟩, -⟩
          obtain ⟨d, ds', -, hsome, -⟩ := hspells.exists_cons
          rw [hdigit] at hsome
          cases hsome
      | some d =>
          have hcons : (∃ ds, Spells value? (c :: cs) ds ∧
              ds.foldl (fun n d => n * b + d) m = n) ↔
              ∃ ds, Spells value? cs ds ∧ ds.foldl (fun n d => n * b + d) (m * b + d) = n := by
            constructor
            · rintro ⟨ds, hspells, hvalue⟩
              obtain ⟨d', ds', rfl, hsome, hrest⟩ := hspells.exists_cons
              cases hdigit.symm.trans hsome
              exact ⟨ds', hrest, hvalue⟩
            · rintro ⟨ds, hspells, hvalue⟩
              refine ⟨d :: ds, ?_, hvalue⟩
              rw [Spells, List.map_cons, List.map_cons, hdigit, hspells]
          simp only [readDigits, hdigit]
          rw [hcons]
          by_cases hlarge : greatest < m * b + d
          · simp only [if_pos hlarge, reduceCtorEq, false_iff]
            rintro ⟨⟨ds, -, rfl⟩, hle⟩
            have hfold := le_foldl_digits hb (m * b + d) ds
            omega
          · rw [if_neg hlarge]
            exact ih (Nat.not_lt.mp hlarge)

/-- The characters are those of a number, with or without a plus sign in front. -/
def DenotesUnsigned (n : Nat) (cs : List Char) : Prop :=
  ∃ digits, (cs = digits ∨ cs = '+' :: digits) ∧ Denotes n digits

/-- A decimal number is read if it is no more than the greatest number. -/
theorem readUnsigned_eq_ok_iff :
    readUnsigned digit? 10 greatest cs = .ok n ↔ DenotesUnsigned n cs ∧ n ≤ greatest := by
  have hdigits : ∀ {digits : List Char}, digits ≠ [] →
      (readDigits digit? 10 greatest 0 digits = .ok n ↔ Denotes n digits ∧ n ≤ greatest) := by
    intro digits hne
    rw [readDigits_eq_ok_iff (by omega) (Nat.zero_le _)]
    simp only [Denotes, ofDigits, hne, ne_eq, not_false_eq_true, true_and]
  constructor
  · intro h
    rcases cs with _ | ⟨c, cs⟩
    · cases h
    · by_cases hplus : c = '+'
      · subst hplus
        rcases cs with _ | ⟨c, cs⟩
        · cases h
        · rw [readUnsigned_plus (List.cons_ne_nil c cs), hdigits (List.cons_ne_nil c cs)] at h
          exact ⟨⟨c :: cs, .inr rfl, h.1⟩, h.2⟩
      · have hread : readUnsigned digit? 10 greatest (c :: cs) =
            readDigits digit? 10 greatest 0 (c :: cs) := by
          simp [readUnsigned, hplus]
        rw [hread, hdigits (List.cons_ne_nil c cs)] at h
        exact ⟨⟨c :: cs, .inl rfl, h.1⟩, h.2⟩
  · rintro ⟨⟨digits, rfl | rfl, hdenotes⟩, hle⟩
    · obtain ⟨hne, ds, hspells, -⟩ := id hdenotes
      rw [readUnsigned_digits hspells hne]
      exact (hdigits hne).mpr ⟨hdenotes, hle⟩
    · rw [readUnsigned_plus hdenotes.1]
      exact (hdigits hdenotes.1).mpr ⟨hdenotes, hle⟩

theorem readLength_eq_ok_iff {text : String} :
    readLength text = .ok n ↔ DenotesUnsigned n text.toList ∧ n < 2 ^ 64 := by
  rw [readLength, readUnsigned_eq_ok_iff, Nat.pow_eq]
  have hbound : n ≤ 2 ^ 64 - 1 ↔ n < 2 ^ 64 := by omega
  rw [hbound]

/-! ### Hexadecimal text -/

theorem hexDigit?_hexChar {n : Nat} (h : n < 16) : hexDigit? (hexChar n) = some n := by
  interval_cases n <;> rfl

/-- A hexadecimal digit has a value below sixteen and is the digit of that value, apart from its
case. -/
theorem hexChar_of_hexDigit? {c : Char} {n : Nat} (h : hexDigit? c = some n) :
    n < 16 ∧ hexChar n = c.toLower := by
  -- The three ranges of digits differ in nothing but their codes.
  have hcodes (first last offset : Nat) (hrange : first ≤ c.toNat ∧ c.toNat ≤ last)
      (hall : ∀ k ≤ last, first ≤ k →
        k - offset < 16 ∧ hexChar (k - offset) = (Char.ofNat k).toLower) :
      c.toNat - offset < 16 ∧ hexChar (c.toNat - offset) = c.toLower := by
    have hcode := hall c.toNat hrange.2 hrange.1
    rwa [Char.ofNat_toNat] at hcode
  rw [hexDigit?] at h
  split at h
  · rename_i hrange
    obtain rfl := Option.some.inj h
    exact hcodes 48 57 48 hrange (by decide)
  · split at h
    · rename_i hrange
      obtain rfl := Option.some.inj h
      exact hcodes 97 102 87 hrange (by decide)
    · split at h
      · rename_i hrange
        obtain rfl := Option.some.inj h
        exact hcodes 65 70 55 hrange (by decide)
      · cases h

theorem toNat_lt_of_isHexDigit {c : Char} (h : isHexDigit c = true) : c.toNat < 128 := by
  have hbelow : ∀ last : Char, c ≤ last → last.toNat < 128 → c.toNat < 128 := by
    intro last hc hlast
    exact Nat.lt_of_le_of_lt hc hlast
  rw [isHexDigit, hexDigit?] at h
  split at h
  · rename_i hrange
    exact hbelow '9' hrange.2 (by decide)
  · split at h
    · rename_i hrange
      exact hbelow 'f' hrange.2 (by decide)
    · split at h
      · rename_i hrange
        exact hbelow 'F' hrange.2 (by decide)
      · cases h

end Taxonomy.Text
