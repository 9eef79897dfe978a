import Taxonomy.Proofs.Text.Digits
import Taxonomy.Proofs.Text.Split
import Taxonomy.RecordId

/-!
# The canonical form of an identifier

The canonical form is said here as a form: five groups of hexadecimal digits of fixed
lengths, put together with hyphens. Reading it cuts the text at its hyphens, which are exactly those
between the groups because a hyphen is no digit.
-/

namespace Taxonomy.RecordId

/-- Five groups of 8, 4, 4, 4 and 12 hexadecimal digits in any letter case, with a hyphen between
one group and the next. -/
def CanonicalForm (cs : List Char) : Prop :=
  ∃ groups : List (List Char), groups.map List.length = [8, 4, 4, 4, 12] ∧
    (∀ group ∈ groups, ∀ c ∈ group, Text.isHexDigit c = true) ∧ ['-'].intercalate groups = cs

variable {cs : List Char} {s : String}

theorem areGroups_iff {groups : List (List Char)} {lengths : List Nat} :
    areGroups groups lengths = true ↔
      groups.map List.length = lengths ∧
        ∀ group ∈ groups, ∀ c ∈ group, Text.isHexDigit c = true := by
  induction groups generalizing lengths with
  | nil => cases lengths <;> simp [areGroups]
  | cons group groups ih =>
      cases lengths with
      | nil => simp [areGroups]
      | cons length lengths =>
          simp only [areGroups, Bool.and_eq_true, beq_iff_eq, List.all_eq_true, ih, List.map_cons,
            List.cons.injEq, List.forall_mem_cons]
          constructor
          · rintro ⟨⟨hlength, hgroup⟩, hlengths, hgroups⟩
            exact ⟨⟨hlength, hlengths⟩, hgroup, hgroups⟩
          · rintro ⟨⟨hlength, hlengths⟩, hgroup, hgroups⟩
            exact ⟨⟨hlength, hgroup⟩, hlengths, hgroups⟩

theorem hyphen_not_mem_of_hexDigits {group : List Char}
    (h : ∀ c ∈ group, Text.isHexDigit c = true) : '-' ∉ group := by
  intro hmem
  have hhyphen : Text.isHexDigit '-' = false := by decide
  rw [h '-' hmem] at hhyphen
  cases hhyphen

/-- The reader of the canonical text accepts the canonical form. -/
theorem isCanonicalChars_iff :
    isCanonicalChars cs = true ↔ CanonicalForm cs := by
  rw [isCanonicalChars, areGroups_iff, Text.splitAt_eq_splitOn]
  constructor
  · rintro ⟨hlengths, hdigits⟩
    exact ⟨cs.splitOn '-', hlengths, hdigits, List.intercalate_splitOn '-'⟩
  · rintro ⟨groups, hlengths, hdigits, rfl⟩
    have hnonempty : groups ≠ [] := by
      rintro rfl
      cases hlengths
    have hgroups : ∀ group ∈ groups, '-' ∉ group := fun group hgroup =>
      hyphen_not_mem_of_hexDigits (hdigits group hgroup)
    rw [List.splitOn_intercalate '-' hgroups hnonempty]
    exact ⟨hlengths, hdigits⟩

theorem isCanonical_iff : isCanonical s = true ↔ CanonicalForm s.toList :=
  isCanonicalChars_iff

/-! ### The characters of the form -/

/-- The five groups one by one. -/
theorem CanonicalForm.exists_groups (h : CanonicalForm cs) :
    ∃ a b c d e : List Char, cs = a ++ '-' :: (b ++ '-' :: (c ++ '-' :: (d ++ '-' :: e))) ∧
      a.length = 8 ∧ b.length = 4 ∧ c.length = 4 ∧ d.length = 4 ∧ e.length = 12 ∧
      ∀ x ∈ a ++ b ++ c ++ d ++ e, Text.isHexDigit x = true := by
  obtain ⟨groups, hlengths, hdigits, rfl⟩ := h
  obtain ⟨a, _, rfl, ha, hlengths⟩ := List.map_eq_cons_iff.mp hlengths
  obtain ⟨b, _, rfl, hb, hlengths⟩ := List.map_eq_cons_iff.mp hlengths
  obtain ⟨c, _, rfl, hc, hlengths⟩ := List.map_eq_cons_iff.mp hlengths
  obtain ⟨d, _, rfl, hd, hlengths⟩ := List.map_eq_cons_iff.mp hlengths
  obtain ⟨e, _, rfl, he, hlengths⟩ := List.map_eq_cons_iff.mp hlengths
  obtain rfl := List.map_eq_nil_iff.mp hlengths
  refine ⟨a, b, c, d, e, ?_, ha, hb, hc, hd, he, ?_⟩
  · simp [List.intercalate_cons_cons]
  · intro x hx
    obtain ⟨group, hgroup, hmem⟩ : ∃ group ∈ [a, b, c, d, e], x ∈ group := by
      simpa [or_assoc] using hx
    exact hdigits group hgroup x hmem

theorem CanonicalForm.length_eq (h : CanonicalForm cs) : cs.length = 36 := by
  obtain ⟨a, b, c, d, e, rfl, ha, hb, hc, hd, he, _⟩ := h.exists_groups
  simp [ha, hb, hc, hd, he]

theorem CanonicalForm.toNat_lt (h : CanonicalForm cs) {x : Char} (hx : x ∈ cs) :
    x.toNat < 128 := by
  obtain ⟨a, b, c, d, e, rfl, _, _, _, _, _, hdigits⟩ := h.exists_groups
  by_cases hhyphen : x = '-'
  · rw [hhyphen]
    decide
  · apply Text.toNat_lt_of_isHexDigit
    apply hdigits
    simpa [hhyphen, or_assoc] using hx

theorem CanonicalForm.exists_cons (h : CanonicalForm cs) :
    ∃ x rest, cs = x :: rest ∧ Text.isHexDigit x = true := by
  obtain ⟨a, b, c, d, e, rfl, ha, _, _, _, _, hdigits⟩ := h.exists_groups
  have hnonempty : 0 < a.length := by omega
  obtain ⟨x, rest, rfl⟩ := List.exists_cons_of_length_pos hnonempty
  exact ⟨x, _, rfl, hdigits x (by simp)⟩

/-- A text is canonical exactly if it is 36 characters of ASCII in the five groups. -/
theorem isCanonical_iff_ascii :
    isCanonical s = true ↔
      s.length = 36 ∧ (∀ c ∈ s.toList, c.toNat < 128) ∧ CanonicalForm s.toList := by
  rw [isCanonical_iff]
  constructor
  · intro h
    refine ⟨?_, fun c hc => h.toNat_lt hc, h⟩
    rw [← String.length_toList]
    exact h.length_eq
  · rintro ⟨_, _, h⟩
    exact h

end Taxonomy.RecordId
