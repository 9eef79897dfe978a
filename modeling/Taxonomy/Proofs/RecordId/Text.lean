import Mathlib.Data.List.Basic
import Mathlib.Data.List.SplitLengths
import Taxonomy.Proofs.RecordId
import Taxonomy.Proofs.Text.Digits

/-!
# Identifiers read back from their text

The text of an identifier has the canonical form, and its digits denote the identifier: reading it
gives the identifier back. The other way round, a text in canonical form is the text of the
identifier that it denotes, apart from the case of its letters. So the case of the letters is all that
two texts of one identifier can differ in.
-/

namespace Taxonomy

namespace Text

theorem toList_toLower (s : String) : s.toLower.toList = s.toList.map Char.toLower :=
  String.toList_map

/-- A character is known by its lower case and by whether it is in upper case. -/
theorem eq_of_toLower_of_isUpper {c d : Char} (hlower : c.toLower = d.toLower)
    (hupper : c.isUpper = d.isUpper) : c = d := by
  unfold Char.toLower at hlower
  by_cases hc : c.isUpper = true
  · have hd : d.isUpper = true := hupper ▸ hc
    rw [dif_pos (of_decide_eq_true hc), dif_pos (of_decide_eq_true hd)] at hlower
    apply Char.ext
    exact (UInt32.add_left_inj _).mp (congrArg Char.val hlower)
  · rw [Bool.not_eq_true] at hc
    have hd : d.isUpper = false := hupper ▸ hc
    rwa [dif_neg (of_decide_eq_false hc), dif_neg (of_decide_eq_false hd)] at hlower

/-- A text is known by its lower case and by which of its letters are in upper case. -/
theorem eq_of_toLower_of_map_isUpper {s t : String} (hlower : s.toLower = t.toLower)
    (hupper : s.toList.map Char.isUpper = t.toList.map Char.isUpper) : s = t := by
  have hletters : s.toList.map Char.toLower = t.toList.map Char.toLower := by
    rw [← toList_toLower, hlower, toList_toLower]
  have hinjective : Function.Injective (fun c : Char => (c.toLower, c.isUpper)) := by
    intro c d hpair
    exact eq_of_toLower_of_isUpper (congrArg Prod.fst hpair) (congrArg Prod.snd hpair)
  apply String.toList_injective
  apply hinjective.list_map
  rw [← List.zip_map', ← List.zip_map', hletters, hupper]

end Text

namespace RecordId

variable {id : RecordId} {cs : List Char} {s t : String} {groups : List (List Char)}

/-- Putting hyphens between groups undoes joining them. -/
theorem hyphenated_flatten (groups : List (List Char)) :
    hyphenated (groups.map List.length) groups.flatten = ['-'].intercalate groups := by
  induction groups with
  | nil => rfl
  | cons group groups ih =>
      cases groups with
      | nil => simp [hyphenated]
      | cons next groups =>
          have hunfold (length next : Nat) (lengths : List Nat) (cs : List Char) :
              hyphenated (length :: next :: lengths) cs =
                cs.take length ++ '-' :: hyphenated (next :: lengths) (cs.drop length) := rfl
          rw [List.intercalate_cons_cons, ← ih, List.map_cons, List.map_cons, hunfold,
            List.flatten_cons, List.take_left, List.drop_left, List.append_assoc]
          rfl

/-- The hyphens are passed over when digits are collected. -/
theorem filterMap_intercalate (groups : List (List Char)) :
    (['-'].intercalate groups).filterMap Text.hexDigit? =
      groups.flatten.filterMap Text.hexDigit? := by
  have hhyphen : Text.hexDigit? '-' = none := by decide
  induction groups with
  | nil => rfl
  | cons group groups ih =>
      cases groups with
      | nil => simp
      | cons next groups =>
          rw [List.intercalate_cons_cons, List.filterMap_append, List.filterMap_append, ih,
            List.flatten_cons, List.filterMap_append]
          simp [hhyphen]

theorem map_toLower_intercalate (groups : List (List Char)) :
    (['-'].intercalate groups).map Char.toLower =
      ['-'].intercalate (groups.map (List.map Char.toLower)) := by
  have hhyphen : Char.toLower '-' = '-' := by decide
  induction groups with
  | nil => rfl
  | cons group groups ih =>
      cases groups with
      | nil => simp
      | cons next groups =>
          rw [List.map_cons] at ih
          rw [List.map_cons, List.map_cons, List.intercalate_cons_cons, List.intercalate_cons_cons,
            List.map_append, List.map_append, ih, List.map_singleton, hhyphen]

theorem digits_eq (id : RecordId) :
    id.digits = (Text.placeDigits 16 32 id.bits.toNat).map Text.hexChar := by
  rw [Text.placeDigits, List.map_map]
  rfl

theorem spells_digits (id : RecordId) :
    Text.Spells Text.hexDigit? id.digits (Text.placeDigits 16 32 id.bits.toNat) := by
  rw [Text.Spells, digits_eq, List.map_map]
  refine List.map_congr_left fun d hd => ?_
  exact Text.hexDigit?_hexChar (Text.lt_of_mem_placeDigits (by omega) hd)

theorem length_digits (id : RecordId) : id.digits.length = 32 := by
  rw [digits, List.length_map, List.length_range]

/-- The text of an identifier is made of its digits in groups. -/
theorem chars_eq (hlengths : groups.map List.length = groupLengths)
    (hdigits : groups.flatten = id.digits) : id.chars = ['-'].intercalate groups := by
  rw [chars, ← hlengths, ← hdigits, hyphenated_flatten]

theorem exists_groups (id : RecordId) :
    ∃ groups : List (List Char), groups.map List.length = groupLengths ∧
      groups.flatten = id.digits := by
  refine ⟨groupLengths.splitLengths id.digits, ?_, ?_⟩
  · apply List.map_splitLengths_length
    rw [length_digits]
    decide
  · apply List.flatten_splitLengths
    rw [length_digits]
    decide

/-- The text of an identifier has the canonical form. -/
theorem canonicalForm_chars (id : RecordId) : CanonicalForm id.chars := by
  obtain ⟨groups, hlengths, hdigits⟩ := exists_groups id
  refine ⟨groups, hlengths, ?_, (chars_eq hlengths hdigits).symm⟩
  intro group hgroup c hc
  have hmem : c ∈ id.digits := hdigits ▸ List.mem_flatten_of_mem hgroup hc
  have hdigit : Text.hexDigit? c ∈ (Text.placeDigits 16 32 id.bits.toNat).map some := by
    rw [← spells_digits id]
    exact List.mem_map_of_mem hmem
  obtain ⟨d, -, hd⟩ := List.mem_map.mp hdigit
  rw [Text.isHexDigit, ← hd, Option.isSome_some]

/-- The digits of the text denote the identifier. -/
theorem ofDigits_chars (id : RecordId) : ofDigits id.chars = id := by
  obtain ⟨groups, hlengths, hdigits⟩ := exists_groups id
  have hbound : id.bits.toNat < 16 ^ 32 := id.bits.isLt
  rw [ofDigits, chars_eq hlengths hdigits, filterMap_intercalate, hdigits,
    (spells_digits id).filterMap_eq, Text.ofDigits_placeDigits, Nat.mod_eq_of_lt hbound,
    BitVec.ofNat_toNat, BitVec.setWidth_eq]

/-- An identifier is read back from its text. -/
theorem read?_text (id : RecordId) : read? id.text = some id := by
  have hchars : id.text.toList = id.chars := String.toList_ofList
  have hcanonical : isCanonical id.text = true := by
    rw [isCanonical_iff, hchars]
    exact canonicalForm_chars id
  rw [read?, if_pos hcanonical, hchars, ofDigits_chars]

/-- A text in canonical form is the text of the identifier that it denotes, in lower case. -/
theorem chars_ofDigits (h : CanonicalForm cs) : (ofDigits cs).chars = cs.map Char.toLower := by
  obtain ⟨groups, hlengths, hdigits, rfl⟩ := h
  have hall : ∀ c ∈ groups.flatten, (Text.hexDigit? c).isSome = true := by
    intro c hc
    obtain ⟨group, hgroup, hmem⟩ := List.mem_flatten.mp hc
    exact hdigits group hgroup c hmem
  obtain ⟨ds, hspells⟩ := Text.exists_spells hall
  have hlength : ds.length = 32 := by
    rw [← hspells.length_eq, List.length_flatten, hlengths]
    decide
  have hsmall : ∀ d ∈ ds, d < 16 := by
    intro d hd
    obtain ⟨c, -, hc⟩ := hspells.exists_of_mem hd
    exact (Text.hexChar_of_hexDigit? hc).1
  have hbound : Text.ofDigits 16 ds < 2 ^ 128 := by
    have hpower := Text.ofDigits_lt (by omega) hsmall
    rwa [hlength] at hpower
  have hdigit : (ofDigits (['-'].intercalate groups)).digits =
      groups.flatten.map Char.toLower := by
    have hvalue : (ofDigits (['-'].intercalate groups)).bits.toNat = Text.ofDigits 16 ds := by
      rw [ofDigits, filterMap_intercalate, hspells.filterMap_eq, BitVec.toNat_ofNat,
        Nat.mod_eq_of_lt hbound]
    have hplaces := Text.placeDigits_ofDigits (by omega) hsmall
    rw [hlength] at hplaces
    rw [digits_eq, hvalue, hplaces]
    exact hspells.map_eq fun c d hc => (Text.hexChar_of_hexDigit? hc).2
  rw [map_toLower_intercalate]
  apply chars_eq
  · rw [List.map_map, groupLengths, ← hlengths]
    refine List.map_congr_left fun group _ => ?_
    exact List.length_map _
  · rw [hdigit, List.map_flatten]

theorem text_of_read? (h : read? s = some id) : id.text = s.toLower := by
  rw [read?] at h
  split at h
  · rename_i hcanonical
    obtain rfl := Option.some.inj h
    apply String.toList_injective
    have hchars : (ofDigits s.toList).text.toList = (ofDigits s.toList).chars :=
      String.toList_ofList
    rw [hchars, chars_ofDigits (isCanonical_iff.mp hcanonical), Text.toList_toLower]
  · cases h

/-! ### Which texts are read -/

theorem isSome_read?_iff : (read? s).isSome = true ↔ isCanonical s = true := by
  rw [read?]
  split <;> simp [*]

/-- Texts of identifiers are read alike exactly if they agree apart from the case of letters. -/
theorem read?_eq_read?_iff (hs : (read? s).isSome = true) (ht : (read? t).isSome = true) :
    read? s = read? t ↔ s.toLower = t.toLower := by
  obtain ⟨a, ha⟩ := Option.isSome_iff_exists.mp hs
  obtain ⟨b, hb⟩ := Option.isSome_iff_exists.mp ht
  rw [ha, hb, ← text_of_read? ha, ← text_of_read? hb, Option.some.injEq]
  constructor
  · rintro rfl
    rfl
  · intro htext
    apply Option.some.inj
    rw [← read?_text a, htext, read?_text]

/-- No digit is the first letter of a name, in either case. -/
theorem toLower_ne_of_isHexDigit {c : Char} (h : Text.isHexDigit c = true) : c.toLower ≠ 'u' := by
  obtain ⟨d, hd⟩ := Option.isSome_iff_exists.mp h
  obtain ⟨hsmall, hlower⟩ := Text.hexChar_of_hexDigit? hd
  rw [← hlower]
  interval_cases d <;> decide

/-- The reader of every text form reads a canonical text as the reader of canonical texts does. -/
theorem readAny?_of_canonical (h : isCanonical s = true) : readAny? s = read? s := by
  obtain ⟨c, rest, hcons, hdigit⟩ := (isCanonical_iff.mp h).exists_cons
  have hcanonical : isCanonicalChars (c :: rest) = true := by
    rw [← hcons]
    exact h
  have hbrace : c ≠ '\x7b' := by
    rintro rfl
    exact absurd hdigit (by decide)
  have hname : ((c :: rest).take nameStart.length).map Char.toLower ≠ nameStart := by
    intro hstart
    exact toLower_ne_of_isHexDigit hdigit (List.cons.inj hstart).1
  rw [read?, if_pos h, readAny?, hcons]
  simp only
  split
  · rename_i heq
    exact absurd (List.cons.inj heq).1 hbrace
  · rw [if_neg hname]
    simp [hcanonical]

/-- To read a text is to see that it is canonical and then to read it as any form. -/
theorem read?_eq_readAny? (s : String) :
    read? s = if isCanonical s = true then readAny? s else none := by
  by_cases h : isCanonical s = true
  · rw [if_pos h, readAny?_of_canonical h]
  · rw [if_neg h, read?, if_neg h]

end RecordId

end Taxonomy
