import Mathlib.Tactic.SplitIfs
import Taxonomy.Text.Order

/-!
# Names in byte order

The order of names by code points is the order of their UTF-8 bytes. Two characters compare
like their octets, whatever follows them: a longer form starts with a larger octet, and forms of one
length are the same digits in base sixty-four.
-/

namespace Taxonomy.Text

/-- The bytes of a name in UTF-8. -/
def bytes (name : String) : List UInt8 :=
  name.toUTF8.data.toList

theorem bytes_eq_flatMap (name : String) :
    bytes name = name.toList.flatMap String.utf8EncodeChar := by
  rw [bytes, String.toUTF8_eq_toByteArray, ← String.utf8Encode_toList, List.utf8Encode,
    List.data_toByteArray]

theorem toNat_ofNat_of_lt {n : Nat} (h : n < 256) : (UInt8.ofNat n).toNat = n := by
  rw [UInt8.toNat_ofNat']
  exact Nat.mod_eq_of_lt h

theorem cons_ofNat_lt_iff {m n : Nat} (hm : m < 256) (hn : n < 256) {xs ys : List UInt8} :
    UInt8.ofNat m :: xs < UInt8.ofNat n :: ys ↔ m < n ∨ m = n ∧ xs < ys := by
  rw [List.cons_lt_cons_iff, UInt8.lt_iff_toNat_lt, ← UInt8.toNat_inj, toNat_ofNat_of_lt hm,
    toNat_ofNat_of_lt hn]

/-- Of two characters the one with the smaller code point has the smaller octets. -/
theorem encodeChar_append_lt {c d : Char} (h : c.toNat < d.toNat) (xs ys : List UInt8) :
    String.utf8EncodeChar c ++ xs < String.utf8EncodeChar d ++ ys := by
  have hc : c.val.toNat.isValidChar := c.valid
  have hd : d.val.toNat.isValidChar := d.valid
  change c.val.toNat < d.val.toNat at h
  simp only [String.utf8EncodeChar]
  generalize c.val.toNat = v at *
  generalize d.val.toNat = w at *
  simp only [Nat.isValidChar] at hc hd
  split_ifs <;>
    simp (disch := omega) only [List.cons_append, List.nil_append, cons_ofNat_lt_iff] <;> try omega
  -- Both characters take four octets; they are compared six bits at a time.
  have hv : v / 262144 % 8 = v / 262144 := by omega
  have hw : w / 262144 % 8 = w / 262144 := by omega
  have hlast : v / 64 < w / 64 ∨ v / 64 = w / 64 ∧ v % 64 < w % 64 := by omega
  have hmiddle : v / 64 < w / 64 → v / 4096 < w / 4096 ∨
    v / 4096 = w / 4096 ∧ v / 64 % 64 < w / 64 % 64 := by omega
  have hfirst : v / 4096 < w / 4096 → v / 262144 < w / 262144 ∨
    v / 262144 = w / 262144 ∧ v / 4096 % 64 < w / 4096 % 64 := by omega
  rw [hv, hw]
  clear hv hw hc hd h
  grind

theorem flatMap_encodeChar_lt {as bs : List Char} (h : charsBefore as bs = true) :
    as.flatMap String.utf8EncodeChar < bs.flatMap String.utf8EncodeChar := by
  induction as generalizing bs with
  | nil =>
      cases bs with
      | nil => cases h
      | cons b bs =>
          have hb : String.utf8EncodeChar b ≠ [] := String.utf8EncodeChar_ne_nil
          obtain ⟨octet, rest, hb⟩ := List.exists_cons_of_ne_nil hb
          rw [List.flatMap_nil, List.flatMap_cons, hb]
          exact List.nil_lt_cons _ _
  | cons a as ih =>
      cases bs with
      | nil => cases h
      | cons b bs =>
          simp only [charsBefore, Bool.or_eq_true, Bool.and_eq_true, decide_eq_true_eq] at h
          rw [List.flatMap_cons, List.flatMap_cons]
          rcases h with hlt | ⟨hsame, hrest⟩
          · exact encodeChar_append_lt hlt _ _
          · rw [char_eq_of_toNat hsame]
            exact List.append_left_lt (ih hrest)

/-- One name comes before another exactly if its bytes do. -/
theorem before_iff_bytes_lt {a b : String} : before a b = true ↔ bytes a < bytes b := by
  have hforward : ∀ {a b : String}, before a b = true → bytes a < bytes b := by
    intro a b h
    rw [bytes_eq_flatMap, bytes_eq_flatMap]
    exact flatMap_encodeChar_lt h
  refine ⟨hforward, fun h => ?_⟩
  by_cases hsame : a = b
  · rw [hsame] at h
    exact absurd h (List.lt_irrefl _)
  · exact (before_total hsame).resolve_right fun hback => List.lt_asymm h (hforward hback)

end Taxonomy.Text
