import Taxonomy.Proofs.Binary64.Layout
import Taxonomy.Proofs.Json.Token
import Taxonomy.Yaml.Value

/-!
# The texts of keys

A key becomes the text that it has. Whole numbers, doubles and words such as `true` or `.inf` have
texts of different kinds, and two keys of one kind have different texts, so only a string can share
its text with another key.
-/

namespace Taxonomy.Yaml

open Json (isNumberChar)

variable {key key' : Value} {text text' : String} {cs : List Char}

/-- A text is made of the characters of numbers. -/
def Numeric (cs : List Char) : Prop :=
  ∀ c ∈ cs, isNumberChar c = true

/-- A text has a point or the mark of an exponent. -/
def Marked (cs : List Char) : Prop :=
  '.' ∈ cs ∨ 'e' ∈ cs

theorem numeric_of_spells {ds : List Nat} (h : Text.Spells Text.digit? cs ds) : Numeric cs := by
  intro c hc
  obtain ⟨digit, hdigit⟩ := h.exists_digit hc
  exact Json.isNumberChar_of_digit? hdigit

theorem Numeric.append {cs' : List Char} (h : Numeric cs) (h' : Numeric cs') :
    Numeric (cs ++ cs') := by
  intro c hc
  rcases List.mem_append.mp hc with hc | hc
  · exact h c hc
  · exact h' c hc

theorem Numeric.cons {c : Char} (hc : isNumberChar c = true) (h : Numeric cs) :
    Numeric (c :: cs) :=
  List.forall_mem_cons.mpr ⟨hc, h⟩

theorem numeric_nil : Numeric [] :=
  List.forall_mem_nil _

theorem numeric_of_signText {negative : Bool} (h : Numeral.SignText negative cs) : Numeric cs := by
  cases h with
  | none => exact numeric_nil
  | plus => exact numeric_nil.cons rfl
  | minus => exact numeric_nil.cons rfl

/-- A numeral is made of the characters of numbers. -/
theorem numeric_of_writes {n : Numeral} (h : n.Writes cs) : Numeric cs := by
  obtain ⟨negative, whole, fraction, k⟩ := n
  obtain ⟨sign, digits, exponent, hsign, hdigits, hexponent, rfl⟩ := h
  refine (numeric_of_signText hsign).append (Numeric.append ?_ ?_)
  · cases hdigits with
    | whole _ hspells => exact numeric_of_spells hspells
    | point _ hspells hspells' =>
        exact (numeric_of_spells hspells).append ((numeric_of_spells hspells').cons rfl)
  · have hmark {mark : Char} (h : mark = 'e' ∨ mark = 'E') : isNumberChar mark = true := by
      rcases h with rfl | rfl <;> rfl
    cases hexponent with
    | none => exact numeric_nil
    | up hmark' hsign' _ hspells =>
        exact ((numeric_of_signText hsign').append (numeric_of_spells hspells)).cons (hmark hmark')
    | down hmark' _ hspells =>
        exact ((numeric_of_spells hspells).cons rfl).cons (hmark hmark')

theorem numeric_of_double (layout : Binary64.Layout) (x : Binary64) :
    Numeric (x.text layout).toList := by
  obtain ⟨n, hwrites, -, -⟩ := Binary64.exists_writes_text layout x
  exact numeric_of_writes hwrites

theorem marked_positional (d : Binary64.DecimalDigits) :
    Marked (Binary64.positional true d).toList := by
  left
  simp only [Binary64.positional]
  split
  · simp
  · split <;> simp

theorem marked_scientific (signsExponent : Bool) (d : Binary64.DecimalDigits) :
    Marked (Binary64.scientific signsExponent d).toList := by
  right
  simp [Binary64.scientific]

theorem Marked.append_left (sign : List Char) (h : Marked cs) : Marked (sign ++ cs) :=
  h.imp (List.mem_append_right sign) (List.mem_append_right sign)

/-- Where whole numbers keep a point, every double has a point or an exponent. -/
theorem marked_of_double {layout : Binary64.Layout} (hpoint : layout.keepsPoint = true)
    (x : Binary64) : Marked (x.text layout).toList := by
  cases hzero : x.isZero with
  | true =>
      have hzeros : Marked "0.0".toList := .inl (by decide)
      rw [Binary64.text_of_isZero layout hzero, hpoint, if_pos rfl, String.toList_append]
      exact hzeros.append_left _
  | false =>
      obtain ⟨isPositional, htext⟩ := Binary64.text_of_isZero_eq_false layout hzero
      rw [htext, hpoint, String.toList_append]
      cases isPositional with
      | true =>
          rw [if_pos rfl]
          exact (marked_positional _).append_left _
      | false =>
          rw [if_neg Bool.false_ne_true]
          exact (marked_scientific _ _).append_left _

/-- The text of a whole number is a numeral of it. -/
theorem exists_writes_whole (n : Int) :
    ∃ m : Numeral, m.Writes (toString n).toList ∧ m.value = n := by
  obtain ⟨ds, hspells, hvalue⟩ := Text.exists_spells_toDigits n.natAbs
  have hshows : Binary64.Shows n.natAbs (Nat.toDigits 10 n.natAbs) := by
    refine ⟨ds, [], .whole (Binary64.toDigits_ne_nil _) hspells, ?_⟩
    rw [List.append_nil, hvalue, List.length_nil, pow_zero, div_one]
  obtain ⟨m, hwrites, -, hm⟩ := hshows.exists_writes .none (decide (n < 0))
  rw [List.append_nil] at hwrites
  rw [zpow_zero, mul_one, Decimal.signed] at hm
  refine ⟨m, ?_, ?_⟩
  · rw [Json.toList_toString_int]
    by_cases hnegative : n < 0 <;> simpa [hnegative] using hwrites
  · rw [hm]
    by_cases hnegative : n < 0
    · have habs : (n.natAbs : Int) = -n := by omega
      rw [if_pos (decide_eq_true hnegative), ← Int.cast_natCast, habs, Int.cast_neg, neg_neg]
    · have habs : (n.natAbs : Int) = n := by omega
      rw [if_neg (by simpa using hnegative), ← Int.cast_natCast, habs]

theorem toString_int_inj {m n : Int} (h : toString m = toString n) : m = n := by
  obtain ⟨k, hm, hvalue⟩ := exists_writes_whole m
  obtain ⟨k', hn, hvalue'⟩ := exists_writes_whole n
  rw [h] at hm
  obtain rfl : k = k' := (Decimal.eq_numeralOf hm).trans (Decimal.eq_numeralOf hn).symm
  exact Int.cast_injective (hvalue.symm.trans hvalue')

theorem numeric_of_whole (n : Int) : Numeric (toString n).toList := by
  obtain ⟨m, hwrites, -⟩ := exists_writes_whole n
  exact numeric_of_writes hwrites

/-- A whole number has neither a point nor an exponent. -/
theorem not_marked_of_whole (n : Int) : ¬Marked (toString n).toList := by
  obtain ⟨ds, hspells, -⟩ := Text.exists_spells_toDigits n.natAbs
  have hplain {c : Char} (hdigit : Text.digit? c = none) (hminus : c ≠ '-') :
      c ∉ (toString n).toList := by
    intro hc
    rw [Json.toList_toString_int] at hc
    rcases List.mem_append.mp hc with hc | hc
    · split at hc
      · exact hminus (List.mem_singleton.mp hc)
      · cases hc
    · obtain ⟨digit, hdigit'⟩ := hspells.exists_digit hc
      exact Text.ne_of_digit? hdigit' hdigit rfl
  rintro (hpoint | hmark)
  · exact hplain (by decide) (by decide) hpoint
  · exact hplain (by decide) (by decide) hmark

/-! ### Keys of one text -/

/-- The key is a string. -/
def IsString : Value → Prop
  | .str _ => True
  | _ => False

/-- The keys that become words. -/
def words : List (Value × String) := [
  (.bool true, "true"), (.bool false, "false"), (.float (.infinite false), ".inf"),
  (.float (.infinite true), "-.inf"), (.float .notANumber, ".nan")]

/-- A key that is no string has this text, which shows of which kind the key is. -/
inductive HasText : Value → String → Prop
  | whole (n : Int) : HasText (.int n) (toString n)
  | double (x : Binary64) : HasText (.float (.finite x)) (x.text .key)
  | word {entry : Value × String} (h : entry ∈ words) : HasText entry.1 entry.2

theorem hasText_of_keyText (h : Value.keyText key = .ok text) (hkey : ¬IsString key) :
    HasText key text := by
  have hword {entry : Value × String} (hentry : entry ∈ words) : HasText entry.1 entry.2 :=
    .word hentry
  cases key with
  | str => exact absurd trivial hkey
  | int n =>
      cases h
      exact .whole n
  | bool b =>
      cases h
      cases b with
      | true => exact @hword (.bool true, "true") (by simp [words])
      | false => exact @hword (.bool false, "false") (by simp [words])
  | float x =>
      cases h
      cases x with
      | finite x => exact .double x
      | notANumber => exact @hword (.float .notANumber, ".nan") (by simp [words])
      | infinite negative =>
          cases negative with
          | true => exact @hword (.float (.infinite true), "-.inf") (by simp [words])
          | false => exact @hword (.float (.infinite false), ".inf") (by simp [words])
  | null | seq | map | tagged => cases h

/-- No word is made of the characters of numbers. -/
theorem not_numeric_of_word {entry : Value × String} (h : entry ∈ words) :
    ¬Numeric entry.2.toList := by
  have hwords : ∀ entry ∈ words, entry.2.toList.all isNumberChar = false := by decide
  intro hnumeric
  have hall := hwords entry h
  rw [List.all_eq_true.mpr hnumeric] at hall
  cases hall

/-- Different words are different texts. -/
theorem same_of_word_eq : ∀ entry ∈ words, ∀ entry' ∈ words, entry.2 = entry'.2 →
    entry.1.same entry'.1 = true := by
  decide

/-- Keys of one text are of one kind, and in each kind they are the same. -/
theorem HasText.same (h : HasText key text) (h' : HasText key' text') (heq : text = text') :
    key.same key' = true := by
  cases h with
  | whole m =>
      cases h' with
      | whole n =>
          obtain rfl := toString_int_inj heq
          exact beq_self_eq_true m
      | double x =>
          exact absurd (heq ▸ marked_of_double rfl x) (not_marked_of_whole m)
      | word hword' => exact absurd (heq ▸ numeric_of_whole m) (not_numeric_of_word hword')
  | double x =>
      cases h' with
      | whole n => exact absurd (heq ▸ marked_of_double rfl x) (not_marked_of_whole n)
      | double x' => exact Binary64.same_of_text_eq heq
      | word hword' => exact absurd (heq ▸ numeric_of_double .key x) (not_numeric_of_word hword')
  | word hword =>
      cases h' with
      | whole n => exact absurd (heq ▸ numeric_of_whole n) (not_numeric_of_word hword)
      | double x' => exact absurd (heq ▸ numeric_of_double .key x') (not_numeric_of_word hword)
      | word hword' => exact same_of_word_eq _ hword _ hword' heq

/-- Keys that are no strings are the same key if they have one text. -/
theorem same_of_keyText_eq (h : Value.keyText key = .ok text) (h' : Value.keyText key' = .ok text)
    (hkey : ¬IsString key) (hkey' : ¬IsString key') : key.same key' = true :=
  (hasText_of_keyText h hkey).same (hasText_of_keyText h' hkey') rfl

end Taxonomy.Yaml
