import Taxonomy.Text.Split

/-!
# Parts of a text

Cutting a text at a separator is the library's splitting of a list. What follows the last
separator is a text without separators, so a text that is put together with a separator and such an
ending is taken apart in one way only.
-/

namespace Taxonomy.Text

theorem splitAt_eq_splitOn (separator : Char) (cs : List Char) :
    splitAt separator cs = cs.splitOn separator := by
  induction cs with
  | nil => rfl
  | cons c cs ih =>
      rw [splitAt, List.splitOn_cons_eq_if_modifyHead, ih]
      by_cases h : c = separator
      · simp [h]
      · obtain ⟨part, parts, hparts⟩ :=
          List.exists_cons_of_ne_nil (List.splitOn_ne_nil separator cs)
        simp [h, hparts]

/-- What follows the last separator has no separators. -/
theorem not_mem_afterLast (separator : Char) (cs : List Char) :
    separator ∉ afterLast separator cs := by
  intro h
  have hkept := List.all_eq_true.mp List.all_takeWhile _ (List.mem_reverse.mp h)
  simp at hkept

/-- An ending without separators is what follows the last separator. -/
theorem afterLast_append_cons {separator : Char} {ending : List Char} (h : separator ∉ ending)
    (front : List Char) : afterLast separator (front ++ separator :: ending) = ending := by
  have hall : ∀ c ∈ ending.reverse, (c != separator) = true := by
    intro c hc
    rw [bne_iff_ne]
    rintro rfl
    exact h (List.mem_reverse.mp hc)
  simp [afterLast, List.takeWhile_append_of_pos hall]

/-- What follows the last separator is the ending without separators that the text is, or that
stands behind a separator at its end. -/
theorem afterLast_eq_iff {separator : Char} {cs ending : List Char} :
    afterLast separator cs = ending ↔
      separator ∉ ending ∧ (cs = ending ∨ ∃ front, cs = front ++ separator :: ending) := by
  constructor
  · rintro rfl
    refine ⟨not_mem_afterLast separator cs, ?_⟩
    have hsplit := List.takeWhile_append_dropWhile (p := (· != separator)) (l := cs.reverse)
    cases hrest : cs.reverse.dropWhile (· != separator) with
    | nil =>
        rw [hrest, List.append_nil] at hsplit
        rw [afterLast, hsplit, List.reverse_reverse]
        exact .inl rfl
    | cons c rest =>
        have hstop := List.head?_dropWhile_not (· != separator) cs.reverse
        rw [hrest] at hstop hsplit
        obtain rfl : c = separator := by simpa using hstop
        refine .inr ⟨rest.reverse, List.reverse_inj.mp ?_⟩
        simpa [afterLast] using hsplit.symm
  · rintro ⟨hending, rfl | ⟨front, rfl⟩⟩
    · have hall : ∀ c ∈ cs.reverse, (c != separator) = true := by
        intro c hc
        rw [bne_iff_ne]
        rintro rfl
        exact hending (List.mem_reverse.mp hc)
      have hkept : cs.reverse.takeWhile (· != separator) = cs.reverse := by
        rw [← List.append_nil cs.reverse, List.takeWhile_append_of_pos hall, List.takeWhile_nil]
      rw [afterLast, hkept, List.reverse_reverse]
    · exact afterLast_append_cons hending front

theorem dropStart?_eq_some_iff {start cs rest : List Char} :
    dropStart? start cs = some rest ↔ cs = start ++ rest := by
  induction start generalizing cs with
  | nil => simp [dropStart?]
  | cons a start ih =>
      cases cs with
      | nil => simp [dropStart?]
      | cons c cs =>
          by_cases hsame : a = c
          · simp [dropStart?, hsame, ih]
          · simp [dropStart?, hsame, Ne.symm hsame]

/-- Texts that end after a separator in parts without separators are equal part by part. -/
theorem append_cons_inj {separator : Char} {front front' ending ending' : List Char}
    (h : separator ∉ ending) (h' : separator ∉ ending') :
    front ++ separator :: ending = front' ++ separator :: ending' ↔
      front = front' ∧ ending = ending' := by
  constructor
  · intro heq
    have hending : ending = ending' := by
      rw [← afterLast_append_cons h front, heq, afterLast_append_cons h']
    subst hending
    exact ⟨List.append_cancel_right heq, rfl⟩
  · rintro ⟨rfl, rfl⟩
    rfl

/-! ### The first cut -/

theorem cutAt?_append_cons {isCut : Char → Bool} {front rest : List Char} {c : Char}
    (hfront : ∀ c ∈ front, isCut c = false) (hc : isCut c = true) :
    cutAt? isCut (front ++ c :: rest) = some (front, rest) := by
  induction front with
  | nil => simp [cutAt?, hc]
  | cons c' front ih =>
      obtain ⟨hhead, hfront⟩ := List.forall_mem_cons.mp hfront
      simp [cutAt?, hhead, ih hfront]

theorem cutAt?_eq_none {isCut : Char → Bool} {cs : List Char} (h : ∀ c ∈ cs, isCut c = false) :
    cutAt? isCut cs = none := by
  induction cs with
  | nil => rfl
  | cons c cs ih =>
      obtain ⟨hhead, hrest⟩ := List.forall_mem_cons.mp h
      simp [cutAt?, hhead, ih hrest]

/-- A text is cut at its first character that satisfies the test. -/
theorem cutAt?_eq_some_iff {isCut : Char → Bool} {cs front rest : List Char} :
    cutAt? isCut cs = some (front, rest) ↔
      ∃ c, isCut c = true ∧ cs = front ++ c :: rest ∧ ∀ c ∈ front, isCut c = false := by
  constructor
  · intro h
    induction cs generalizing front with
    | nil => cases h
    | cons c cs ih =>
        cases hc : isCut c with
        | true =>
            simp only [cutAt?, hc, if_true, Option.some.injEq, Prod.mk.injEq] at h
            obtain ⟨rfl, rfl⟩ := h
            exact ⟨c, hc, rfl, fun _ hmem => absurd hmem List.not_mem_nil⟩
        | false =>
            simp only [cutAt?, hc, Bool.false_eq_true, if_false, Option.map_eq_some_iff] at h
            obtain ⟨⟨front', rest'⟩, hcut, heq⟩ := h
            cases heq
            obtain ⟨c', hc', hcs, hfront⟩ := ih hcut
            refine ⟨c', hc', by rw [hcs, List.cons_append], ?_⟩
            exact List.forall_mem_cons.mpr ⟨hc, hfront⟩
  · rintro ⟨c, hc, rfl, hfront⟩
    exact cutAt?_append_cons hfront hc

theorem cutAt?_eq_none_iff {isCut : Char → Bool} {cs : List Char} :
    cutAt? isCut cs = none ↔ ∀ c ∈ cs, isCut c = false := by
  refine ⟨fun h c hc => ?_, cutAt?_eq_none⟩
  induction cs with
  | nil => cases hc
  | cons c' cs ih =>
      cases hc' : isCut c' with
      | true => simp [cutAt?, hc'] at h
      | false =>
          simp only [cutAt?, hc', Bool.false_eq_true, if_false, Option.map_eq_none_iff] at h
          rcases List.mem_cons.mp hc with rfl | hc
          · exact hc'
          · exact ih h hc

end Taxonomy.Text
