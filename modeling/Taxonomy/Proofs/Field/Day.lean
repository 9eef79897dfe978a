import Taxonomy.Field.Descriptor
import Taxonomy.Proofs.Calendar.Date

/-!
# Stored days

A column of days takes every text that a day is read from, and writes the day in one form only. What
is submitted in that form comes back as it was; anything else that is accepted comes back as the
text of the same day.
-/

namespace Taxonomy

namespace FieldDescriptor

variable {f : FieldDescriptor} {s : String} {v : FacetValue}

theorem parseJson_eq_ok_iff {value : Json} :
    f.parseJson value = .ok v ↔ valueOf? f.kind value = some v := by
  rw [parseJson]
  cases valueOf? f.kind value with
  | none => simp [refuse]
  | some w => simp

theorem parseJson_date_iff (hkind : f.kind = .date) :
    f.parseJson (.str s) = .ok v ↔ ∃ d : Date, v = .date d ∧ d.Readable s := by
  have hvalue : valueOf? f.kind (.str s) = (Date.read? s).map FacetValue.date := by
    rw [hkind]
    rfl
  rw [parseJson_eq_ok_iff, hvalue, Option.map_eq_some_iff]
  refine exists_congr fun d => ?_
  rw [Date.read?_eq_some_iff, and_comm, eq_comm (a := v)]

/-- A day is read from the texts that are readable as it, among them the text of its form, and a
column of days takes these and no others. What it took comes back unchanged exactly if it was in the
form, or in the form with a sign for the years that need it. -/
theorem parseJson_date (s : String) :
    (∀ d, Date.read? s = some d ↔ d.Readable s) ∧
      (∀ d : Date, d.HasForm s → Date.read? s = some d) ∧
      ∀ f : FieldDescriptor, f.kind = .date → ∀ v,
        (f.parseJson (.str s) = .ok v ↔ ∃ d : Date, v = .date d ∧ d.Readable s) ∧
        (f.parseJson (.str s) = .ok v →
          (v.toJson = .str s ↔ ∃ d : Date, v = .date d ∧ (d.HasForm s ∨ d.HasSignedForm s))) := by
  refine ⟨fun d => Date.read?_eq_some_iff, fun d h => Date.read?_eq_some_iff.mpr h.readable, ?_⟩
  intro f hkind v
  refine ⟨parseJson_date_iff hkind, fun hparse => ?_⟩
  obtain ⟨d, rfl, -⟩ := (parseJson_date_iff hkind).mp hparse
  have htext : (FacetValue.date d).toJson = .str s ↔ s = d.text := by
    rw [FacetValue.toJson, Json.str.injEq, eq_comm]
  rw [htext, Date.eq_text_iff]
  simp

/-- The column of a first day of use. -/
def firstUse : FieldDescriptor :=
  .plain "FirstUse" .value .date

/-- The fifth of January 2026. -/
def fifthOfJanuary : Date where
  year := 2026
  month := 1
  day := 5
  valid := by decide

theorem hasForm_fifthOfJanuary : fifthOfJanuary.HasForm "2026-01-05" := by
  refine ⟨['2', '0', '2', '6'], ['0', '1'], ['0', '5'], by decide, ⟨2026, rfl, ?_⟩, ?_, ?_⟩
  · exact ⟨⟨by decide, [2, 0, 2, 6], rfl, rfl⟩, rfl⟩
  · exact ⟨⟨by decide, [0, 1], rfl, rfl⟩, rfl⟩
  · exact ⟨⟨by decide, [0, 5], rfl, rfl⟩, rfl⟩

theorem read?_unfilled : Date.read? "2026-1-5" = some fifthOfJanuary := by
  decide +kernel

theorem text_fifthOfJanuary : fifthOfJanuary.text = "2026-01-05" := by
  decide +kernel

/-- A day in its form comes back as it was, and the same day without the zeros does not. -/
theorem parseJson_date_firstUse :
    firstUse.kind = .date ∧ fifthOfJanuary.HasForm "2026-01-05" ∧
      Date.read? "2026-01-05" = some fifthOfJanuary ∧
      firstUse.parseJson (.str "2026-01-05") = .ok (.date fifthOfJanuary) ∧
      (FacetValue.date fifthOfJanuary).toJson = .str "2026-01-05" ∧
      firstUse.parseJson (.str "2026-1-5") = .ok (.date fifthOfJanuary) ∧
      (FacetValue.date fifthOfJanuary).toJson ≠ .str "2026-1-5" := by
  obtain ⟨-, hread, hcolumn⟩ := parseJson_date "2026-01-05"
  obtain ⟨hparse, hback⟩ := hcolumn firstUse rfl (.date fifthOfJanuary)
  have haccepted := hparse.mpr ⟨fifthOfJanuary, rfl, hasForm_fifthOfJanuary.readable⟩
  obtain ⟨hreadable, -, hcolumn'⟩ := parseJson_date "2026-1-5"
  obtain ⟨hparse', -⟩ := hcolumn' firstUse rfl (.date fifthOfJanuary)
  refine ⟨rfl, hasForm_fifthOfJanuary, hread _ hasForm_fifthOfJanuary, haccepted,
    (hback haccepted).mpr ⟨_, rfl, .inl hasForm_fifthOfJanuary⟩,
    hparse'.mpr ⟨_, rfl, (hreadable _).mp read?_unfilled⟩, ?_⟩
  rw [FacetValue.toJson, text_fifthOfJanuary]
  simp

/-- Neither is a day read from its form only, nor does what a column of days accepts always come
back unchanged. -/
theorem not_forall_hasForm :
    (¬ ∀ (s : String) (d : Date), Date.read? s = some d ↔ d.HasForm s) ∧
      ¬ ∀ (f : FieldDescriptor) (s : String) (v : FacetValue), f.kind = .date →
        f.parseJson (.str s) = .ok v → v.toJson = .str s := by
  constructor
  · intro h
    have hform := (h _ fifthOfJanuary).mp read?_unfilled
    have hsame := Date.eq_text_iff.mpr (.inl hform)
    rw [text_fifthOfJanuary] at hsame
    simp at hsame
  · intro h
    have hparse : firstUse.parseJson (.str "2026-1-5") = .ok (.date fifthOfJanuary) :=
      (parseJson_date_iff rfl).mpr ⟨_, rfl, Date.read?_eq_some_iff.mp read?_unfilled⟩
    have hsame := h firstUse _ _ rfl hparse
    rw [FacetValue.toJson, text_fifthOfJanuary] at hsame
    simp at hsame

end FieldDescriptor

end Taxonomy
