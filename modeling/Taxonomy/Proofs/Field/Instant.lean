import Taxonomy.Proofs.Calendar.Timestamp
import Taxonomy.Proofs.Field.Check

/-!
# Stored instants

An instant that a request can write comes back from everything that is written of it, as long as its
year has four digits in universal time. The two days on either side of those years can be reached,
by an offset alone, and what is written of them is refused.
-/

namespace Taxonomy

namespace FieldDescriptor

variable {f : FieldDescriptor} {s : String} {t : Timestamp}

/-- A column of instants takes the JSON of an instant whose text is read. -/
theorem checkJson_dateTime (hkind : f.kind = .dateTime) (h : Timestamp.read? t.text = some t) :
    f.checkJson (FacetValue.dateTime t).toJson = .ok (.dateTime t) := by
  have hvalue : valueOf? f.kind (FacetValue.dateTime t).toJson = some (.dateTime t) := by
    rw [hkind]
    show (Timestamp.read? t.text).map FacetValue.dateTime = _
    rw [h, Option.map_some]
  have hcheck : f.check (.dateTime t) = .ok () := by
    simp only [check, hkind]
  exact checkJson_eq_ok_iff.mpr ⟨hvalue, hcheck⟩

/-- It refuses the JSON of an instant whose text is not read. -/
theorem checkJson_dateTime_of_unread (hkind : f.kind = .dateTime)
    (h : Timestamp.read? t.text = none) :
    f.checkJson (FacetValue.dateTime t).toJson =
      f.refuse (.kindMismatch "datetime" "string") := by
  have hvalue : valueOf? f.kind (FacetValue.dateTime t).toJson = none := by
    rw [hkind]
    show (Timestamp.read? t.text).map FacetValue.dateTime = _
    rw [h, Option.map_none]
  rw [checkJson_of_no_value hvalue, hkind]
  rfl

/-- An instant that is read from a text is read again from its JSON, and to the whole second from
its canonical text, exactly if its year in universal time has four digits. Any other instant that is
read lies on the day before those years or on the day behind them, and neither text of it is
read. -/
theorem checkJson_of_read? (h : Timestamp.read? s = some t) :
    (t.HasPlainYear →
      Timestamp.read? t.text = some t ∧ Timestamp.read? t.canonicalText = some t.truncated ∧
      ∀ f : FieldDescriptor, f.kind = .dateTime →
        f.checkJson (FacetValue.dateTime t).toJson = .ok (.dateTime t)) ∧
    (¬ t.HasPlainYear →
      ((t.date.year = -1 ∧ t.date.month = 12 ∧ t.date.day = 31) ∨
        t.date.year = 10000 ∧ t.date.month = 1 ∧ t.date.day = 1) ∧
      Timestamp.read? t.text = none ∧ Timestamp.read? t.canonicalText = none ∧
      ∀ f : FieldDescriptor, f.kind = .dateTime →
        f.checkJson (FacetValue.dateTime t).toJson =
          f.refuse (.kindMismatch "datetime" "string")) := by
  have hregular := Timestamp.regular_of_read? h
  constructor
  · intro hyear
    have htext := Timestamp.read?_text hregular hyear
    refine ⟨htext, Timestamp.read?_canonicalText hregular hyear, ?_⟩
    intro f hkind
    exact checkJson_dateTime hkind htext
  · intro hyear
    have htext : Timestamp.read? t.text = none := by
      rw [Timestamp.text, List.append_assoc, Timestamp.read?_ofList_secondChars_eq_none hyear]
    have hcanonical : Timestamp.read? t.canonicalText = none :=
      Timestamp.read?_ofList_secondChars_eq_none hyear _
    obtain ⟨_, _, _, hlocal, hplain, _⟩ := Timestamp.exists_of_read? h
    refine ⟨(Timestamp.date_of_ofLocal? hlocal hplain).resolve_left hyear, htext, hcanonical, ?_⟩
    intro f hkind
    exact checkJson_dateTime_of_unread hkind htext

/-- A leap second of which a quarter has passed, read in an eastern time zone early in the next
year, is read back; an instant just before the year 10000, read in a western one, is not. -/
theorem checkJson_of_read?_leap :
    ∃ t t', Timestamp.read? "2017-01-01t08:59:60.250+09:00" = some t ∧ t.HasPlainYear ∧
      t.text = "2016-12-31T23:59:60.250Z" ∧ Timestamp.read? t.text = some t ∧
      Timestamp.read? t.canonicalText = some t.truncated ∧
      Timestamp.read? "9999-12-31T23:59:59-00:01" = some t' ∧ ¬ t'.HasPlainYear ∧
      t'.text = "+10000-01-01T00:00:59Z" ∧ Timestamp.read? t'.text = none := by
  have hleap : (Timestamp.read? "2017-01-01t08:59:60.250+09:00").map
      (fun t => (decide t.HasPlainYear, t.text)) =
        some (true, "2016-12-31T23:59:60.250Z") := by
    decide +kernel
  have hlate : (Timestamp.read? "9999-12-31T23:59:59-00:01").map
      (fun t => (decide t.HasPlainYear, t.text)) =
        some (false, "+10000-01-01T00:00:59Z") := by
    decide +kernel
  obtain ⟨t, hread, hpair⟩ := Option.map_eq_some_iff.mp hleap
  obtain ⟨t', hread', hpair'⟩ := Option.map_eq_some_iff.mp hlate
  obtain ⟨hyear, htext⟩ := Prod.mk.inj hpair
  obtain ⟨hyear', htext'⟩ := Prod.mk.inj hpair'
  have hplain : t.HasPlainYear := of_decide_eq_true hyear
  have hsigned : ¬ t'.HasPlainYear := of_decide_eq_false hyear'
  obtain ⟨hback, hsecond, -⟩ := (checkJson_of_read? hread).1 hplain
  obtain ⟨-, hlost, -⟩ := (checkJson_of_read? hread').2 hsigned
  exact ⟨t, t', hread, hplain, htext, hback, hsecond, hread', hsigned, htext', hlost⟩

/-- Not every instant that is read can be read again from what is written of it. -/
theorem not_forall_read?_text :
    ¬ ∀ s t, Timestamp.read? s = some t → Timestamp.read? t.text = some t := by
  intro h
  have hlost : (Timestamp.read? "9999-12-31T23:59:59-00:01").bind
      (fun t => Timestamp.read? t.text) = none := by
    decide +kernel
  have hread : (Timestamp.read? "9999-12-31T23:59:59-00:01").isSome = true := by
    decide +kernel
  obtain ⟨t, ht⟩ := Option.isSome_iff_exists.mp hread
  rw [ht, Option.bind_some, h _ t ht] at hlost
  cases hlost

end FieldDescriptor

end Taxonomy
