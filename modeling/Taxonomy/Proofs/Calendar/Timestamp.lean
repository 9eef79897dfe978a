import Taxonomy.Calendar.Timestamp
import Taxonomy.Proofs.Calendar.Date

/-!
# Instants read back from their text

An instant is written in universal time, and read back without an offset it is the same instant, a
leap second and every digit of the fraction included. Only its year can stand in the way: requests
write years with four digits, and an offset may move an instant out of the years that have four.
-/

namespace Taxonomy

namespace Date

variable {d d' : Date} {year : Int} {month day : Nat}

/-- The next day is of the same year or the first of the next one. -/
theorem year_of_next? (h : d.next? = some d') :
    d'.year = d.year ∨ d'.year = d.year + 1 ∧ d'.month = 1 ∧ d'.day = 1 := by
  rw [next?, Option.or_eq_some_iff, Option.or_eq_some_iff] at h
  rcases h with h | ⟨-, h | ⟨-, h⟩⟩
  · exact .inl (ofNumbers?_eq_some_iff.mp h).1.symm
  · exact .inl (ofNumbers?_eq_some_iff.mp h).1.symm
  · obtain ⟨hyear, hmonth, hday⟩ := ofNumbers?_eq_some_iff.mp h
    exact .inr ⟨hyear.symm, hmonth.symm, hday.symm⟩

/-- The day before is of the same year or the last of the year before. -/
theorem year_of_previous? (h : d.previous? = some d') :
    d'.year = d.year ∨ d'.year = d.year - 1 ∧ d'.month = 12 ∧ d'.day = 31 := by
  rw [previous?] at h
  split at h
  · exact .inl (ofNumbers?_eq_some_iff.mp h).1.symm
  · split at h
    · exact .inl (ofNumbers?_eq_some_iff.mp h).1.symm
    · obtain ⟨hyear, hmonth, hday⟩ := ofNumbers?_eq_some_iff.mp h
      exact .inr ⟨hyear.symm, hmonth.symm, hday.symm⟩

end Date

namespace Timestamp

variable {t : Timestamp} {cs rest : List Char} {width n : Nat} {s : String}

/-! ### Reading what is written -/

/-- What a reader has read is passed on to what follows. -/
theorem bind_of_eq_some {α β : Type} {x : Option α} {f : α → Option β} {a : α} (h : x = some a) :
    (x >>= f) = f a := by
  rw [h]
  rfl

theorem separator?_upper (rest : List Char) : separator? ('T' :: rest) = some rest := rfl

/-- Digits of exactly the width are read whatever stands behind them. -/
theorem exactly?_zeroPadded (hwidth : 0 < width) (h : n < 10 ^ width) (rest : List Char) :
    exactly? width (Text.zeroPadded width n ++ rest) = some (n, rest) := by
  obtain ⟨ds, hspells, hvalue⟩ := Text.exists_spells_zeroPadded width n
  have hlength := Text.length_zeroPadded hwidth h
  have hspan : Text.spanDigits width (Text.zeroPadded width n ++ rest) = (ds, rest) :=
    Text.spanDigits_of_spells hspells (Nat.le_of_eq hlength) fun hlt => by omega
  have hcount : ds.length = width := hspells.length_eq.symm.trans hlength
  rw [exactly?, hspan]
  simp only [hcount, if_true, hvalue]

/-- A text that begins with no digit has no number of a width in front. -/
theorem exactly?_of_no_digit {c : Char} (hwidth : 0 < width) (hc : Text.digit? c = none)
    (rest : List Char) : exactly? width (c :: rest) = none := by
  obtain ⟨width, rfl⟩ := Nat.exists_eq_succ_of_ne_zero hwidth.ne'
  simp [exactly?, Text.spanDigits, hc]

/-- A fraction is read back in nanoseconds, up to the letter behind it. -/
theorem fraction?_point (hwidth : 0 < width) (hmost : width ≤ 9) (h : n < 10 ^ width) :
    fraction? ('.' :: (Text.zeroPadded width n ++ ['Z'])) =
      some (n * 10 ^ (9 - width), ['Z']) := by
  obtain ⟨ds, hspells, hvalue⟩ := Text.exists_spells_zeroPadded width n
  have hlength := Text.length_zeroPadded hwidth h
  have hcount : ds.length = width := hspells.length_eq.symm.trans hlength
  have hspan : Text.spanDigits 9 (Text.zeroPadded width n ++ ['Z']) = (ds, ['Z']) := by
    refine Text.spanDigits_of_spells hspells (hlength.trans_le hmost) fun _ c hc => ?_
    cases hc
    rfl
  obtain ⟨d, ds', rfl⟩ := List.exists_cons_of_ne_nil (List.ne_nil_of_length_pos (hcount ▸ hwidth))
  rw [fraction?, hspan]
  simp only [hvalue, hcount, Nat.pow_eq]
  rfl

/-- However many digits of the fraction are written, all that are not zero are among them. -/
theorem fraction?_fractionChars (t : Timestamp) :
    fraction? (t.fractionChars ++ ['Z']) = some (t.nanosecond % 1000000000, ['Z']) := by
  have hbound : t.nanosecond % 1000000000 < 1000000000 := Nat.mod_lt _ (by omega)
  unfold fractionChars
  generalize t.nanosecond % 1000000000 = n at hbound
  simp only
  split
  · rename_i hzero
    rw [hzero]
    rfl
  · split
    · rw [List.cons_append, fraction?_point (by omega) (by omega) (by omega)]
      congr 2
      omega
    · split
      · rw [List.cons_append, fraction?_point (by omega) (by omega) (by omega)]
        congr 2
        omega
      · rw [List.cons_append, fraction?_point (by omega) (by omega) (by omega)]
        congr 2
        omega

/-- The time of day of an instant as it is written, with a fraction. -/
def clock (t : Timestamp) (nanosecond : Nat) : TimeOfDay where
  hour := t.second / 3600
  minute := t.second / 60 % 60
  second := t.second % 60 + if t.nanosecond < 1000000000 then 0 else 1
  nanosecond := nanosecond

/-- The year can be written with four digits and no sign. -/
def HasPlainYear (t : Timestamp) : Prop :=
  0 ≤ t.date.year ∧ t.date.year ≤ 9999

instance (t : Timestamp) : Decidable t.HasPlainYear :=
  inferInstanceAs (Decidable (_ ∧ _))

theorem toList_ofList_secondChars (t : Timestamp) (tail : List Char) :
    (String.ofList (t.secondChars ++ tail)).toList =
      Date.yearText t.date.year ++ '-' :: (Text.zeroPadded 2 t.date.month ++
        '-' :: (Text.zeroPadded 2 t.date.day ++ 'T' :: (Text.zeroPadded 2 (t.second / 3600) ++
          ':' :: (Text.zeroPadded 2 (t.second / 60 % 60) ++
            ':' :: (Text.zeroPadded 2
                (t.second % 60 + if t.nanosecond < 1000000000 then 0 else 1) ++ tail))))) := by
  simp [secondChars, Date.chars]

/-- What is written of a plain year is read as the day and the time of day in universal time. -/
theorem read?_ofList_secondChars {tail : List Char} {nanosecond : Nat} (hyear : t.HasPlainYear)
    (htail : fraction? tail = some (nanosecond, ['Z'])) :
    read? (String.ofList (t.secondChars ++ tail)) = ofLocal? t.date (t.clock nanosecond) 0 := by
  have hmark (c : Char) (cs : List Char) : Date.mark? c (c :: cs) = some cs := by
    rw [Date.mark?, if_pos rfl]
  have hsecond := t.second_lt
  have htwo (n : Nat) (h : n < 100) (rest : List Char) :
      exactly? 2 (Text.zeroPadded 2 n ++ rest) = some (n, rest) :=
    exactly?_zeroPadded Nat.zero_lt_two h rest
  have hdate : Date.ofNumbers? t.date.year.toNat t.date.month t.date.day = some t.date := by
    rw [Int.toNat_of_nonneg hyear.1, Date.ofNumbers?, dif_pos t.date.valid]
  have hyearText : Date.yearText t.date.year = Text.zeroPadded 4 t.date.year.toNat := if_pos hyear
  have hleap : t.second % 60 + (if t.nanosecond < 1000000000 then 0 else 1) < 100 := by
    split <;> omega
  have hfour : t.date.year.toNat < 10 ^ 4 := by
    have hmost := hyear.2
    omega
  rw [read?, toList_ofList_secondChars, hyearText]
  refine (bind_of_eq_some (exactly?_zeroPadded (by omega) hfour _)).trans ?_
  refine (bind_of_eq_some (hmark '-' _)).trans ?_
  refine (bind_of_eq_some (htwo _ t.date.month_lt _)).trans ?_
  refine (bind_of_eq_some (hmark '-' _)).trans ?_
  refine (bind_of_eq_some (htwo _ t.date.day_lt _)).trans ?_
  refine (bind_of_eq_some (separator?_upper _)).trans ?_
  refine (bind_of_eq_some (htwo _ (by omega) _)).trans ?_
  refine (bind_of_eq_some (hmark ':' _)).trans ?_
  refine (bind_of_eq_some (htwo _ (by omega) _)).trans ?_
  refine (bind_of_eq_some (hmark ':' _)).trans ?_
  refine (bind_of_eq_some (htwo _ hleap _)).trans ?_
  refine (bind_of_eq_some htail).trans ?_
  exact bind_of_eq_some hdate

/-- A leap second is the last one of a minute. -/
def Regular (t : Timestamp) : Prop :=
  1000000000 ≤ t.nanosecond → t.second % 60 = 59

/-- The instant with another fraction of its second. -/
def withFraction (t : Timestamp) (fraction : Nat) (h : fraction < 1000000000) : Timestamp where
  date := t.date
  second := t.second
  nanosecond := t.nanosecond / 1000000000 * 1000000000 + fraction
  second_lt := t.second_lt
  nanosecond_lt := by
    have hbound := t.nanosecond_lt
    omega

/-- The whole second of an instant. -/
def truncated (t : Timestamp) : Timestamp :=
  t.withFraction 0 (by decide)

theorem withFraction_mod (t : Timestamp) :
    t.withFraction (t.nanosecond % 1000000000) (Nat.mod_lt _ (by decide)) = t := by
  obtain ⟨date, second, nanosecond, _, _⟩ := t
  simp only [withFraction, Timestamp.mk.injEq, true_and]
  omega

/-! ### Instants of a local time -/

/-- The second of the day at which a time of day falls; a leap second falls on the second before. -/
def TimeOfDay.seconds (time : TimeOfDay) : Nat :=
  time.hour * 3600 + time.minute * 60 + if time.second = 60 then 59 else time.second

/-- The day that a second of a day belongs to, counted from the start of that day. -/
def dayOf? (date : Date) (second : Int) : Option Date :=
  if second < 0 then date.previous? else if 86400 ≤ second then date.next? else some date

/-- The instant at a second counted from the start of any day, on the day that it belongs to. -/
def atSecond? (day : Date) (second : Int) (nanosecond : Nat) : Option Timestamp :=
  if h : (second % 86400).toNat < 86400 ∧ nanosecond < 2000000000 then
    some ⟨day, (second % 86400).toNat, nanosecond, h.1, h.2⟩
  else none

theorem atSecond?_eq_some_iff {day : Date} {second : Int} {nanosecond : Nat} :
    atSecond? day second nanosecond = some t ↔
      day = t.date ∧ (second % 86400).toNat = t.second ∧ nanosecond = t.nanosecond := by
  obtain ⟨date, seconds, nanoseconds, hseconds, hnanoseconds⟩ := t
  rw [atSecond?]
  constructor
  · intro h
    split at h
    · cases h
      exact ⟨rfl, rfl, rfl⟩
    · cases h
  · rintro ⟨rfl, rfl, rfl⟩
    exact dif_pos ⟨hseconds, hnanoseconds⟩

/-- A local time is taken to universal time second by second, and the day follows. -/
theorem ofLocal?_eq (date : Date) (time : TimeOfDay) (offset : Int) :
    ofLocal? date time offset =
      if time.hour ≤ 23 ∧ time.minute ≤ 59 ∧ time.second ≤ 60 then
        (dayOf? date (time.seconds - offset * 60)).bind fun day =>
          atSecond? day (time.seconds - offset * 60)
            (time.nanosecond + if time.second = 60 then 1000000000 else 0)
      else none := by
  by_cases hvalid : time.hour ≤ 23 ∧ time.minute ≤ 59 ∧ time.second ≤ 60
  · have htest : (decide (23 < time.hour) || decide (59 < time.minute) ||
        decide (60 < time.second)) = false := by
      simp only [Bool.or_eq_false_iff, decide_eq_false_iff_not]
      omega
    have hseconds : (time.hour * 3600 + time.minute * 60 +
        if time.second = 60 then 59 else time.second) = time.seconds := rfl
    rw [if_pos hvalid, dayOf?]
    simp only [ofLocal?, htest, beq_iff_eq, hseconds, Bool.false_eq_true, if_false]
    by_cases hbefore : (time.seconds : Int) - offset * 60 < 0
    · rw [if_pos hbefore, if_pos hbefore]
      rfl
    · rw [if_neg hbefore, if_neg hbefore]
      by_cases hafter : 86400 ≤ (time.seconds : Int) - offset * 60
      · rw [if_pos hafter, if_pos hafter]
        rfl
      · rw [if_neg hafter, if_neg hafter]
        rfl
  · have htest : (decide (23 < time.hour) || decide (59 < time.minute) ||
        decide (60 < time.second)) = true := by
      simp only [Bool.or_eq_true, decide_eq_true_eq]
      omega
    rw [if_neg hvalid]
    simp only [ofLocal?, htest]
    rfl

/-- The clock of a regular instant shows a sixtieth second exactly within a leap second. -/
theorem second_clock_eq_sixty_iff (hregular : t.Regular) (fraction : Nat) :
    (t.clock fraction).second = 60 ↔ 1000000000 ≤ t.nanosecond := by
  by_cases hlate : 1000000000 ≤ t.nanosecond
  · have hend := hregular hlate
    simp only [clock, if_neg (Nat.not_lt.mpr hlate), hlate, iff_true]
    omega
  · simp only [clock, if_pos (Nat.lt_of_not_le hlate), hlate, iff_false]
    omega

/-- The clock shows the second of the day. -/
theorem seconds_clock (hregular : t.Regular) (fraction : Nat) :
    (t.clock fraction).seconds = t.second := by
  have hsixty := second_clock_eq_sixty_iff hregular fraction
  by_cases hlate : 1000000000 ≤ t.nanosecond
  · have hend := hregular hlate
    rw [TimeOfDay.seconds, if_pos (hsixty.mpr hlate)]
    simp only [clock]
    omega
  · rw [TimeOfDay.seconds, if_neg (mt hsixty.mp hlate)]
    simp only [clock, if_pos (Nat.lt_of_not_le hlate)]
    omega

/-- The time of day of a regular instant is that instant. -/
theorem ofLocal?_clock (hregular : t.Regular) {fraction : Nat} (h : fraction < 1000000000) :
    ofLocal? t.date (t.clock fraction) 0 = some (t.withFraction fraction h) := by
  have hday := t.second_lt
  have hnanosecond := t.nanosecond_lt
  have hvalid : (t.clock fraction).hour ≤ 23 ∧ (t.clock fraction).minute ≤ 59 ∧
      (t.clock fraction).second ≤ 60 := by
    simp only [clock]
    refine ⟨by omega, by omega, ?_⟩
    split <;> omega
  rw [ofLocal?_eq, if_pos hvalid, seconds_clock hregular, zero_mul, sub_zero, dayOf?, if_neg (by omega),
    if_neg (by omega), Option.bind_some, atSecond?_eq_some_iff]
  refine ⟨rfl, ?_, ?_⟩
  · show ((t.second : Int) % 86400).toNat = t.second
    omega
  · show fraction + _ = t.nanosecond / 1000000000 * 1000000000 + fraction
    simp only [second_clock_eq_sixty_iff hregular]
    split <;> omega

/-! ### What is read -/

theorem exactly?_lt (h : exactly? width cs = some (n, rest)) : n < 10 ^ width := by
  rw [exactly?] at h
  split at h
  rename_i ds rest' hspan
  split at h
  · rename_i hlength
    cases h
    obtain ⟨_, hspells, _, _⟩ := Text.exists_spells_of_spanDigits hspan
    rw [← hlength]
    exact hspells.ofDigits_lt
  · cases h

theorem fraction?_lt (h : fraction? cs = some (n, rest)) : n < 1000000000 := by
  rw [fraction?.eq_def] at h
  split at h
  · split at h
    · cases h
    · rename_i ds rest' hdigits hspan
      cases h
      obtain ⟨front, hspells, hlength, _⟩ := Text.exists_spells_of_spanDigits hspan
      rw [hspells.length_eq] at hlength
      calc Text.ofDigits 10 ds * 10 ^ (9 - ds.length)
          < 10 ^ ds.length * 10 ^ (9 - ds.length) :=
            Nat.mul_lt_mul_of_pos_right hspells.ofDigits_lt (by positivity)
        _ = 1000000000 := by rw [← Nat.pow_add, Nat.add_sub_cancel' hlength]
  · cases h
    decide

/-- An instant is read from a day of a plain year, a time of day and an offset. -/
theorem exists_of_read? (h : read? s = some t) :
    ∃ date time offset, ofLocal? date time offset = some t ∧
      (0 ≤ date.year ∧ date.year ≤ 9999) ∧ time.nanosecond < 1000000000 := by
  obtain ⟨⟨year, _⟩, hyear, h⟩ := Option.bind_eq_some_iff.mp h
  obtain ⟨_, _, h⟩ := Option.bind_eq_some_iff.mp h
  obtain ⟨⟨month, _⟩, _, h⟩ := Option.bind_eq_some_iff.mp h
  obtain ⟨_, _, h⟩ := Option.bind_eq_some_iff.mp h
  obtain ⟨⟨day, _⟩, _, h⟩ := Option.bind_eq_some_iff.mp h
  obtain ⟨_, _, h⟩ := Option.bind_eq_some_iff.mp h
  obtain ⟨⟨hour, _⟩, _, h⟩ := Option.bind_eq_some_iff.mp h
  obtain ⟨_, _, h⟩ := Option.bind_eq_some_iff.mp h
  obtain ⟨⟨minute, _⟩, _, h⟩ := Option.bind_eq_some_iff.mp h
  obtain ⟨_, _, h⟩ := Option.bind_eq_some_iff.mp h
  obtain ⟨⟨second, _⟩, _, h⟩ := Option.bind_eq_some_iff.mp h
  obtain ⟨⟨nanosecond, _⟩, hnanosecond, h⟩ := Option.bind_eq_some_iff.mp h
  obtain ⟨⟨offset, cs⟩, _, h⟩ := Option.bind_eq_some_iff.mp h
  simp only at h
  split at h
  · obtain ⟨date, hdate, h⟩ := Option.bind_eq_some_iff.mp h
    refine ⟨date, _, offset, h, ?_, fraction?_lt hnanosecond⟩
    have hbound := exactly?_lt hyear
    rw [← (Date.ofNumbers?_eq_some_iff.mp hdate).1]
    omega
  · cases h

/-- A leap second is only read at the end of a minute, whatever the offset: that is a whole number
of minutes. -/
theorem regular_of_ofLocal? {date : Date} {time : TimeOfDay} {offset : Int}
    (h : ofLocal? date time offset = some t) (hfraction : time.nanosecond < 1000000000) :
    t.Regular := by
  intro hlate
  rw [ofLocal?_eq, Option.ite_none_right_eq_some] at h
  obtain ⟨-, h⟩ := h
  obtain ⟨day, -, h⟩ := Option.bind_eq_some_iff.mp h
  obtain ⟨-, hsecond, hnanosecond⟩ := atSecond?_eq_some_iff.mp h
  have hleap : time.second = 60 := by
    by_contra hleap
    rw [if_neg hleap] at hnanosecond
    omega
  rw [TimeOfDay.seconds, if_pos hleap] at hsecond
  omega

/-- An offset moves an instant by a day at most, so that out of the plain years it comes to lie on
the day before them or on the day behind them. -/
theorem date_of_ofLocal? {date : Date} {time : TimeOfDay} {offset : Int}
    (h : ofLocal? date time offset = some t) (hyear : 0 ≤ date.year ∧ date.year ≤ 9999) :
    t.HasPlainYear ∨ (t.date.year = -1 ∧ t.date.month = 12 ∧ t.date.day = 31) ∨
      t.date.year = 10000 ∧ t.date.month = 1 ∧ t.date.day = 1 := by
  rw [ofLocal?_eq, Option.ite_none_right_eq_some] at h
  obtain ⟨-, h⟩ := h
  obtain ⟨day, hday, h⟩ := Option.bind_eq_some_iff.mp h
  obtain ⟨rfl, -, -⟩ := atSecond?_eq_some_iff.mp h
  rw [dayOf?] at hday
  rw [HasPlainYear]
  split at hday
  · have hstep := Date.year_of_previous? hday
    omega
  · split at hday
    · have hstep := Date.year_of_next? hday
      omega
    · cases hday
      exact .inl hyear

theorem regular_of_read? (h : read? s = some t) : t.Regular := by
  obtain ⟨_, _, _, hlocal, _, hfraction⟩ := exists_of_read? h
  exact regular_of_ofLocal? hlocal hfraction

/-! ### Reading back -/

theorem read?_text (hregular : t.Regular) (hyear : t.HasPlainYear) : read? t.text = some t := by
  have hfraction : t.nanosecond % 1000000000 < 1000000000 := Nat.mod_lt _ (by omega)
  rw [text, List.append_assoc, read?_ofList_secondChars hyear (fraction?_fractionChars t),
    ofLocal?_clock hregular hfraction, withFraction_mod]

theorem read?_canonicalText (hregular : t.Regular) (hyear : t.HasPlainYear) :
    read? t.canonicalText = some t.truncated := by
  have hend : fraction? ['Z'] = some (0, ['Z']) := rfl
  rw [canonicalText, read?_ofList_secondChars hyear hend, ofLocal?_clock hregular]
  rfl

/-- A year of any other kind is written with a sign, and no year is read there. -/
theorem read?_ofList_secondChars_eq_none (hyear : ¬ t.HasPlainYear) (tail : List Char) :
    read? (String.ofList (t.secondChars ++ tail)) = none := by
  have hsign : ∀ rest, exactly? 4 (Date.yearText t.date.year ++ rest) = none := by
    intro rest
    have hsigned : Date.yearText t.date.year =
        (if t.date.year < 0 then '-' else '+') :: Text.zeroPadded 4 t.date.year.natAbs :=
      if_neg hyear
    rw [hsigned, List.cons_append]
    apply exactly?_of_no_digit (by omega)
    split <;> decide
  rw [read?, toList_ofList_secondChars, hsign]
  rfl

end Timestamp

end Taxonomy
