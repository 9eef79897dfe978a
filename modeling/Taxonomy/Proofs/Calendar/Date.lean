import Mathlib.Data.List.TakeWhile
import Taxonomy.Calendar.Date
import Taxonomy.Proofs.Text.Digits

/-!
# The texts of a date

A day is read from more texts than the one that is written of it: white space may stand before each
number, zeros in front may be missing, and the year may have a sign. All these texts are described
here, apart from the reader, and among them those that are written: four, two and two digits, or a
sign and the digits of a year that has no four. So a day is read back from what is written of it, in
the whole range of the calendar.
-/

namespace Taxonomy

namespace Text

/-- White space with nothing between. -/
def Blank (cs : List Char) : Prop :=
  ∀ c ∈ cs, isBlank c = true

/-- White space, and then a text with the property. -/
def Spaced (P : List Char → Prop) (cs : List Char) : Prop :=
  ∃ blanks text, cs = blanks ++ text ∧ Blank blanks ∧ P text

variable {P : List Char → Prop} {cs : List Char}

theorem Spaced.of_unspaced (h : P cs) : Spaced P cs :=
  ⟨[], cs, rfl, fun _ hc => absurd hc List.not_mem_nil, h⟩

/-- What is left without the white space in front stands behind white space. -/
theorem exists_blank_trimStart (cs : List Char) :
    ∃ blanks, cs = blanks ++ trimStart cs ∧ Blank blanks :=
  ⟨cs.takeWhile isBlank, List.takeWhile_append_dropWhile.symm,
    fun _ hc => List.mem_takeWhile_imp hc⟩

theorem trimStart_append {blanks : List Char} (h : Blank blanks) (text : List Char) :
    trimStart (blanks ++ text) = trimStart text :=
  List.dropWhile_append_of_pos h

end Text

namespace Date

open Text (Denotes Padded Spaced)

variable {cs rest : List Char} {width n : Nat} {year : Int} {month day : Nat} {d : Date} {s : String}

/-- The number in digits, no more than the width. -/
def Within (width n : Nat) (cs : List Char) : Prop :=
  Denotes n cs ∧ cs.length ≤ width

/-- The number in as many digits as the width. -/
def Filling (width n : Nat) (cs : List Char) : Prop :=
  Denotes n cs ∧ cs.length = width

/-- A year of one to four digits, or with a sign and any number of digits. -/
inductive YearForm : Int → List Char → Prop
  | plain {n : Nat} {cs : List Char} (h : Within 4 n cs) : YearForm n cs
  | plus {n : Nat} {cs : List Char} (h : Denotes n cs) : YearForm n ('+' :: cs)
  | minus {n : Nat} {cs : List Char} (h : Denotes n cs) : YearForm (-n) ('-' :: cs)

/-- Year, month and day with hyphens between. -/
def Hyphenated (s : String) (P Q R : List Char → Prop) : Prop :=
  ∃ year month day, s.toList = year ++ '-' :: (month ++ '-' :: day) ∧ P year ∧ Q month ∧ R day

/-- The texts that the day is read from. -/
def Readable (d : Date) (s : String) : Prop :=
  Hyphenated s (Spaced (YearForm d.year)) (Spaced (Within 2 d.month)) (Spaced (Within 2 d.day))

/-- The day as four, two and two digits. -/
def HasForm (d : Date) (s : String) : Prop :=
  Hyphenated s (fun cs => ∃ n : Nat, d.year = n ∧ Filling 4 n cs) (Filling 2 d.month)
    (Filling 2 d.day)

/-- The day of a year that has no four digits: the year has its sign and no fewer than four digits,
and no needless zero. -/
def HasSignedForm (d : Date) (s : String) : Prop :=
  ¬ (0 ≤ d.year ∧ d.year ≤ 9999) ∧ Hyphenated s
    (fun cs => ∃ digits, cs = (if d.year < 0 then '-' else '+') :: digits ∧
      Padded 4 d.year.natAbs digits) (Filling 2 d.month) (Filling 2 d.day)

theorem Hyphenated.imp {P Q R P' Q' R' : List Char → Prop} (h : Hyphenated s P Q R)
    (hP : ∀ cs, P cs → P' cs) (hQ : ∀ cs, Q cs → Q' cs) (hR : ∀ cs, R cs → R' cs) :
    Hyphenated s P' Q' R' := by
  obtain ⟨year, month, day, hs, hyear, hmonth, hday⟩ := h
  exact ⟨year, month, day, hs, hP _ hyear, hQ _ hmonth, hR _ hday⟩

theorem hyphenated_congr {P Q R P' Q' R' : List Char → Prop} (hP : ∀ cs, P cs ↔ P' cs)
    (hQ : ∀ cs, Q cs ↔ Q' cs) (hR : ∀ cs, R cs ↔ R' cs) :
    Hyphenated s P Q R ↔ Hyphenated s P' Q' R' :=
  ⟨fun h => h.imp (fun cs => (hP cs).mp) (fun cs => (hQ cs).mp) (fun cs => (hR cs).mp),
    fun h => h.imp (fun cs => (hP cs).mpr) (fun cs => (hQ cs).mpr) (fun cs => (hR cs).mpr)⟩

theorem Filling.within (h : Filling width n cs) : Within width n cs :=
  ⟨h.1, Nat.le_of_eq h.2⟩

theorem HasForm.readable (h : HasForm d s) : Readable d s := by
  refine h.imp ?_ (fun _ h => .of_unspaced h.within) (fun _ h => .of_unspaced h.within)
  rintro cs ⟨n, hyear, hfilling⟩
  rw [hyear]
  exact .of_unspaced (.plain hfilling.within)

theorem HasSignedForm.readable (h : HasSignedForm d s) : Readable d s := by
  refine h.2.imp ?_ (fun _ h => .of_unspaced h.within) (fun _ h => .of_unspaced h.within)
  rintro cs ⟨digits, rfl, hpadded⟩
  apply Spaced.of_unspaced
  split
  · have hyear : d.year = -(d.year.natAbs : Int) := by omega
    rw [hyear]
    exact .minus hpadded.denotes
  · have hyear : d.year = (d.year.natAbs : Int) := by omega
    rw [hyear]
    exact .plus hpadded.denotes

/-! ### Reading the numbers -/

theorem mark?_eq_some_iff {c : Char} : mark? c cs = some rest ↔ cs = c :: rest := by
  cases cs with
  | nil => simp [mark?]
  | cons d cs => simp [mark?, eq_comm]

theorem exists_within_of_spanDigits {ds : List Nat} (h : Text.spanDigits width cs = (ds, rest))
    (hds : ds = [] → False) :
    ∃ digits, cs = digits ++ rest ∧ Within width (Text.ofDigits 10 ds) digits := by
  obtain ⟨digits, hspells, hlength, happend⟩ := Text.exists_spells_of_spanDigits h
  refine ⟨digits, happend.symm, ⟨?_, ds, hspells, rfl⟩, hlength⟩
  rintro rfl
  exact hds hspells.eq_nil

theorem spanDigits_of_within {digits : List Char} (h : Within width n digits)
    (hrest : ∀ c ∈ rest.head?, Text.digit? c = none) :
    ∃ d ds, Text.spanDigits width (digits ++ rest) = (d :: ds, rest) ∧
      Text.ofDigits 10 (d :: ds) = n := by
  obtain ⟨⟨hdigits, ds, hspells, hvalue⟩, hlength⟩ := h
  obtain ⟨d, ds, rfl⟩ := List.exists_cons_of_ne_nil (hspells.ne_nil hdigits)
  exact ⟨d, ds, Text.spanDigits_of_spells hspells hlength fun _ => hrest, hvalue⟩

theorem Within.trimStart (h : Within width n cs) (rest : List Char) :
    Text.trimStart (cs ++ rest) = cs ++ rest := by
  obtain ⟨⟨hcs, ds, hspells, -⟩, -⟩ := h
  exact Text.trimStart_of_spells hspells hcs rest

/-- What is read as a number is white space and digits at the front of the text. -/
theorem exists_of_number? (h : number? width cs = some (n, rest)) :
    ∃ front, cs = front ++ rest ∧ Spaced (Within width n) front := by
  obtain ⟨blanks, hcs, hblank⟩ := Text.exists_blank_trimStart cs
  rw [number?] at h
  split at h
  · cases h
  · rename_i ds rest' hds hspan
    cases h
    obtain ⟨digits, happend, hdigits⟩ := exists_within_of_spanDigits hspan hds
    exact ⟨blanks ++ digits, by rw [List.append_assoc, ← happend, ← hcs],
      blanks, digits, rfl, hblank, hdigits⟩

/-- A number is read where it stands, unless more digits follow it. -/
theorem number?_of_spaced {front : List Char} (h : Spaced (Within width n) front)
    (hrest : ∀ c ∈ rest.head?, Text.digit? c = none) :
    number? width (front ++ rest) = some (n, rest) := by
  obtain ⟨blanks, digits, rfl, hblank, hdigits⟩ := h
  obtain ⟨d, ds, hspan, hvalue⟩ := spanDigits_of_within hdigits hrest
  rw [number?, List.append_assoc, Text.trimStart_append hblank, hdigits.trimStart, hspan]
  simp only [hvalue]

/-- The digits in front of a text, with a factor for their sign. -/
def digitsWith (factor : Int) (cs : List Char) : Option (Int × List Char) :=
  match Text.spanDigits cs.length cs with
  | ([], _) => none
  | (ds, rest) => some (factor * Text.ofDigits 10 ds, rest)

theorem year?_eq (cs : List Char) : year? cs = match Text.trimStart cs with
    | '-' :: cs => digitsWith (-1) cs
    | '+' :: cs => digitsWith 1 cs
    | cs => (digitsWith 1 (cs.take 4)).map (fun r => (r.1, r.2 ++ cs.drop 4)) :=
  rfl

theorem exists_of_digitsWith {factor : Int} (h : digitsWith factor cs = some (year, rest)) :
    ∃ digits n, cs = digits ++ rest ∧ Within cs.length n digits ∧ year = factor * n := by
  rw [digitsWith] at h
  split at h
  · cases h
  · rename_i hds hspan
    cases h
    obtain ⟨digits, happend, hdigits⟩ := exists_within_of_spanDigits hspan hds
    exact ⟨digits, _, happend, hdigits, rfl⟩

theorem digitsWith_append {digits : List Char} (h : Denotes n digits)
    (hrest : ∀ c ∈ rest.head?, Text.digit? c = none) (factor : Int) :
    digitsWith factor (digits ++ rest) = some (factor * n, rest) := by
  have hwithin : Within (digits ++ rest).length n digits :=
    ⟨h, by rw [List.length_append]; omega⟩
  obtain ⟨d, ds, hspan, hvalue⟩ := spanDigits_of_within hwithin hrest
  rw [digitsWith, hspan]
  simp only [hvalue]

/-- What is read as a year is white space and one of the forms of the year. -/
theorem exists_of_year? (h : year? cs = some (year, rest)) :
    ∃ front, cs = front ++ rest ∧ Spaced (YearForm year) front := by
  obtain ⟨blanks, hcs, hblank⟩ := Text.exists_blank_trimStart cs
  rw [year?_eq] at h
  split at h
  · rename_i htrim
    obtain ⟨digits, n, rfl, hdigits, rfl⟩ := exists_of_digitsWith h
    refine ⟨blanks ++ '-' :: digits, ?_, blanks, _, rfl, hblank, ?_⟩
    · rw [List.append_assoc, List.cons_append, ← htrim, ← hcs]
    · rw [neg_one_mul]
      exact .minus hdigits.1
  · rename_i htrim
    obtain ⟨digits, n, rfl, hdigits, rfl⟩ := exists_of_digitsWith h
    refine ⟨blanks ++ '+' :: digits, ?_, blanks, _, rfl, hblank, ?_⟩
    · rw [List.append_assoc, List.cons_append, ← htrim, ← hcs]
    · rw [one_mul]
      exact .plus hdigits.1
  · obtain ⟨⟨_, rest'⟩, hread, heq⟩ := Option.map_eq_some_iff.mp h
    cases heq
    obtain ⟨digits, n, happend, ⟨hdenotes, hlength⟩, rfl⟩ := exists_of_digitsWith hread
    refine ⟨blanks ++ digits, ?_, blanks, _, rfl, hblank, ?_⟩
    · rw [List.append_assoc, ← List.append_assoc digits, ← happend, List.take_append_drop, ← hcs]
    · rw [one_mul]
      exact .plain ⟨hdenotes, hlength.trans (List.length_take_le 4 _)⟩

/-- A year is read where it stands, unless more digits follow it. -/
theorem year?_of_spaced {front : List Char} (h : Spaced (YearForm year) front)
    (hrest : ∀ c ∈ rest.head?, Text.digit? c = none) :
    year? (front ++ rest) = some (year, rest) := by
  obtain ⟨blanks, text, rfl, hblank, hyear⟩ := h
  rw [List.append_assoc, year?_eq, Text.trimStart_append hblank]
  cases hyear with
  | @minus n digits hdenotes =>
      have hsign : Text.trimStart ('-' :: digits ++ rest) = '-' :: (digits ++ rest) := rfl
      simp only [hsign, digitsWith_append hdenotes hrest, neg_one_mul]
  | @plus n digits hdenotes =>
      have hsign : Text.trimStart ('+' :: digits ++ rest) = '+' :: (digits ++ rest) := rfl
      simp only [hsign, digitsWith_append hdenotes hrest, one_mul]
  | @plain n _ hwithin =>
      rw [hwithin.trimStart rest]
      obtain ⟨hdenotes, hlength⟩ := hwithin
      have hstop : ∀ c ∈ (rest.take (4 - text.length)).head?, Text.digit? c = none := by
        intro c hc
        rw [List.head?_take] at hc
        split at hc
        · cases hc
        · exact hrest c hc
      have hread : digitsWith 1 ((text ++ rest).take 4) =
          some ((n : Int), rest.take (4 - text.length)) := by
        rw [List.take_append, List.take_of_length_le hlength, digitsWith_append hdenotes hstop,
          one_mul]
      have hdrop : (text ++ rest).drop 4 = rest.drop (4 - text.length) := by
        rw [List.drop_append, List.drop_of_length_le hlength, List.nil_append]
      -- The first character is a digit and hence no sign.
      obtain ⟨hcs, ds, hspells, -⟩ := hdenotes
      obtain ⟨c, cs, d, rfl, hdigit⟩ := hspells.exists_head hcs
      split
      · rename_i hsign
        exact absurd (List.cons.inj hsign).1 (Text.ne_of_digit? hdigit (by decide))
      · rename_i hsign
        exact absurd (List.cons.inj hsign).1 (Text.ne_of_digit? hdigit (by decide))
      · rw [hread, hdrop, Option.map_some, List.take_append_drop]

/-! ### Reading the day -/

theorem ofNumbers?_eq_some_iff :
    ofNumbers? year month day = some d ↔ year = d.year ∧ month = d.month ∧ day = d.day := by
  obtain ⟨year', month', day', hvalid⟩ := d
  rw [ofNumbers?]
  constructor
  · intro h
    split at h
    · cases h
      exact ⟨rfl, rfl, rfl⟩
    · cases h
  · rintro ⟨rfl, rfl, rfl⟩
    exact dif_pos hvalid

/-- A text is read as the days that it is a text of. -/
theorem read?_eq_some_iff : read? s = some d ↔ Readable d s := by
  constructor
  · intro h
    simp only [read?, Option.bind_eq_bind, Option.bind_eq_some_iff] at h
    obtain ⟨⟨year, _⟩, hyear, _, hmark, ⟨month, _⟩, hmonth, _, hmark', ⟨day, rest⟩, hday, hend⟩ := h
    split at hend
    · rename_i hempty
      obtain rfl := List.isEmpty_iff.mp hempty
      obtain ⟨rfl, rfl, rfl⟩ := ofNumbers?_eq_some_iff.mp hend
      obtain rfl := mark?_eq_some_iff.mp hmark
      obtain rfl := mark?_eq_some_iff.mp hmark'
      obtain ⟨yearText, hs, hyearText⟩ := exists_of_year? hyear
      obtain ⟨monthText, rfl, hmonthText⟩ := exists_of_number? hmonth
      obtain ⟨dayText, rfl, hdayText⟩ := exists_of_number? hday
      rw [List.append_nil] at hs
      exact ⟨yearText, monthText, dayText, hs, hyearText, hmonthText, hdayText⟩
    · cases hend
  · rintro ⟨yearText, monthText, dayText, hs, hyear, hmonth, hday⟩
    have hhyphen : ∀ (cs : List Char), ∀ c ∈ ('-' :: cs).head?, Text.digit? c = none := by
      rintro cs c ⟨rfl⟩
      decide
    have hnone : ∀ c ∈ ([] : List Char).head?, Text.digit? c = none := by
      rintro c ⟨⟩
    have hmark : ∀ cs, mark? '-' ('-' :: cs) = some cs := fun cs => mark?_eq_some_iff.mpr rfl
    have hlast : number? 2 dayText = some (d.day, []) := by
      rw [← number?_of_spaced hday hnone, List.append_nil]
    rw [read?, hs, year?_of_spaced hyear (hhyphen _)]
    simp only [Option.bind_eq_bind, Option.bind_some, hmark,
      number?_of_spaced hmonth (hhyphen _), hlast, List.isEmpty_nil, if_true]
    exact ofNumbers?_eq_some_iff.mpr ⟨rfl, rfl, rfl⟩

/-! ### Writing the day -/

theorem month_lt (d : Date) : d.month < 10 ^ 2 := by
  have hmonth := d.valid.2.1.2
  omega

theorem daysIn_le (year : Int) (month : Nat) : daysIn year month ≤ 31 := by
  unfold daysIn
  split
  · split <;> decide
  all_goals decide

theorem day_lt (d : Date) : d.day < 10 ^ 2 := by
  have hday := d.valid.2.2.2
  have hlength := daysIn_le d.year d.month
  omega

theorem filling_iff (hwidth : 0 < width) (h : n < 10 ^ width) :
    Filling width n cs ↔ cs = Text.zeroPadded width n := by
  rw [Text.eq_zeroPadded_iff hwidth]
  constructor
  · rintro ⟨hdenotes, rfl⟩
    exact ⟨hdenotes, Nat.le_refl _, fun hmore => absurd hmore (Nat.lt_irrefl _)⟩
  · intro hpadded
    refine ⟨hpadded.denotes, ?_⟩
    rw [(Text.eq_zeroPadded_iff hwidth).mpr hpadded, Text.length_zeroPadded hwidth h]

theorem Filling.lt (h : Filling width n cs) : n < 10 ^ width := by
  obtain ⟨⟨-, ds, hspells, rfl⟩, rfl⟩ := h
  rw [hspells.length_eq]
  exact hspells.ofDigits_lt

theorem eq_yearText_iff_of_plain (h : 0 ≤ year ∧ year ≤ 9999) :
    cs = yearText year ↔ ∃ n : Nat, year = n ∧ Filling 4 n cs := by
  obtain ⟨n, rfl⟩ := Int.eq_ofNat_of_zero_le h.1
  rw [yearText, if_pos h, Int.toNat_natCast, ← filling_iff (by omega) (by omega)]
  constructor
  · exact fun hfilling => ⟨n, rfl, hfilling⟩
  · rintro ⟨m, hm, hfilling⟩
    rwa [Int.natCast_inj.mp hm]

theorem eq_yearText_iff_of_signed (h : ¬ (0 ≤ year ∧ year ≤ 9999)) :
    cs = yearText year ↔ ∃ digits, cs = (if year < 0 then '-' else '+') :: digits ∧
      Padded 4 year.natAbs digits := by
  simp only [yearText, if_neg h, ← Text.eq_zeroPadded_iff (Nat.zero_lt_succ 3), exists_eq_right]

theorem eq_text_iff_hyphenated : s = d.text ↔ Hyphenated s (· = yearText d.year)
    (· = Text.zeroPadded 2 d.month) (· = Text.zeroPadded 2 d.day) := by
  have hchars : d.text.toList = yearText d.year ++ '-' :: (Text.zeroPadded 2 d.month ++
      '-' :: Text.zeroPadded 2 d.day) := by
    rw [text, String.toList_ofList, chars, List.append_assoc, List.cons_append]
  constructor
  · rintro rfl
    exact ⟨_, _, _, hchars, rfl, rfl, rfl⟩
  · rintro ⟨_, _, _, hs, rfl, rfl, rfl⟩
    exact String.toList_injective (hs.trans hchars.symm)

/-- What is written of a day is the text of its form, or of the form with a sign. -/
theorem eq_text_iff : s = d.text ↔ HasForm d s ∨ HasSignedForm d s := by
  have hmonth : ∀ cs, Filling 2 d.month cs ↔ cs = Text.zeroPadded 2 d.month :=
    fun cs => filling_iff (by omega) (month_lt d)
  have hday : ∀ cs, Filling 2 d.day cs ↔ cs = Text.zeroPadded 2 d.day :=
    fun cs => filling_iff (by omega) (day_lt d)
  by_cases hplain : 0 ≤ d.year ∧ d.year ≤ 9999
  · have hform : HasForm d s ↔ s = d.text := by
      rw [eq_text_iff_hyphenated]
      exact hyphenated_congr (fun cs => (eq_yearText_iff_of_plain hplain).symm) hmonth hday
    rw [hform, or_iff_left fun h => h.1 hplain]
  · have hsigned : HasSignedForm d s ↔ s = d.text := by
      rw [eq_text_iff_hyphenated, HasSignedForm, and_iff_right hplain]
      exact hyphenated_congr (fun cs => (eq_yearText_iff_of_signed hplain).symm) hmonth hday
    have hnoForm : ¬ HasForm d s := by
      rintro ⟨_, _, _, _, ⟨n, hyear, hfilling⟩, -⟩
      have hlt := hfilling.lt
      omega
    rw [hsigned, or_iff_right hnoForm]

/-- A day is read back from its text. -/
theorem read?_text (d : Date) : read? d.text = some d :=
  read?_eq_some_iff.mpr ((eq_text_iff.mp rfl).elim HasForm.readable HasSignedForm.readable)

end Date

end Taxonomy
