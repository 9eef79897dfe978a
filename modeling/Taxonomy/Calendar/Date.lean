import Taxonomy.Text.Blank
import Taxonomy.Text.Digits

/-!
# Calendar dates

Days of the Gregorian calendar, carried backwards and forwards without change, in the years
-262143 to 262142. A date is written as year, month and day; years of four digits have no sign,
all others do.
-/

namespace Taxonomy

namespace Date

def isLeap (year : Int) : Bool :=
  year % 4 == 0 && (year % 100 != 0 || year % 400 == 0)

/-- The number of days of a month counted from one. -/
def daysIn (year : Int) (month : Nat) : Nat :=
  match month with
  | 2 => if isLeap year then 29 else 28
  | 4 | 6 | 9 | 11 => 30
  | _ => 31

/-- The day exists, in a year within the range of the calendar. -/
def Valid (year : Int) (month day : Nat) : Prop :=
  (-262143 ≤ year ∧ year ≤ 262142) ∧ (1 ≤ month ∧ month ≤ 12) ∧ 1 ≤ day ∧ day ≤ daysIn year month

instance (year : Int) (month day : Nat) : Decidable (Valid year month day) :=
  inferInstanceAs (Decidable ((_ ∧ _) ∧ (_ ∧ _) ∧ _ ∧ _))

end Date

/-- A day of the calendar. -/
structure Date where
  year : Int
  month : Nat
  day : Nat
  valid : Date.Valid year month day
deriving DecidableEq

namespace Date

/-- The day of given numbers, if it exists. -/
def ofNumbers? (year : Int) (month day : Nat) : Option Date :=
  if h : Valid year month day then some ⟨year, month, day, h⟩ else none

/-- Whether one day comes before another. -/
def isBefore (a b : Date) : Bool :=
  decide (a.year < b.year) || (a.year == b.year &&
    (decide (a.month < b.month) || (a.month == b.month && decide (a.day < b.day))))

def next? (d : Date) : Option Date :=
  (ofNumbers? d.year d.month (d.day + 1)).or
    ((ofNumbers? d.year (d.month + 1) 1).or (ofNumbers? (d.year + 1) 1 1))

def previous? (d : Date) : Option Date :=
  if 1 < d.day then ofNumbers? d.year d.month (d.day - 1)
  else if 1 < d.month then ofNumbers? d.year (d.month - 1) (daysIn d.year (d.month - 1))
  else ofNumbers? (d.year - 1) 12 31

/-- The text of a year: four digits, or a sign and at least four digits. -/
def yearText (year : Int) : List Char :=
  if 0 ≤ year ∧ year ≤ 9999 then Text.zeroPadded 4 year.toNat
  else (if year < 0 then '-' else '+') :: Text.zeroPadded 4 year.natAbs

def chars (d : Date) : List Char :=
  yearText d.year ++ '-' :: Text.zeroPadded 2 d.month ++ '-' :: Text.zeroPadded 2 d.day

def text (d : Date) : String :=
  String.ofList d.chars

/-- A number of one digit up to a greatest width, after any white space. -/
def number? (width : Nat) (cs : List Char) : Option (Nat × List Char) :=
  match Text.spanDigits width (Text.trimStart cs) with
  | ([], _) => none
  | (ds, rest) => some (Text.ofDigits 10 ds, rest)

/-- A year of one to four digits, or a sign and any number of digits, after any white space. -/
def year? (cs : List Char) : Option (Int × List Char) :=
  let signed (factor : Int) (cs : List Char) : Option (Int × List Char) :=
    match Text.spanDigits cs.length cs with
    | ([], _) => none
    | (ds, rest) => some (factor * Text.ofDigits 10 ds, rest)
  match Text.trimStart cs with
  | '-' :: cs => signed (-1) cs
  | '+' :: cs => signed 1 cs
  | cs => signed 1 (cs.take 4) |>.map (fun r => (r.1, r.2 ++ cs.drop 4))

/-- Take a given character off the front. -/
def mark? (c : Char) : List Char → Option (List Char)
  | [] => none
  | d :: cs => if d = c then some cs else none

/-- Read a date: year, month and day with a hyphen right after each of the first two. White space
may stand before a number. -/
def read? (s : String) : Option Date := do
  let (year, cs) ← year? s.toList
  let (month, cs) ← number? 2 (← mark? '-' cs)
  let (day, cs) ← number? 2 (← mark? '-' cs)
  if cs.isEmpty then ofNumbers? year month day else none

end Date

end Taxonomy
