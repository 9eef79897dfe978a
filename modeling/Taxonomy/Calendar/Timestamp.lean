import Taxonomy.Calendar.Date

/-!
# Instants in universal time

An instant is a day, a second of the day and nanoseconds. A leap second is the second before
it with more than a thousand million nanoseconds: it keeps its own text and comes before the next
second. Offsets are taken away on reading, so that only universal time is kept.
-/

namespace Taxonomy

/-- An instant in universal time. -/
structure Timestamp where
  date : Date
  second : Nat
  nanosecond : Nat
  second_lt : second < 86400
  nanosecond_lt : nanosecond < 2000000000
deriving DecidableEq

namespace Timestamp

/-- Whether one instant comes before another. -/
def isBefore (a b : Timestamp) : Bool :=
  a.date.isBefore b.date || (decide (a.date = b.date) &&
    (decide (a.second < b.second) ||
      (a.second == b.second && decide (a.nanosecond < b.nanosecond))))

/-- The place of one instant relative to another. -/
def compare (a b : Timestamp) : Ordering :=
  if a.isBefore b then .lt else if b.isBefore a then .gt else .eq

/-- Day and time of day without the fraction, a leap second as second sixty. -/
def secondChars (t : Timestamp) : List Char :=
  let leap := if t.nanosecond < 1000000000 then 0 else 1
  t.date.chars ++ 'T' :: Text.zeroPadded 2 (t.second / 3600) ++
    ':' :: Text.zeroPadded 2 (t.second / 60 % 60) ++
    ':' :: Text.zeroPadded 2 (t.second % 60 + leap)

/-- The fraction of a second with as few of 0, 3, 6 or 9 digits as hold it exactly. -/
def fractionChars (t : Timestamp) : List Char :=
  let n := t.nanosecond % 1000000000
  if n = 0 then []
  else if n % 1000000 = 0 then '.' :: Text.zeroPadded 3 (n / 1000000)
  else if n % 1000 = 0 then '.' :: Text.zeroPadded 6 (n / 1000)
  else '.' :: Text.zeroPadded 9 n

/-- The text of an instant to the whole second. -/
def canonicalText (t : Timestamp) : String :=
  String.ofList (t.secondChars ++ ['Z'])

/-- The text of an instant with its fraction. -/
def text (t : Timestamp) : String :=
  String.ofList (t.secondChars ++ t.fractionChars ++ ['Z'])

/-- A time of day as written, its second at most sixty. -/
structure TimeOfDay where
  hour : Nat
  minute : Nat
  second : Nat
  nanosecond : Nat

/-- The instant of a day, a time of day and an offset from universal time in minutes. -/
def ofLocal? (date : Date) (time : TimeOfDay) (offset : Int) : Option Timestamp := do
  if 23 < time.hour || 59 < time.minute || 60 < time.second then none
  let leap := time.second == 60
  let second := time.hour * 3600 + time.minute * 60 + (if leap then 59 else time.second)
  let universal : Int := second - offset * 60
  let date ←
    if universal < 0 then date.previous?
    else if 86400 ≤ universal then date.next?
    else some date
  let nanosecond := time.nanosecond + if leap then 1000000000 else 0
  if h : (universal % 86400).toNat < 86400 ∧ nanosecond < 2000000000 then
    some ⟨date, (universal % 86400).toNat, nanosecond, h.1, h.2⟩
  else none

/-- A number of exactly as many digits as given. -/
def exactly? (width : Nat) (cs : List Char) : Option (Nat × List Char) :=
  match Text.spanDigits width cs with
  | (ds, rest) => if ds.length = width then some (Text.ofDigits 10 ds, rest) else none

/-- A point and at least one digit, if there is a point; digits after the ninth do not count. -/
def fraction? : List Char → Option (Nat × List Char)
  | '.' :: cs =>
    match Text.spanDigits 9 cs with
    | ([], _) => none
    | (ds, rest) =>
      some (Text.ofDigits 10 ds * Nat.pow 10 (9 - ds.length), rest.dropWhile Text.isDigit)
  | cs => some (0, cs)

/-- An offset in minutes: `Z`, or a sign, two digits of hours and two of minutes with something
between them. The hyphen, the plus and the minus sign are signs. -/
def offset? (between? : List Char → Option (List Char)) : List Char → Option (Int × List Char)
  | [] => none
  | c :: cs =>
    if c = 'Z' ∨ c = 'z' then some (0, cs)
    else if c = '+' ∨ c = '-' ∨ c = '\u2212' then do
      let (hours, cs) ← exactly? 2 cs
      let (minutes, cs) ← exactly? 2 (← between? cs)
      if 59 < minutes || 23 < hours then none
      let n : Int := hours * 60 + minutes
      some (if c = '+' then n else -n, cs)
    else none

/-- The character between day and time of day. -/
def separator? : List Char → Option (List Char)
  | 'T' :: cs => some cs
  | 't' :: cs => some cs
  | ' ' :: cs => some cs
  | _ => none

/-- Read an instant in the form that requests use: four digits of year, two of everything
else, and an offset with a colon. -/
def read? (s : String) : Option Timestamp := do
  let (year, cs) ← exactly? 4 s.toList
  let (month, cs) ← exactly? 2 (← Date.mark? '-' cs)
  let (day, cs) ← exactly? 2 (← Date.mark? '-' cs)
  let (hour, cs) ← exactly? 2 (← separator? cs)
  let (minute, cs) ← exactly? 2 (← Date.mark? ':' cs)
  let (second, cs) ← exactly? 2 (← Date.mark? ':' cs)
  let (nanosecond, cs) ← fraction? cs
  let (offset, cs) ← offset? (Date.mark? ':') cs
  if cs.isEmpty then
    ofLocal? (← Date.ofNumbers? year month day) ⟨hour, minute, second, nanosecond⟩ offset
  else none

/-- A mark after any white space. -/
def spacedMark? (c : Char) (cs : List Char) : Option (List Char) :=
  Date.mark? c (Text.trimStart cs)

/-- The letters of universal time in either case, or an offset whose parts may be joined by colons
and white space or by nothing. -/
def relaxedOffset? (cs : List Char) : Option (Int × List Char) :=
  match cs with
  | a :: b :: c :: rest =>
    if (a = 'U' ∨ a = 'u') ∧ (b = 'T' ∨ b = 't') ∧ (c = 'C' ∨ c = 'c') then some (0, rest)
    else offset? (fun cs => some (cs.dropWhile (fun c => c == ':' || Text.isBlank c))) cs
  | cs => offset? (fun cs => some (cs.dropWhile (fun c => c == ':' || Text.isBlank c))) cs

/-- Read an instant in the form that stored values may have: white space before every part, numbers
of fewer digits, and years with a sign. -/
def readRelaxed? (s : String) : Option Timestamp := do
  let (year, cs) ← Date.year? s.toList
  let (month, cs) ← Date.number? 2 (← spacedMark? '-' cs)
  let (day, cs) ← Date.number? 2 (← spacedMark? '-' cs)
  let (hour, cs) ← Date.number? 2 (← separator? cs)
  let (minute, cs) ← Date.number? 2 (← spacedMark? ':' cs)
  let (second, cs) ← Date.number? 2 (← spacedMark? ':' cs)
  let (nanosecond, cs) ← fraction? cs
  let (offset, cs) ← relaxedOffset? (Text.trimStart cs)
  if (Text.trimStart cs).isEmpty then
    ofLocal? (← Date.ofNumbers? year month day) ⟨hour, minute, second, nanosecond⟩ offset
  else none

end Timestamp

end Taxonomy
