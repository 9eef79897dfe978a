/-!
# Digits and whole numbers

Values of ASCII digits, the number a list of digit values denotes, fixed-width decimal
text, and the reading of unsigned numbers with a greatest value.
-/

namespace Taxonomy.Text

/-- The value of an ASCII decimal digit. -/
def digit? (c : Char) : Option Nat :=
  if '0' ≤ c ∧ c ≤ '9' then some (c.toNat - 48) else none

def isDigit (c : Char) : Bool :=
  (digit? c).isSome

/-- The value of an ASCII hexadecimal digit in either case. -/
def hexDigit? (c : Char) : Option Nat :=
  if '0' ≤ c ∧ c ≤ '9' then some (c.toNat - 48)
  else if 'a' ≤ c ∧ c ≤ 'f' then some (c.toNat - 87)
  else if 'A' ≤ c ∧ c ≤ 'F' then some (c.toNat - 55)
  else none

def isHexDigit (c : Char) : Bool :=
  (hexDigit? c).isSome

/-- The lower-case hexadecimal digit of a value below sixteen. -/
def hexChar (n : Nat) : Char :=
  if n < 10 then Char.ofNat (48 + n) else Char.ofNat (87 + n)

/-- The number whose digits, greatest place first, are given. -/
def ofDigits (base : Nat) (digits : List Nat) : Nat :=
  digits.foldl (fun n d => n * base + d) 0

/-- The decimal text of a number, filled with zeros on the left up to a width. -/
def zeroPadded (width n : Nat) : List Char :=
  let ds := Nat.toDigits 10 n
  List.replicate (width - ds.length) '0' ++ ds

/-- The digits at the front, at most as many as `most`, and what follows them. -/
def spanDigits : (most : Nat) → List Char → List Nat × List Char
  | 0, cs => ([], cs)
  | _ + 1, [] => ([], [])
  | most + 1, c :: cs =>
    match digit? c with
    | none => ([], c :: cs)
    | some d => let (ds, rest) := spanDigits most cs; (d :: ds, rest)

/-- Why a text is not an unsigned number. -/
inductive UnsignedFault
  | empty
  | invalidDigit
  | tooLarge
deriving DecidableEq, Repr

namespace UnsignedFault

def message : UnsignedFault → String
  | empty => "cannot parse integer from empty string"
  | invalidDigit => "invalid digit found in string"
  | tooLarge => "number too large to fit in target type"

end UnsignedFault

/-- Read digits of a base on top of a number read so far; the first bad digit or overflow counts. -/
def readDigits (value? : Char → Option Nat) (base greatest : Nat) :
    Nat → List Char → Except UnsignedFault Nat
  | n, [] => .ok n
  | n, c :: cs =>
    match value? c with
    | none => .error .invalidDigit
    | some d =>
      if greatest < n * base + d then .error .tooLarge
      else readDigits value? base greatest (n * base + d) cs

/-- Read an unsigned number of a base, with an optional plus sign. -/
def readUnsigned (value? : Char → Option Nat) (base greatest : Nat) :
    List Char → Except UnsignedFault Nat
  | [] => .error .empty
  | ['+'] => .error .invalidDigit
  | '+' :: cs => readDigits value? base greatest 0 cs
  | cs => readDigits value? base greatest 0 cs

/-- Read an unsigned decimal number of 64 bits. -/
def readLength (s : String) : Except UnsignedFault Nat :=
  readUnsigned digit? 10 (Nat.pow 2 64 - 1) s.toList

end Taxonomy.Text
