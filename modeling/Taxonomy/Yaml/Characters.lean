import Taxonomy.Text.Digits

/-!
# Characters of a YAML text

Line ends come in several spellings. All but the two separators of Unicode count as one
line feed, and are made one before anything else is looked at. Control characters are not allowed.
-/

namespace Taxonomy.Yaml

/-- Whether a character may stand in a YAML text. -/
def isAllowed (c : Char) : Bool :=
  let n := c.toNat
  n == 0x9 || n == 0xA || n == 0xD || (0x20 ≤ n && n ≤ 0x7E) || n == 0x85 ||
    (0xA0 ≤ n && n ≤ 0xD7FF) || (0xE000 ≤ n && n ≤ 0xFFFD) || 0x10000 ≤ n

/-- Make every common line end a line feed. -/
def withLineFeeds : List Char → List Char
  | [] => []
  | '\r' :: '\n' :: cs => '\n' :: withLineFeeds cs
  | c :: cs => (if c = '\r' ∨ c = '\x85' then '\n' else c) :: withLineFeeds cs

def isBreak (c : Char) : Bool :=
  c == '\n' || c == '\u2028' || c == '\u2029'

def isBlank (c : Char) : Bool :=
  c == ' ' || c == '\t'

/-- Whether a blank, a line end or the end of the text comes next. -/
def atGap : List Char → Bool
  | [] => true
  | c :: _ => isBlank c || isBreak c

/-- The characters of names: ASCII letters and digits, the underscore and the hyphen. -/
def isNameChar (c : Char) : Bool :=
  ('a' ≤ c && c ≤ 'z') || ('A' ≤ c && c ≤ 'Z') || Text.isDigit c || c == '_' || c == '-'

/-- Whether a mark of three equal characters that stands for itself comes next. -/
def startsMark (m : Char) : List Char → Bool
  | a :: b :: c :: rest => a == m && b == m && c == m && atGap rest
  | _ => false

/-- Whether the start or the end of a document is marked here. -/
def startsDocumentMark (cs : List Char) : Bool :=
  startsMark '-' cs || startsMark '.' cs

/-- A place in a text. -/
structure Place where
  /-- The number of octets before it, line ends counted as one each. -/
  index : Nat := 0
  line : Nat := 0
  column : Nat := 0

namespace Place

/-- The place after one character. -/
def past (p : Place) (c : Char) : Place :=
  if isBreak c then ⟨p.index + 1, p.line + 1, 0⟩ else ⟨p.index + c.utf8Size, p.line, p.column + 1⟩

/-- The place after some characters of one line that have one octet each. -/
def skip (p : Place) (n : Nat) : Place :=
  ⟨p.index + n, p.line, p.column + n⟩

end Place

/-- A place and the text that remains from there. -/
structure Cursor where
  place : Place
  rest : List Char

namespace Cursor

/-- Move on by some characters of one line that have one octet each. -/
def skip (c : Cursor) (n : Nat) : Cursor :=
  ⟨c.place.skip n, c.rest.drop n⟩

/-- Take the characters in front that satisfy a test; none of them is a line end. -/
def takeWhile (p : Char → Bool) (c : Cursor) : List Char × Cursor :=
  let taken := c.rest.takeWhile p
  (taken, ⟨taken.foldl Place.past c.place, c.rest.drop taken.length⟩)

/-- Move past blanks. -/
def skipBlanks (c : Cursor) : Cursor :=
  (c.takeWhile isBlank).2

/-- Move past blanks, a comment and the end of the line. Nothing else may stand there. -/
def finishLine? (c : Cursor) : Option Cursor :=
  let c := c.skipBlanks
  let c := match c.rest with
    | '#' :: _ => (c.takeWhile (fun c => !isBreak c)).2
    | _ => c
  match c.rest with
  | [] => some c
  | b :: rest => if isBreak b then some ⟨c.place.past b, rest⟩ else none

end Cursor

end Taxonomy.Yaml
