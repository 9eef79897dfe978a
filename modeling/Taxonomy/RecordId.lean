import Taxonomy.Text.Digits
import Taxonomy.Text.Split

/-!
# Record identifiers

An identifier is a number of 128 bits. Its canonical text has 32 hexadecimal digits in
groups of 8, 4, 4, 4 and 12 with hyphens between them; letters are written in lower case and read
in either.
-/

namespace Taxonomy

/-- The identifier of a record. -/
structure RecordId where
  bits : BitVec 128
deriving DecidableEq

namespace RecordId

/-- The lengths of the groups of digits. -/
def groupLengths : List Nat := [8, 4, 4, 4, 12]

/-- Whether groups of characters are hexadecimal digits of the canonical lengths. -/
def areGroups : List (List Char) → List Nat → Bool
  | [], [] => true
  | group :: groups, length :: lengths =>
    group.length == length && group.all Text.isHexDigit && areGroups groups lengths
  | _, _ => false

/-- Whether characters are the canonical text of an identifier, in any letter case. -/
def isCanonicalChars (cs : List Char) : Bool :=
  areGroups (Text.splitAt '-' cs) groupLengths

def isCanonical (s : String) : Bool :=
  isCanonicalChars s.toList

/-- The identifier that hexadecimal digits denote. -/
def ofDigits (cs : List Char) : RecordId :=
  ⟨BitVec.ofNat 128 (Text.ofDigits 16 (cs.filterMap Text.hexDigit?))⟩

/-- The 32 hexadecimal digits. -/
def digits (id : RecordId) : List Char :=
  (List.range 32).map (fun i => Text.hexChar (id.bits.toNat / Nat.pow 16 (31 - i) % 16))

/-- Cut characters into groups of given lengths with hyphens between them. -/
def hyphenated : List Nat → List Char → List Char
  | [], _ => []
  | [length], cs => cs.take length
  | length :: lengths, cs => cs.take length ++ '-' :: hyphenated lengths (cs.drop length)

def chars (id : RecordId) : List Char :=
  hyphenated groupLengths id.digits

/-- The canonical text in lower case. -/
def text (id : RecordId) : String :=
  String.ofList id.chars

/-- Read the canonical text. -/
def read? (s : String) : Option RecordId :=
  if isCanonical s then some (ofDigits s.toList) else none

/-- What stands before the canonical text in a name, in any letter case. -/
def nameStart : List Char := "urn:uuid:".toList

/-- Read any text form of an identifier: canonical, without hyphens, in braces, or as a name. -/
def readAny? (s : String) : Option RecordId :=
  let cs := s.toList
  let canonical? (cs : List Char) : Option RecordId :=
    if isCanonicalChars cs then some (ofDigits cs) else none
  match cs with
  | '\x7b' :: rest =>
    if rest.getLast? = some '\x7d' then canonical? rest.dropLast else none
  | cs =>
    if (cs.take nameStart.length).map Char.toLower = nameStart then
      canonical? (cs.drop nameStart.length)
    else if cs.length = 32 && cs.all Text.isHexDigit then some (ofDigits cs)
    else canonical? cs

/-- The identifier made of random bits: the version field says four, the variant field is `10`. -/
def ofRandomBits (bits : BitVec 128) : RecordId :=
  let version : BitVec 128 := BitVec.ofNat 128 (0xF <<< 76)
  let variant : BitVec 128 := BitVec.ofNat 128 (0x3 <<< 62)
  ⟨(bits &&& ~~~version &&& ~~~variant) ||| BitVec.ofNat 128 (0x4 <<< 76) |||
    BitVec.ofNat 128 (0x2 <<< 62)⟩

/-- The version field. -/
def version (id : RecordId) : Nat :=
  id.bits.toNat / Nat.pow 16 19 % 16

end RecordId

end Taxonomy
