import Taxonomy.Yaml.Characters
import Taxonomy.Yaml.Tag

/-!
# Tags, anchors and directives

The written parts of a tag are a handle and the rest of it; which tag they mean depends on
the directives of the document. Octets may be escaped by a percent sign and two digits; those of one
character are all escaped, and there are as many of them as the first one says.
-/

namespace Taxonomy.Yaml

/-- The characters of a tag outside brackets. -/
def isTagChar (c : Char) : Bool :=
  isNameChar c || ";/?:@&=+$.%!~*'()".toList.contains c

/-- The characters of a tag inside angle brackets or in a directive. -/
def isUriChar (c : Char) : Bool :=
  isTagChar c || c == ',' || c == '[' || c == ']'

/-- The number of octets that follow the first one of a character. -/
def octetsAfter? (first : Nat) : Option Nat :=
  if first < 0x80 then some 0
  else if first / 0x20 = 6 then some 1
  else if first / 0x10 = 14 then some 2
  else if first / 0x08 = 30 then some 3
  else none

/-- The number of octets that a character still needs after one more octet. -/
def pendingAfter? (pending octet : Nat) : Option Nat :=
  match pending with
  | 0 => octetsAfter? octet
  | pending + 1 => if octet / 0x40 = 2 then some pending else none

/-- The octets of ASCII characters with escaped octets among them, where `pending` octets of the
character before are still to come. -/
def unescapeOctets? (pending : Nat) : List Char → Option (List UInt8)
  | [] => if pending = 0 then some [] else none
  | '%' :: a :: b :: cs => do
    let octet := (← Text.hexDigit? a) * 16 + (← Text.hexDigit? b)
    return UInt8.ofNat octet :: (← unescapeOctets? (← pendingAfter? pending octet) cs)
  | '%' :: _ => none
  | c :: cs => if pending = 0 then (unescapeOctets? 0 cs).map (UInt8.ofNat c.toNat :: ·) else none

/-- The octets of a part of a tag. -/
def tagOctets? (cs : List Char) : Option (List UInt8) :=
  (unescapeOctets? 0 cs).map Tag.untilZero

/-- A name after the mark of an anchor or alias. What follows a name is a gap or one of a few
marks. -/
def readName? (c : Cursor) : Option (String × Cursor) :=
  let (name, next) := (c.skip 1).takeWhile isNameChar
  let ends := atGap next.rest || match next.rest with
    | d :: _ => "?:,]\x7d%@\x60".toList.contains d
    | [] => true
  if name.isEmpty || !ends then none else some (String.ofList name, next)

/-- The handle in front: an exclamation mark, a name, and another mark if the name is a handle. -/
def takeHandle (c : Cursor) : List Char × Cursor :=
  let (name, next) := (c.skip 1).takeWhile isNameChar
  match next.rest with
  | '!' :: _ => ('!' :: name ++ ['!'], next.skip 1)
  | _ => ('!' :: name, next)

/-- The handle and the rest of a tag. In angle brackets a tag is written out, without a handle; a lone
exclamation mark is a tag of that name. -/
def readTag? (flow : Bool) (c : Cursor) : Option (String × List UInt8 × Cursor) := do
  let (handle, suffix, next) ← match c.rest with
    | '!' :: '<' :: _ =>
      let (uri, next) := (c.skip 2).takeWhile isUriChar
      match uri, next.rest with
      | _ :: _, '>' :: _ => (tagOctets? uri).map (fun uri => ("", uri, next.skip 1))
      | _, _ => none
    | _ =>
      let (handle, next) := takeHandle c
      let (suffix, last) := next.takeWhile isTagChar
      if 1 < handle.length && handle.getLast? == some '!' then
        if suffix.isEmpty then none
        else (tagOctets? suffix).map (fun suffix => (String.ofList handle, suffix, last))
      else (tagOctets? (handle.drop 1 ++ suffix)).map (fun suffix =>
        if suffix.isEmpty then ("", [Tag.mark], last) else ("!", suffix, last))
  let ends := atGap next.rest || (flow && next.rest.head? == some ',')
  if ends then some (handle, suffix, next) else none

/-- A directive of a document. -/
inductive Directive
  | version (major minor : Nat)
  | tagHandle (handle : String) (start : List UInt8)

namespace Directive

/-- A number of one to nine digits. -/
def number? (c : Cursor) : Option (Nat × Cursor) :=
  let (digits, next) := c.takeWhile Text.isDigit
  if digits.isEmpty || 9 < digits.length then none
  else some (Text.ofDigits 10 (digits.filterMap Text.digit?), next)

/-- Two numbers with a point between them. -/
def readVersion? (c : Cursor) : Option (Directive × Cursor) := do
  let (major, c) ← number? c.skipBlanks
  match c.rest with
  | '.' :: _ => do
    let (minor, c) ← number? (c.skip 1)
    some (version major minor, c)
  | _ => none

/-- A handle and what it stands for. -/
def readTagHandle? (c : Cursor) : Option (Directive × Cursor) := do
  let c := c.skipBlanks
  if c.rest.head? ≠ some '!' then none
  let (handle, c) := takeHandle c
  if handle ≠ ['!'] ∧ handle.getLast? ≠ some '!' then none
  if !(c.rest.head?.any isBlank) then none
  let (uri, c) := c.skipBlanks.takeWhile isUriChar
  if uri.isEmpty || !atGap c.rest then none
  some (tagHandle (String.ofList handle) (← tagOctets? uri), c)

/-- A directive from its percent sign to the end of its line. -/
def read? (c : Cursor) : Option (Directive × Cursor) := do
  let (name, c) := (c.skip 1).takeWhile isNameChar
  if name.isEmpty || !atGap c.rest then none
  let (directive, c) ← match String.ofList name with
    | "YAML" => readVersion? c
    | "TAG" => readTagHandle? c
    | _ => none
  some (directive, ← c.finishLine?)

end Directive

end Taxonomy.Yaml
