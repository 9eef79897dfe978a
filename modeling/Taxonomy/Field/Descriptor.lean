import Taxonomy.Field.Constraints
import Taxonomy.Field.Facet
import Taxonomy.Field.Value
import Taxonomy.Field.ValueKind
import Taxonomy.Field.Violation

/-!
# Field descriptors

A descriptor is one facet of one element as a storage column: its name, the kind of its
values and their constraints. It reads values from JSON, checks them, and decides whether one value
may replace another. Null is checked first, then the kind, then digits before bounds and length
before choices.
-/

namespace Taxonomy

/-- One facet of one element. -/
structure FieldDescriptor where
  element : String
  facet : Facet
  kind : ValueKind
  nullable : Bool
  /-- The empty string is allowed whatever the other constraints say. -/
  blank : Bool
  constraints : Constraints
deriving DecidableEq

namespace FieldDescriptor

/-- A facet without constraints. Strings are blank rather than null. -/
def plain (element : String) (facet : Facet) (kind : ValueKind) : FieldDescriptor where
  element := element
  facet := facet
  kind := kind
  nullable := kind != .string
  blank := kind == .string
  constraints := {}

/-- The name of the storage column. -/
def columnName (f : FieldDescriptor) : String :=
  f.element ++ "_" ++ f.facet.name

/-- The name that people read. -/
def verboseName (f : FieldDescriptor) : String :=
  f.element ++ " " ++ f.facet.name

/-- The value of a new record, if the facet makes one. -/
def default? (f : FieldDescriptor) (random : BitVec 128) : Option FacetValue :=
  match f.constraints.default with
  | some .generateRecordId => some (.uuid (.ofRandomBits random))
  | none => none

def refuse (f : FieldDescriptor) (breach : Breach) : Except ConstraintViolation α :=
  .error ⟨f.columnName, breach⟩

/-- Both bounds, the lower one first. -/
def checkBounds (f : FieldDescriptor) (d : Decimal) : Except ConstraintViolation Unit := do
  if let some min := f.constraints.min then
    if d.less min then f.refuse (.belowMinimum d min)
  if let some max := f.constraints.max then
    if max.less d then f.refuse (.aboveMaximum d max)

/-- The digits that the number needs on both sides of the point. What the places leave of all digits
is a difference of words, which wraps around where there are more places than digits. -/
def checkDigits (f : FieldDescriptor) (maxDigits decimalPlaces : UInt32) (d : Decimal) :
    Except ConstraintViolation Unit :=
  if decimalPlaces.toNat < d.fractionDigits ∨
      (maxDigits - decimalPlaces).toNat < d.wholeDigits then
    f.refuse (.tooManyDigits d maxDigits decimalPlaces)
  else .ok ()

def checkDecimal (f : FieldDescriptor) (maxDigits decimalPlaces : UInt32) (d : Decimal) :
    Except ConstraintViolation Unit := do
  f.checkDigits maxDigits decimalPlaces d
  f.checkBounds d

/-- The length in characters, then the choices. -/
def checkString (f : FieldDescriptor) (s : String) : Except ConstraintViolation Unit := do
  if s = "" ∧ f.blank = true then return
  if let some maxLength := f.constraints.maxLength then
    if maxLength < s.length then f.refuse (.tooLong s.length maxLength)
  if !f.constraints.choices.isEmpty && !f.constraints.choices.any (fun c => c.id == s) then
    f.refuse (.invalidChoice s)

/-- Whether a value may stand in the column. -/
def check (f : FieldDescriptor) (v : FacetValue) : Except ConstraintViolation Unit :=
  match f.kind, v with
  | _, .null => if f.nullable then .ok () else f.refuse .notNullable
  | .boolean, .boolean _ => .ok ()
  | .integer, .integer n => f.checkBounds (.ofInt64 n)
  | .decimal maxDigits decimalPlaces, .integer n =>
    f.checkDecimal maxDigits decimalPlaces (.ofInt64 n)
  | .decimal maxDigits decimalPlaces, .decimal d => f.checkDecimal maxDigits decimalPlaces d
  | .date, .date _ => .ok ()
  | .dateTime, .dateTime _ => .ok ()
  | .string, .string s => f.checkString s
  | .uuid, .uuid _ => .ok ()
  | .uuid, .string s =>
    if RecordId.isCanonical s then .ok ()
    else f.refuse (.kindMismatch f.kind.name v.kindName)
  | kind, v => f.refuse (.kindMismatch kind.name v.kindName)

/-- The number of 64 bits that a JSON number is. -/
def int64? (n : Int) : Option Int64 :=
  if Int64.minValue.toInt ≤ n ∧ n ≤ Int64.maxValue.toInt then some (Int64.ofInt n) else none

/-- The value of a kind that a JSON value denotes. Numbers become decimals by their text. -/
def valueOf? (kind : ValueKind) (value : Json) : Option FacetValue :=
  match kind, value with
  | _, .null => some .null
  | .boolean, .bool b => some (.boolean b)
  | .integer, .int n => (int64? n).map .integer
  | .decimal _ _, .int n => (Decimal.read? (Json.int n).compact).map .decimal
  | .decimal _ _, .float x => (Decimal.read? (Json.float x).compact).map .decimal
  | .decimal _ _, .str s => (Decimal.read? s).map .decimal
  | .date, .str s => (Date.read? s).map .date
  | .dateTime, .str s => (Timestamp.read? s).map .dateTime
  | .uuid, .str s => (RecordId.read? s).map .uuid
  | .string, .str s => some (.string s)
  | _, _ => none

/-- The name of the kind of a JSON value. -/
def jsonKindName : Json → String
  | .null => "null"
  | .bool _ => "boolean"
  | .int _ => "number"
  | .float _ => "number"
  | .str _ => "string"
  | .arr _ => "array"
  | .obj _ => "object"

/-- Read a value of the facet's kind from JSON. -/
def parseJson (f : FieldDescriptor) (value : Json) : Except ConstraintViolation FacetValue :=
  match valueOf? f.kind value with
  | some v => .ok v
  | none => f.refuse (.kindMismatch f.kind.name (jsonKindName value))

/-- Read a value from JSON and check it. -/
def checkJson (f : FieldDescriptor) (value : Json) : Except ConstraintViolation FacetValue := do
  let v ← f.parseJson value
  f.check v
  return v

/-- Whether one value may replace another. An immutable facet keeps what it has been assigned. -/
def checkUpdate (f : FieldDescriptor) (old new : FacetValue) : Except ConstraintViolation Unit :=
  if f.constraints.immutable = true ∧ old ≠ .null ∧ old.same new = false then f.refuse .immutable
  else f.check new

def fields : List String :=
  ["element", "facet", "kind", "nullable", "blank", "constraints"]

def encode (f : FieldDescriptor) : Json :=
  .obj [("element", .str f.element), ("facet", f.facet.encode), ("kind", f.kind.encode),
    ("nullable", .bool f.nullable), ("blank", .bool f.blank), ("constraints", f.constraints.encode)]

def decode? (value : Json) : Option FieldDescriptor := do
  let r ← Json.Record.ofJson? fields value
  some {
    element := ← r.required? "element" Json.asString?
    facet := ← r.required? "facet" Facet.decode?
    kind := ← r.required? "kind" ValueKind.decode?
    nullable := ← r.required? "nullable" Json.asBool?
    blank := ← r.required? "blank" Json.asBool?
    constraints := ← r.required? "constraints" Constraints.decode? }

end FieldDescriptor

end Taxonomy
