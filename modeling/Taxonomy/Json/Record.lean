import Taxonomy.Json.Basic

/-!
# Records and variants as JSON

A record is written as the object of its fields. It is read from such an object, where
members that are no fields do not matter, or from the list of its fields in declared order. A variant
without data is written as its name; a variant with data is a record that names it in a tag.
-/

namespace Taxonomy.Json

/-- The fields of a record that are present. -/
structure Record where
  members : List (String × Json)
  /-- The fields are given by name, so that an absent one may count as null. -/
  named : Bool

namespace Record

/-- The fields of a value, in the declared order if it is a list. A list has no items beyond the
fields. -/
def ofJson? (fields : List String) : Json → Option Record
  | .obj members => some ⟨members, true⟩
  | .arr items =>
    if items.length ≤ fields.length then some ⟨fields.zip items, false⟩ else none
  | _ => none

/-- A field that must be present. -/
def required? (r : Record) (field : String) (read? : Json → Option α) : Option α :=
  (Entries.lookup field r.members).bind read?

/-- A field that may be null, or absent from an object. -/
def optional? (r : Record) (field : String) (read? : Json → Option α) : Option (Option α) :=
  match Entries.lookup field r.members with
  | none => if r.named then some none else none
  | some .null => some none
  | some value => (read? value).map some

/-- A field that may be null or absent. -/
def omissible? (r : Record) (field : String) (read? : Json → Option α) : Option (Option α) :=
  match Entries.lookup field r.members with
  | none => some none
  | some .null => some none
  | some value => (read? value).map some

/-- A field that may be absent, with the value that it has then. -/
def defaulted? (r : Record) (field : String) (absent : α) (read? : Json → Option α) : Option α :=
  match Entries.lookup field r.members with
  | none => some absent
  | some value => read? value

end Record

/-- The name of a variant without data. -/
def variantName? : Json → Option String
  | .str name => some name
  | .obj [(name, .null)] => some name
  | _ => none

/-- The variant that a tag names, and the value that holds the other fields. In a list the tag comes
first. -/
def tagged? (tag : String) : Json → Option (String × Json)
  | .obj members => do
    let name ← (Entries.lookup tag members).bind asString?
    some (name, .obj members)
  | .arr (.str name :: items) => some (name, .arr items)
  | _ => none

def asBool? : Json → Option Bool
  | bool b => some b
  | _ => none

/-- A whole number that is not negative. -/
def asLength? : Json → Option Nat
  | int n => if 0 ≤ n then some n.toNat else none
  | _ => none

/-- Every item of a list, read alike. -/
def asListOf? (read? : Json → Option α) : Json → Option (List α)
  | arr items => items.mapM read?
  | _ => none

/-- A member for a value that is present, and none otherwise. -/
def memberIfSome (key : String) (encode : α → Json) (value : Option α) : List (String × Json) :=
  match value with
  | some a => [(key, encode a)]
  | none => []

/-- The member of a list that has items, and none for an empty list. -/
def memberIfAny (key : String) (encode : α → Json) (items : List α) : List (String × Json) :=
  if items.isEmpty then [] else [(key, .arr (items.map encode))]

end Taxonomy.Json
