import Taxonomy.Binary64.Basic
import Taxonomy.Entries

/-!
# JSON values

Members of an object keep their written order. Whole numbers that fit 64 bits are exact;
every other number is a double.
-/

namespace Taxonomy

/-- A JSON value. -/
inductive Json where
  | null
  | bool (value : Bool)
  | int (value : Int)
  | float (value : Binary64)
  | str (value : String)
  | arr (items : List Json)
  | obj (members : List (String × Json))

namespace Json

instance : Inhabited Json := ⟨null⟩

def asObject? : Json → Option (List (String × Json))
  | obj members => some members
  | _ => none

def asArray? : Json → Option (List Json)
  | arr items => some items
  | _ => none

def asString? : Json → Option String
  | str value => some value
  | _ => none

/-- The member of an object; nothing else has members. -/
def get? (value : Json) (key : String) : Option Json :=
  match value with
  | obj members => Entries.lookup key members
  | _ => none

/-- The member of an object, if it is a string. -/
def getString? (value : Json) (key : String) : Option String :=
  (value.get? key).bind asString?

/-- A string, or null in its absence. -/
def ofOption (value : Option String) : Json :=
  match value with
  | some s => str s
  | none => null

def ofNat (n : Nat) : Json :=
  int n

end Json

end Taxonomy
