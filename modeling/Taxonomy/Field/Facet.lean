import Taxonomy.Json.Record

/-!
# Facets

An element is a group of primitive values, its facets. Their order is that of the constructors,
which is the alphabetical one.
-/

namespace Taxonomy

/-- A primitive value of an element. -/
inductive Facet
  | decimals
  | endTime
  | precision
  | startTime
  | unit
  | value
deriving DecidableEq

namespace Facet

/-- The place of a facet in the order. -/
def place (facet : Facet) : Nat :=
  facet.ctorIdx

/-- Every facet in order. -/
def all : List Facet := [decimals, endTime, precision, startTime, unit, value]

def name : Facet → String
  | decimals => "Decimals"
  | endTime => "EndTime"
  | precision => "Precision"
  | startTime => "StartTime"
  | unit => "Unit"
  | value => "Value"

def ofName? (name : String) : Option Facet :=
  all.find? (fun facet => facet.name == name)

def encode (facet : Facet) : Json :=
  .str facet.name

def decode? (value : Json) : Option Facet :=
  (Json.variantName? value).bind ofName?

end Facet

end Taxonomy
