import Taxonomy.Json.Record

/-!
# Product kinds

A product is generic or of one of ten subtypes, each stored as the object of one schema.
The kind is a single tag that is fixed when a product is created.
-/

namespace Taxonomy

/-- The subtype that a product was created as. -/
inductive ProductKind
  | generic
  | battery
  | cell
  | combiner
  | energyStorageSystem
  | glazing
  | inverter
  | meter
  | module
  | optimizer
  | wire
deriving DecidableEq

namespace ProductKind

/-- Every kind, the generic one first. -/
def all : List ProductKind :=
  [generic, battery, cell, combiner, energyStorageSystem, glazing, inverter, meter, module, optimizer,
    wire]

/-- The schema that describes products of this kind. -/
def schemaName : ProductKind → String
  | generic => "Product"
  | battery => "ProdBattery"
  | cell => "ProdCell"
  | combiner => "ProdCombiner"
  | energyStorageSystem => "ProdEnergyStorageSystem"
  | glazing => "ProdGlazing"
  | inverter => "ProdInverter"
  | meter => "ProdMeter"
  | module => "ProdModule"
  | optimizer => "ProdOptimizer"
  | wire => "ProdWire"

/-- The tag that is stored with a product. -/
def tag : ProductKind → String
  | generic => "generic"
  | battery => "battery"
  | cell => "cell"
  | combiner => "combiner"
  | energyStorageSystem => "energy_storage_system"
  | glazing => "glazing"
  | inverter => "inverter"
  | meter => "meter"
  | module => "module"
  | optimizer => "optimizer"
  | wire => "wire"

/-- The kind of a schema name. -/
def ofSchemaName? (name : String) : Option ProductKind :=
  all.find? (fun kind => kind.schemaName == name)

/-- What is said of a schema name that belongs to no kind. -/
def unknownMessage (name : String) : String :=
  "unknown product kind: " ++ name

def isSubtype (kind : ProductKind) : Bool :=
  kind != generic

def encode (kind : ProductKind) : Json :=
  .str kind.tag

def decode? (value : Json) : Option ProductKind :=
  (Json.variantName? value).bind (fun name => all.find? (fun kind => kind.tag == name))

end ProductKind

end Taxonomy
