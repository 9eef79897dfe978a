import Taxonomy.Calendar.Timestamp
import Taxonomy.Decimal.Text
import Taxonomy.Json.Basic
import Taxonomy.RecordId

/-!
# Facet values

A value of one facet as it is stored. In JSON, decimals, dates, instants and identifiers
are strings.
-/

namespace Taxonomy

/-- A stored value of one facet. -/
inductive FacetValue
  | null
  | boolean (value : Bool)
  | integer (value : Int64)
  | decimal (value : Decimal)
  | date (value : Date)
  | dateTime (value : Timestamp)
  | string (value : String)
  | uuid (value : RecordId)
deriving DecidableEq

namespace FacetValue

def kindName : FacetValue → String
  | null => "null"
  | boolean _ => "boolean"
  | integer _ => "integer"
  | decimal _ => "decimal"
  | date _ => "date"
  | dateTime _ => "datetime"
  | string _ => "string"
  | uuid _ => "uuid"

def toJson : FacetValue → Json
  | null => .null
  | boolean b => .bool b
  | integer n => .int n.toInt
  | decimal d => .str d.text
  | date d => .str d.text
  | dateTime t => .str t.text
  | string s => .str s
  | uuid id => .str id.text

/-- Equality of stored values. Decimals are compared as numbers, all else as it is; values of
different kinds differ. -/
def same : FacetValue → FacetValue → Bool
  | decimal a, decimal b => a.same b
  | a, b => decide (a = b)

end FacetValue

end Taxonomy
