import Taxonomy.Json.Writer
import Taxonomy.Yaml.Value

/-!
# Errors

Why a document does not load, why a definition cannot be used, and why a composition does
not compile. Each cause is a value; its wording is given by one function for each kind of cause.
-/

namespace Taxonomy

/-- Why the content of a file cannot be had. -/
inductive ReadFault
  | missing
  | directory
  | notADirectory
  | notText
  /-- Any other fault, in the words and by the number of the operating system. -/
  | other (description : String) (code : Nat)
deriving DecidableEq

def ReadFault.message : ReadFault → String
  | missing => "No such file or directory (os error 2)"
  | directory => "Is a directory (os error 21)"
  | notADirectory => "Not a directory (os error 20)"
  | notText => "stream did not contain valid UTF-8"
  | other description code => description ++ " (os error " ++ toString code ++ ")"

/-- Why a document does not load. -/
inductive LoadFault
  | unreadable (fault : ReadFault)
  | invalidJson
  | invalidYaml
  | notJson (fault : Yaml.ConversionFault)
  | rootNotAnObject
  | noSchemas
  /-- One of the three maps of a document is something else. -/
  | notAnObject (part : String)

def LoadFault.message : LoadFault → String
  | unreadable fault => "cannot read file: " ++ fault.message
  | invalidJson => "invalid JSON"
  | invalidYaml => "invalid YAML"
  | notJson fault => "YAML-to-JSON conversion failed: " ++ fault.message
  | rootNotAnObject => "document root is not an object"
  | noSchemas => "document has no schemas map"
  | notAnObject part => "'" ++ part ++ "' is not an object"

/-- Why an entry of a document has no meaning. -/
inductive ShapeFault
  | notAnObject
  | allOfParts
  | allOfReference
  | allOfDetails
  | noItemType (element : String)
  | arrayItems
  | properties
  | noShape
  /-- The values of an item type are not a map. -/
  | values (key : String)
  | groupNotAList
  | groupId (id : Json)

def ShapeFault.message : ShapeFault → String
  | notAnObject => "definition is not an object"
  | allOfParts => "allOf must hold exactly a superclass reference and a details block"
  | allOfReference => "allOf[0] is not a $ref"
  | allOfDetails => "allOf[1] is not an object"
  | noItemType element => "element details of '" ++ element ++ "' lack an item type"
  | arrayItems => "array definition without an item $ref"
  | properties => "properties is not an object"
  | noShape => "matches none of the element, object or array shapes"
  | values key => "'" ++ key ++ "' is not a map of id to value"
  | groupNotAList => "'group' is not a list"
  | groupId id => "group id " ++ id.compact ++ " is not a string"

/-- Why a taxonomy or a part of it cannot be compiled. -/
inductive TaxonomyError
  | load (path : String) (fault : LoadFault)
  | unknownSchema (name : String)
  | unknownItemType (name : String)
  | unknownItemTypeGroup (name : String)
  | notAnElement (name : String)
  | notAnObject (name : String)
  | unknownSuperclass (element superclass : String)
  | malformedSchema (name : String) (fault : ShapeFault)
  /-- The names on the way round, the first one again at the end. -/
  | cyclicSchema (cycle : List String)

def TaxonomyError.message : TaxonomyError → String
  | load path fault => "taxonomy load error for '" ++ path ++ "': " ++ fault.message
  | unknownSchema name => "unknown schema '" ++ name ++ "'"
  | unknownItemType name => "unknown item type '" ++ name ++ "'"
  | unknownItemTypeGroup name => "unknown item type group '" ++ name ++ "'"
  | notAnElement name => "schema '" ++ name ++ "' is not an element"
  | notAnObject name => "schema '" ++ name ++ "' is not an object"
  | unknownSuperclass element superclass =>
    "element '" ++ element ++ "' has unknown superclass '" ++ superclass ++ "'"
  | malformedSchema name fault => "malformed schema '" ++ name ++ "': " ++ fault.message
  | cyclicSchema cycle =>
    "cyclic schema composition: " ++ String.intercalate " \u2192 " cycle

end Taxonomy
