import Taxonomy.Json.Reader
import Taxonomy.Schema.Store
import Taxonomy.Yaml.Reader

/-!
# Loading documents

A document is JSON text, or YAML text in a file whose name says so. Text is UTF-8. Errors
name the file as it was asked for.
-/

namespace Taxonomy

/-- What is found at a path. -/
inductive FileState
  | unreadable (fault : ReadFault)
  | bytes (content : ByteArray)

/-- The text of a file. -/
def FileState.text : FileState → Except ReadFault String
  | unreadable fault => .error fault
  | bytes content =>
    match String.fromUTF8? content with
    | some text => .ok text
    | none => .error .notText

/-- The extension of the last part of a path. A point that starts the name does not start an
extension. -/
def pathExtension (path : String) : String :=
  let parts := (Text.splitAt '/' path.toList).filter (fun part => !part.isEmpty && part != ['.'])
  match parts.getLast? with
  | none => ""
  | some name =>
    if name.drop 1 |>.contains '.' then String.ofList (Text.afterLast '.' name) else ""

/-- Whether the name of a file says that it holds YAML. -/
def isYamlPath (path : String) : Bool :=
  pathExtension path == "yaml" || pathExtension path == "yml"

/-- The JSON value of a JSON text. -/
def readJsonDocument (text : String) : Except LoadFault Json :=
  match Json.read? text with
  | some value => .ok value
  | none => .error .invalidJson

/-- The JSON value of a YAML text. -/
def readYamlDocument (text : String) : Except LoadFault Json :=
  match Yaml.read? text with
  | some value => value.toJson.mapError .notJson
  | none => .error .invalidYaml

namespace Store

/-- The store of a file. -/
def load (path : String) (file : FileState) : Except TaxonomyError Store :=
  atPath path do
    let text ← file.text.mapError .unreadable
    let value ← if isYamlPath path then readYamlDocument text else readJsonDocument text
    let s ← ofJson value
    return { s with source := some path }

/-- The store of a JSON text that came from no file. -/
def ofText (text : String) : Except TaxonomyError Store :=
  atPath inlinePath do
    ofJson (← readJsonDocument text)

end Store

end Taxonomy
