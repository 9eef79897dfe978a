import Taxonomy.CommandLine.Grammar
import Taxonomy.Composition.Compiler
import Taxonomy.Usage

/-!
# Reports

What each command computes from a store, and how its result is printed.
-/

namespace Taxonomy.CommandLine

/-- Why a command fails. -/
inductive Failure
  | taxonomy (error : TaxonomyError)
  /-- The document at a path does not load. -/
  | loading (path : String) (error : TaxonomyError)
  /-- An override that is not a property, an equals sign and a number. -/
  | maxLengthForm (given : String)
  | maxLengthNumber (property : String) (fault : Text.UnsignedFault)

def Failure.message : Failure → String
  | taxonomy error => error.message
  | loading path error => "loading taxonomy from " ++ path ++ ": " ++ error.message
  | maxLengthForm given => "--max-length expects PROPERTY=N, got '" ++ given ++ "'"
  | maxLengthNumber property fault =>
    "--max-length value for '" ++ property ++ "' is not a length: " ++ fault.message

namespace CompileRequest

/-- The property and the number of a greatest length. -/
def readMaxLength (given : String) : Except Failure (String × Nat) :=
  match Text.cutAt? (· == '=') given.toList with
  | none => .error (.maxLengthForm given)
  | some (property, digits) =>
    let property := String.ofList property
    match Text.readLength (String.ofList digits) with
    | .error fault => .error (.maxLengthNumber property fault)
    | .ok n => if property = "" then .error (.maxLengthForm given) else .ok (property, n)

/-- Add greatest lengths in turn. The last one of a property counts. -/
def addMaxLengths (overrides : ObjectOverrides) : List String → Except Failure ObjectOverrides
  | [] => .ok overrides
  | given :: rest => do
    let (property, n) ← readMaxLength given
    addMaxLengths (overrides.alter property (fun o => { o.getD .unchanged with maxLength := some n }))
      rest

/-- The overrides that the options give. -/
def overrides (r : CompileRequest) : Except Failure ObjectOverrides := do
  let lengths ← addMaxLengths .empty r.maxLength
  return r.readOnly.foldl (fun overrides property =>
    overrides.alter property (fun o => { o.getD .unchanged with editable := some false })) lengths

end CompileRequest

/-- A taxonomy error ends a command. -/
def orFail (x : Except TaxonomyError α) : Except Failure α :=
  x.mapError .taxonomy

/-- The compiled form of a schema, under its kind. -/
def compiledJson (s : Store) (r : CompileRequest) : Except Failure Json := do
  let overrides ← r.overrides
  let kind ← orFail (s.classify r.name)
  let body ← match kind with
    | .element => do
      let e ← orFail (s.compileElementOnce r.name (overrides.at r.name) {}).1
      pure e.encode
    | .object => do
      let o ← orFail (s.compile r.name overrides {}).1
      pure o.encode
    | .array =>
      pure (.obj [("name", .str r.name),
        ("items", Json.ofOption (s.arrayItemsOf? (.schema r.name)))])
  return .obj [("kind", kind.encode), ("schema", body)]

/-- The names and kinds of the schemas that have a kind, ascending by name. -/
def listing (s : Store) (kind : Option SchemaKind) : List (String × SchemaKind) :=
  s.schemas.names.filterMap (fun name =>
    match s.classify name with
    | .ok found => if kind = none ∨ kind = some found then some (name, found) else none
    | .error _ => none)

/-- A storage column of an object. -/
structure ColumnRow where
  name : String
  verboseName : String
  kind : String
  nullable : Bool

def ColumnRow.encode (row : ColumnRow) : Json :=
  .obj [("name", .str row.name), ("verbose_name", .str row.verboseName), ("kind", .str row.kind),
    ("nullable", .bool row.nullable)]

/-- The columns of an object. -/
def columnRows (s : Store) (object : String) : Except Failure (List ColumnRow) := do
  let o ← orFail (s.compile object .empty {}).1
  return o.columns.map (fun f => ⟨f.columnName, f.verboseName, f.kind.name, f.nullable⟩)

/-- The objects that use a declared target, among the candidates or, without any, among all. -/
def usageOwners (s : Store) (target : String) (candidates : List String) :
    Except Failure (List String) := do
  let _ ← orFail (s.lookup target)
  if candidates.isEmpty then return (UsageIndex.build s).ownersOf target
  else orFail (s.usagesOf target candidates)

/-- A text filled with blanks on the right up to a width. -/
def padded (width : Nat) (text : String) : String :=
  text ++ String.ofList (List.replicate (width - text.length) ' ')

/-- Each text on a line of its own. -/
def lines (texts : List String) : String :=
  String.join (texts.map (fun text => text ++ "\n"))

def ColumnRow.text (row : ColumnRow) : String :=
  padded 40 row.name ++ " " ++ padded 9 row.kind ++ " " ++
    (if row.nullable then "null" else "not null")

/-- What a request prints. -/
def printed (s : Store) : Request → Except Failure String
  | .compile r => do
    let value ← compiledJson s r
    return lines [if r.compact then value.compact else value.pretty]
  | .usages target candidates => do return lines (← usageOwners s target candidates)
  | .list kind =>
    return lines ((listing s kind).map (fun row => padded 8 row.2.name ++ " " ++ row.1))
  | .columns object json => do
    let rows ← columnRows s object
    return lines
      (if json then [(Json.arr (rows.map ColumnRow.encode)).pretty] else rows.map ColumnRow.text)

end Taxonomy.CommandLine
