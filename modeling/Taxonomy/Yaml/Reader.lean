import Taxonomy.Yaml.Node
import Taxonomy.Yaml.Scalar
import Taxonomy.Yaml.Token.Scanner

/-!
# Reading YAML text

A document becomes a value by putting in place of every alias what it stands for. Tags of the
document's own kinds are kept, and what they tag is read as if it had no tag. At most 128 collections
may stand inside each other, aliases included, and aliases are followed at most a hundred times for
each part of the document. Keys of one mapping differ.
-/

namespace Taxonomy.Yaml

/-- A step that counts how many aliases have been followed. -/
abbrev Expanding (α : Type) : Type := StateT Nat Option α

namespace Document

/-- The number of aliases that may be followed for each part of a document. -/
def followsPerPart : Nat := 100

/-- Follow an alias. -/
def follow (d : Document) (node : Node) : Expanding Node := fun follows =>
  match node with
  | .alias number =>
    if followsPerPart * d.size ≤ follows then none
    else (d.target? number).map (fun node => (node, follows + 1))
  | node => some (node, follows)

/-- Put the tag of a collection to its value, if it is one that is kept. -/
def withTag (tag : Option Tag) (value : Value) : Value :=
  match tag with
  | some (.own name) => .tagged name value
  | _ => value

/-- The entries of a mapping after those read, which are held in reverse. -/
def expandEntries (expand : Node → Expanding Value) (read : List (Value × Value)) :
    List (Node × Node) → Expanding (List (Value × Value))
  | [] => return read.reverse
  | (k, v) :: rest => do
    let k ← expand k
    if read.any (fun e => e.1.same k) then failure
    let v ← expand v
    expandEntries expand ((k, v) :: read) rest

/-- The value of a node inside of which at most `depth` collections may stand. -/
def expand (d : Document) : (depth : Nat) → Node → Expanding Value
  | 0, node => do
    match ← d.follow node with
    | .scalar tag text plain => StateT.lift (Scalar.value? tag text plain)
    | _ => failure
  | depth + 1, node => do
    match ← d.follow node with
    | .scalar tag text plain => StateT.lift (Scalar.value? tag text plain)
    | .sequence tag items => return withTag tag (.seq (← items.mapM (d.expand depth)))
    | .mapping tag entries =>
      return withTag tag (.map (← expandEntries (d.expand depth) [] entries))
    | _ => failure

/-- The greatest number of collections inside each other. -/
def deepest : Nat := 128

def value? (d : Document) : Option Value :=
  ((d.expand deepest d.root).run 0).map (·.1)

end Document

/-- The value of a YAML text. -/
def read? (text : String) : Option Value := do
  let d ← Document.ofTokens? (← tokens? text)
  d.value?

end Taxonomy.Yaml
