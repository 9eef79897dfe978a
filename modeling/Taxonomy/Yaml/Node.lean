import Taxonomy.Entries
import Taxonomy.Yaml.Token

/-!
# Nodes of a document

The tokens of a document as a tree. A node may have a tag and may be referred to by an
alias; a key or a value that is not there is an empty plain scalar. A text holds at most one document.

Anchors are numbered by how many names are in use when they are defined, and an alias stands for
the last node that was defined under the number of its name.
-/

namespace Taxonomy.Yaml

/-- A part of a document. -/
inductive Node
  | alias (number : Nat)
  | scalar (tag : Option Tag) (text : String) (plain : Bool)
  | sequence (tag : Option Tag) (items : List Node)
  | mapping (tag : Option Tag) (entries : List (Node × Node))

namespace Node

/-- An empty plain scalar. -/
def empty : Node := scalar none "" true

end Node

/-- What is known while a document is read. -/
structure Reading where
  tokens : List Token
  /-- What each handle stands for, the latest first. -/
  handles : List (String × List UInt8) := []
  /-- The number of each anchor that has been defined. -/
  anchors : List (String × Nat) := []
  /-- Which definition counts for a number, the latest first. -/
  definitions : List (Nat × Nat) := []
  /-- The nodes of the definitions that are complete. -/
  nodes : List (Nat × Node) := []
  /-- The number of definitions so far. -/
  defined : Nat := 0
  /-- The number of scalars and aliases, and of starts and ends of collections. -/
  size : Nat := 0

/-- A step that may fail. -/
abbrev Step (α : Type) : Type := StateT Reading Option α

namespace Step

def refuse : Step α := fun _ => none

/-- The next token, if the text does not end. -/
def peek : Step (Option Token) := fun r => some (r.tokens.head?, r)

/-- Move past a token. -/
def advance : Step Unit := fun r => some ((), { r with tokens := r.tokens.drop 1 })

def count (n : Nat) : Step Unit := fun r => some ((), { r with size := r.size + n })

/-- The definition that an anchor makes. -/
def define (name : String) : Step Nat := fun r =>
  let number := r.anchors.length
  some (r.defined, { r with
    anchors := Entries.set name number r.anchors
    definitions := (number, r.defined) :: r.definitions
    defined := r.defined + 1 })

/-- The number of an anchor that has been defined. -/
def numberOf (name : String) : Step Nat := fun r =>
  (Entries.lookup name r.anchors).map (fun number => (number, r))

/-- The tag of a handle and a suffix. Without a handle the suffix is the whole tag. -/
def resolveTag (handle : String) (suffix : List UInt8) : Step Tag := fun r =>
  if handle = "" then some (.ofOctets suffix, r)
  else (Entries.lookup handle r.handles).map (fun start => (.ofOctets (start ++ suffix), r))

/-- Keep the node of a definition. -/
def keep (definition : Option Nat) (node : Node) : Step Node := fun r =>
  match definition with
  | some n => some (node, { r with nodes := (n, node) :: r.nodes })
  | none => some (node, r)

end Step

/-- The anchor and the tag in front of a node. -/
structure Properties where
  anchor : Option String := none
  tag : Option Tag := none

namespace Properties

def isEmpty (p : Properties) : Bool :=
  p.anchor.isNone && p.tag.isNone

/-- Read an anchor and a tag in either order. -/
def read : Step Properties := do
  match ← Step.peek with
  | some (.anchor name) => do
    Step.advance
    match ← Step.peek with
    | some (.tag handle suffix) => do
      Step.advance
      return ⟨some name, some (← Step.resolveTag handle suffix)⟩
    | _ => return ⟨some name, none⟩
  | some (.tag handle suffix) => do
    Step.advance
    match ← Step.peek with
    | some (.anchor name) => do
      Step.advance
      return ⟨some name, some (← Step.resolveTag handle suffix)⟩
    | _ => return ⟨none, some (← Step.resolveTag handle suffix)⟩
  | _ => return {}

/-- Define the anchor, if there is one. -/
def define (p : Properties) : Step (Option Nat) :=
  match p.anchor with
  | some name => do return some (← Step.define name)
  | none => return none

/-- A scalar with these properties. -/
def scalar (p : Properties) (text : String) (plain : Bool) : Step Node := do
  let definition ← p.define
  Step.count 1
  Step.keep definition (.scalar p.tag text plain)

end Properties

/-- Which collections a node may be. -/
inductive Style
  /-- Only collections in brackets. -/
  | flow
  | block
  /-- Also a sequence at the column of its parent. -/
  | blockOrIndentless
deriving DecidableEq

namespace Node

/-- An empty scalar that is not written. -/
def absent : Step Node := do
  Step.count 1
  return empty

/-- Whether a token ends a mapping entry of a block. -/
def endsBlockEntry : Option Token → Bool
  | some .key | some .value | some .blockEnd => true
  | _ => false

/-- Whether a token ends an item of a block sequence. -/
def endsBlockItem : Option Token → Bool
  | some .blockEntry | some .blockEnd => true
  | _ => false

/-- Whether a token ends an item of a sequence without an indentation of its own. -/
def endsIndentlessItem (t : Option Token) : Bool :=
  endsBlockEntry t || endsBlockItem t

mutual

/-- A node, or an alias of one. -/
def read (fuel : Nat) (style : Style) : Step Node :=
  match fuel with
  | 0 => Step.refuse
  | fuel + 1 => do
    match ← Step.peek with
    | some (.alias name) => do
      Step.advance
      Step.count 1
      return .alias (← Step.numberOf name)
    | _ => do
      let p ← Properties.read
      match ← Step.peek, style with
      | some .blockEntry, .blockOrIndentless => do
        let definition ← p.define
        Step.count 2
        Step.keep definition (.sequence p.tag (← readIndentless fuel []))
      | some (.scalar text plain), _ => do
        Step.advance
        p.scalar text plain
      | some .flowSequenceStart, _ => do
        let definition ← p.define
        Step.count 2
        Step.advance
        Step.keep definition (.sequence p.tag (← readFlowItems fuel true []))
      | some .flowMappingStart, _ => do
        let definition ← p.define
        Step.count 2
        Step.advance
        Step.keep definition (.mapping p.tag (← readFlowEntries fuel true []))
      | some .blockSequenceStart, .block | some .blockSequenceStart, .blockOrIndentless => do
        let definition ← p.define
        Step.count 2
        Step.advance
        Step.keep definition (.sequence p.tag (← readBlockItems fuel []))
      | some .blockMappingStart, .block | some .blockMappingStart, .blockOrIndentless => do
        let definition ← p.define
        Step.count 2
        Step.advance
        Step.keep definition (.mapping p.tag (← readBlockEntries fuel []))
      | _, _ => if p.isEmpty then Step.refuse else p.scalar "" true

/-- The items of a block sequence after those read, which are held in reverse. -/
def readBlockItems (fuel : Nat) (items : List Node) : Step (List Node) :=
  match fuel with
  | 0 => Step.refuse
  | fuel + 1 => do
    match ← Step.peek with
    | some .blockEntry => do
      Step.advance
      let item ← if endsBlockItem (← Step.peek) then absent else read fuel .block
      readBlockItems fuel (item :: items)
    | some .blockEnd => do
      Step.advance
      return items.reverse
    | _ => Step.refuse

/-- The items of a sequence at the column of its parent. The first other token ends it. -/
def readIndentless (fuel : Nat) (items : List Node) : Step (List Node) :=
  match fuel with
  | 0 => Step.refuse
  | fuel + 1 => do
    match ← Step.peek with
    | some .blockEntry => do
      Step.advance
      let item ← if endsIndentlessItem (← Step.peek) then absent else read fuel .block
      readIndentless fuel (item :: items)
    | _ => return items.reverse

/-- The entries of a block mapping after those read, which are held in reverse. -/
def readBlockEntries (fuel : Nat) (entries : List (Node × Node)) : Step (List (Node × Node)) :=
  match fuel with
  | 0 => Step.refuse
  | fuel + 1 => do
    match ← Step.peek with
    | some .key => do
      Step.advance
      let key ← if endsBlockEntry (← Step.peek) then absent else read fuel .blockOrIndentless
      let value ← readBlockValue fuel
      readBlockEntries fuel ((key, value) :: entries)
    | some .blockEnd => do
      Step.advance
      return entries.reverse
    | _ => Step.refuse

/-- The value of an entry of a block mapping. -/
def readBlockValue (fuel : Nat) : Step Node :=
  match fuel with
  | 0 => Step.refuse
  | fuel + 1 => do
    match ← Step.peek with
    | some .value => do
      Step.advance
      if endsBlockEntry (← Step.peek) then absent else read fuel .blockOrIndentless
    | _ => absent

/-- The items of a sequence in brackets. -/
def readFlowItems (fuel : Nat) (isFirst : Bool) (items : List Node) : Step (List Node) :=
  match fuel with
  | 0 => Step.refuse
  | fuel + 1 => do
    match ← Step.peek, isFirst with
    | some .flowSequenceEnd, _ => do
      Step.advance
      return items.reverse
    | some .flowEntry, false => do
      Step.advance
      readFlowItem fuel items
    | _, true => readFlowItem fuel items
    | _, false => Step.refuse

/-- An item of a sequence in brackets, or the end of the sequence. A marked key makes the item a mapping
of one entry. -/
def readFlowItem (fuel : Nat) (items : List Node) : Step (List Node) :=
  match fuel with
  | 0 => Step.refuse
  | fuel + 1 => do
    match ← Step.peek with
    | some .flowSequenceEnd => do
      Step.advance
      return items.reverse
    | some .key => do
      Step.advance
      Step.count 2
      let key ← match ← Step.peek with
        | some .value | some .flowEntry | some .flowSequenceEnd => do
          Step.advance
          absent
        | _ => read fuel .flow
      let value ← readFlowPairValue fuel
      readFlowItems fuel false (.mapping none [(key, value)] :: items)
    | _ => do
      let item ← read fuel .flow
      readFlowItems fuel false (item :: items)

/-- The value of a mapping of one entry. -/
def readFlowPairValue (fuel : Nat) : Step Node :=
  match fuel with
  | 0 => Step.refuse
  | fuel + 1 => do
    match ← Step.peek with
    | some .value => do
      Step.advance
      match ← Step.peek with
      | some .flowEntry | some .flowSequenceEnd => absent
      | _ => read fuel .flow
    | _ => absent

/-- The entries of a mapping in brackets. -/
def readFlowEntries (fuel : Nat) (isFirst : Bool) (entries : List (Node × Node)) :
    Step (List (Node × Node)) :=
  match fuel with
  | 0 => Step.refuse
  | fuel + 1 => do
    match ← Step.peek, isFirst with
    | some .flowMappingEnd, _ => do
      Step.advance
      return entries.reverse
    | some .flowEntry, false => do
      Step.advance
      readFlowEntry fuel entries
    | _, true => readFlowEntry fuel entries
    | _, false => Step.refuse

/-- An entry of a mapping in brackets, or the end of the mapping. A key that is not marked and has no
colon behind it has no value. -/
def readFlowEntry (fuel : Nat) (entries : List (Node × Node)) : Step (List (Node × Node)) :=
  match fuel with
  | 0 => Step.refuse
  | fuel + 1 => do
    match ← Step.peek with
    | some .flowMappingEnd => do
      Step.advance
      return entries.reverse
    | some .key => do
      Step.advance
      let key ← match ← Step.peek with
        | some .value | some .flowEntry | some .flowMappingEnd => absent
        | _ => read fuel .flow
      let value ← readFlowValue fuel
      readFlowEntries fuel false ((key, value) :: entries)
    | _ => do
      let key ← read fuel .flow
      let value ← absent
      readFlowEntries fuel false ((key, value) :: entries)

/-- The value of a marked key in brackets. -/
def readFlowValue (fuel : Nat) : Step Node :=
  match fuel with
  | 0 => Step.refuse
  | fuel + 1 => do
    match ← Step.peek with
    | some .value => do
      Step.advance
      match ← Step.peek with
      | some .flowEntry | some .flowMappingEnd => absent
      | _ => read fuel .flow
    | _ => absent

end

end Node

/-- The root of a document, what its aliases stand for, and its size. -/
structure Document where
  root : Node
  definitions : List (Nat × Nat)
  nodes : List (Nat × Node)
  size : Nat

namespace Document

/-- What the two handles stand for that need no directive. -/
def standardHandles : List (String × List UInt8) :=
  [("!", [Tag.mark]), ("!!", "tag:yaml.org,2002:".toUTF8.toList)]

/-- Read the directives in front of a document: at most one version, which is 1.1 or 1.2, and no handle
twice. The result tells whether there are any. -/
def readDirectives (handles : List (String × List UInt8)) (version : Bool) :
    List Token → Option (List (String × List UInt8) × Bool × List Token)
  | .directive (.version major minor) :: tokens =>
    if version || major != 1 || !(minor == 1 || minor == 2) then none
    else readDirectives handles true tokens
  | .directive (.tagHandle handle start) :: tokens =>
    if handles.any (fun h => h.1 == handle) then none
    else (readDirectives ((handle, start) :: handles) version tokens)
  | tokens => some (handles, version || !handles.isEmpty, tokens)

/-- The root of a document whose start is past. -/
def readRoot (fuel : Nat) : Step Node := do
  match ← Step.peek with
  | none | some (.directive _) | some .documentStart | some .documentEnd => Node.absent
  | _ => Node.read fuel .block

/-- Whether nothing but ends of documents is left. -/
def onlyEnds : List Token → Bool
  | [] => true
  | .documentEnd :: tokens => onlyEnds tokens
  | _ => false

/-- The document of a list of tokens, if they are one document. No tokens at all are an empty one. -/
def ofTokens? (tokens : List Token) : Option Document := do
  let (handles, directed, tokens) ← readDirectives [] false tokens
  let explicit := match tokens with
    | .documentStart :: _ => true
    | _ => false
  if directed && !explicit then none
  let reading : Reading := {
    tokens := if explicit then tokens.drop 1 else tokens
    handles := handles ++ standardHandles }
  let fuel := 4 * tokens.length + 4
  let (root, reading) ←
    if explicit || tokens.isEmpty then (readRoot fuel).run reading
    else (Node.read fuel .block).run reading
  if onlyEnds reading.tokens then
    some ⟨root, reading.definitions, reading.nodes, reading.size⟩
  else none

/-- The node that an alias stands for. -/
def target? (d : Document) (number : Nat) : Option Node := do
  let definition ← d.definitions.lookup number
  d.nodes.lookup definition

end Document

end Taxonomy.Yaml
