/-!
# Tags

A tag is a row of octets that ends before the first zero one. If it starts with an exclamation
mark it is a kind of the document's own and is kept by its name; a second mark is no part of the name
unless it is all of it. Of the kinds that documents share, four say how a scalar is read.
-/

namespace Taxonomy.Yaml

/-- What a tag says. -/
inductive Tag
  /-- A kind of the document's own. -/
  | own (name : String)
  /-- A kind of the document's own whose name is not text. It says nothing. -/
  | unreadable
  | bool
  | int
  | float
  | null
  /-- Any other kind. A scalar of it is a string. -/
  | other
deriving DecidableEq

namespace Tag

/-- The octet of the exclamation mark. -/
def mark : UInt8 := 0x21

/-- The octets before the first zero one. -/
def untilZero (octets : List UInt8) : List UInt8 :=
  octets.takeWhile (· != 0)

/-- The octets of the name behind the first mark. -/
def nameOctets : List UInt8 → List UInt8
  | [] => [mark]
  | first :: second :: rest => if first = mark then second :: rest else first :: second :: rest
  | octets => octets

/-- The kind that a shared tag names. -/
def ofSharedName (name : String) : Tag :=
  match name with
  | "tag:yaml.org,2002:bool" => bool
  | "tag:yaml.org,2002:int" => int
  | "tag:yaml.org,2002:float" => float
  | "tag:yaml.org,2002:null" => null
  | _ => other

def ofOctets (octets : List UInt8) : Tag :=
  match octets with
  | [] => other
  | first :: rest =>
    if first = mark then
      match String.fromUTF8? ⟨(nameOctets rest).toArray⟩ with
      | some name => own name
      | none => unreadable
    else
      match String.fromUTF8? ⟨(first :: rest).toArray⟩ with
      | some name => ofSharedName name
      | none => other

end Tag

end Taxonomy.Yaml
