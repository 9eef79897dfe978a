import Taxonomy.Binary64.Layout
import Taxonomy.Json.Basic
import Taxonomy.Text.Unprintable

/-!
# YAML values and their JSON form

A YAML value has JSON form when its floats are finite and the keys of its mappings are
scalars other than null. Tags are dropped and keys become text; of two keys with one text the
later value counts, at the place of the earlier.
-/

namespace Taxonomy.Yaml

/-- A float of YAML, which may be infinite or not a number. -/
inductive Real
  | finite (value : Binary64)
  | infinite (negative : Bool)
  | notANumber
deriving DecidableEq

/-- A YAML value. -/
inductive Value
  | null
  | bool (value : Bool)
  | int (value : Int)
  | float (value : Real)
  | str (value : String)
  | seq (items : List Value)
  | map (entries : List (Value × Value))
  | tagged (tag : String) (value : Value)

/-- Why a value has no JSON form. -/
inductive ConversionFault
  /-- A float that is not finite. -/
  | float (value : Real)
  /-- A key that is null, a container or tagged. -/
  | key (value : Value)

namespace Real

/-- The text of a float that became a key. -/
def keyText : Real → String
  | finite x => x.text .key
  | infinite false => ".inf"
  | infinite true => "-.inf"
  | notANumber => ".nan"

/-- The text of a float in a message. -/
def plainText : Real → String
  | finite x => x.text .plain
  | infinite false => "inf"
  | infinite true => "-inf"
  | notANumber => "NaN"

/-- Equality as keys: the two zeros are one key, and so is every value that is not a number. -/
def same : Real → Real → Bool
  | finite x, finite y => x.same y
  | x, y => decide (x = y)

/-- The double nearest to a whole number. -/
def ofWhole (n : Int) : Real :=
  match Binary64.ofRatio? (decide (n < 0)) n.natAbs 1 with
  | some x => finite x
  | none => infinite (decide (n < 0))

/-- The JSON number of a float, if it is finite. -/
def toJson : Real → Except ConversionFault Json
  | finite x => .ok (.float x)
  | x => .error (.float x)

end Real

/-- Whether a whole number is a signed number of 64 bits. -/
def fitsSigned (n : Int) : Bool :=
  -(Nat.pow 2 63 : Nat) ≤ n && n < (Nat.pow 2 63 : Nat)

/-- Whether a whole number is an unsigned number of 64 bits. -/
def fitsUnsigned (n : Int) : Bool :=
  0 ≤ n && n < (Nat.pow 2 64 : Nat)

/-- The JSON number of a whole number: exact as a signed number or else as an unsigned one, and a
double when it is neither. -/
def wholeToJson (n : Int) : Except ConversionFault Json :=
  if fitsSigned n then .ok (.int n)
  else if fitsUnsigned n then .ok (.int n)
  else (Real.ofWhole n).toJson

namespace Value

mutual

/-- Equality as keys of a mapping. Two mappings are equal if each entry of one is in the other. -/
def same : Value → Value → Bool
  | null, null => true
  | bool a, bool b => a == b
  | int a, int b => a == b
  | float a, float b => a.same b
  | str a, str b => a == b
  | seq as, seq bs => sameItems as bs
  | map as, map bs => as.length == bs.length && sameEntries as bs
  | tagged s a, tagged t b => s == t && same a b
  | _, _ => false

def sameItems : List Value → List Value → Bool
  | [], [] => true
  | a :: as, b :: bs => same a b && sameItems as bs
  | _, _ => false

/-- Whether every entry of the first list is in the second. -/
def sameEntries : List (Value × Value) → List (Value × Value) → Bool
  | [], _ => true
  | (k, v) :: rest, bs => bs.any (fun b => same k b.1 && same v b.2) && sameEntries rest bs

end

/-- A key that is not shown by its kind. -/
def bareKeyText? : Value → Option String
  | bool b => some (toString b)
  | int n => some (toString n)
  | float x => some x.keyText
  | str s => some (Text.debugQuoted s)
  | _ => none

mutual

/-- The text that shows a value with its kinds. -/
def debugText : Value → String
  | null => "Null"
  | bool b => "Bool(" ++ toString b ++ ")"
  | int n => "Number(" ++ toString n ++ ")"
  | float x => "Number(" ++ x.keyText ++ ")"
  | str s => "String(" ++ Text.debugQuoted s ++ ")"
  | seq items => "Sequence [" ++ debugItems items ++ "]"
  | map entries => "Mapping \x7b" ++ debugEntries entries ++ "\x7d"
  | tagged tag value => "TaggedValue \x7b tag: !" ++ tag ++ ", value: " ++ debugText value ++ " \x7d"

def debugItems : List Value → String
  | [] => ""
  | [item] => debugText item
  | item :: rest => debugText item ++ ", " ++ debugItems rest

def debugEntries : List (Value × Value) → String
  | [] => ""
  | [(key, value)] => (bareKeyText? key).getD (debugText key) ++ ": " ++ debugText value
  | (key, value) :: rest =>
    (bareKeyText? key).getD (debugText key) ++ ": " ++ debugText value ++ ", " ++ debugEntries rest

end

/-- The member name that a key becomes. -/
def keyText : Value → Except ConversionFault String
  | str s => .ok s
  | int n => .ok (toString n)
  | float x => .ok x.keyText
  | bool b => .ok (toString b)
  | key => .error (.key key)

mutual

/-- The JSON form of a value. -/
def toJson : Value → Except ConversionFault Json
  | null => .ok .null
  | bool b => .ok (.bool b)
  | int n => wholeToJson n
  | float x => x.toJson
  | str s => .ok (.str s)
  | seq items => do .ok (.arr (← itemsToJson items))
  | map entries => do .ok (.obj (← entriesToJson [] entries))
  | tagged _ value => toJson value

def itemsToJson : List Value → Except ConversionFault (List Json)
  | [] => .ok []
  | item :: rest => do .ok ((← toJson item) :: (← itemsToJson rest))

/-- The members of a mapping, added to those of the entries before. -/
def entriesToJson (members : List (String × Json)) :
    List (Value × Value) → Except ConversionFault (List (String × Json))
  | [] => .ok members
  | (key, value) :: rest => do
    let name ← keyText key
    entriesToJson (Entries.set name (← toJson value) members) rest

end

end Value

def ConversionFault.message : ConversionFault → String
  | float x => "cannot represent float " ++ x.plainText ++ " in JSON"
  | key value => "unsupported YAML map key: " ++ value.debugText

end Taxonomy.Yaml
