import Taxonomy.Json.Token

/-!
# Reading JSON text

A text is one value with white space around it. Of two members of one name the later value
counts, at the place of the earlier. At most 127 arrays and objects may stand inside each other.
-/

namespace Taxonomy.Json

/-- An array or object whose end has not been read. Items are held in reverse; an object keeps
the name of the member under way. -/
inductive Unclosed
  | array (items : List Json)
  | object (members : List (String × Json)) (key : String)

/-- What may come next. -/
inductive Awaiting
  | value
  | firstItem
  | firstKey
  | key
  | colon
  | separator
  | nothing

/-- The value under construction, the innermost container first. -/
structure Building where
  unclosed : List Unclosed
  awaiting : Awaiting
  root : Option Json

namespace Building

def start : Building := ⟨[], .value, none⟩

/-- The greatest number of containers inside each other. -/
def deepest : Nat := 127

/-- Put a complete value into the innermost container. -/
def put (value : Json) : List Unclosed → Building
  | [] => ⟨[], .nothing, some value⟩
  | .array items :: outer => ⟨.array (value :: items) :: outer, .separator, none⟩
  | .object members key :: outer =>
    ⟨.object (Entries.set key value members) "" :: outer, .separator, none⟩

def opened? (b : Building) (container : Unclosed) (awaiting : Awaiting) : Option Building :=
  if b.unclosed.length < deepest then some ⟨container :: b.unclosed, awaiting, none⟩ else none

/-- A value, or the start of one. -/
def valueStep? (b : Building) : Token → Option Building
  | .scalar value => some (put value b.unclosed)
  | .arrayOpen => b.opened? (.array []) .firstItem
  | .objectOpen => b.opened? (.object [] "") .firstKey
  | _ => none

/-- The name of a member. -/
def keyStep? (b : Building) : Token → Option Building
  | .scalar (.str key) =>
    match b.unclosed with
    | .object members _ :: outer => some ⟨.object members key :: outer, .colon, none⟩
    | _ => none
  | _ => none

/-- The end of the innermost container. -/
def closeStep? (b : Building) : Token → Option Building
  | .arrayClose =>
    match b.unclosed with
    | .array items :: outer => some (put (.arr items.reverse) outer)
    | _ => none
  | .objectClose =>
    match b.unclosed with
    | .object members _ :: outer => some (put (.obj members) outer)
    | _ => none
  | _ => none

def step? (b : Building) (token : Token) : Option Building :=
  match b.awaiting, token with
  | .value, token => b.valueStep? token
  | .firstItem, .arrayClose => b.closeStep? token
  | .firstItem, token => b.valueStep? token
  | .firstKey, .objectClose => b.closeStep? token
  | .firstKey, token => b.keyStep? token
  | .key, token => b.keyStep? token
  | .colon, .colon => some { b with awaiting := .value }
  | .colon, _ => none
  | .separator, .comma =>
    match b.unclosed with
    | .array _ :: _ => some { b with awaiting := .value }
    | .object _ _ :: _ => some { b with awaiting := .key }
    | [] => none
  | .separator, token => b.closeStep? token
  | .nothing, _ => none

/-- Take several tokens in turn. -/
def steps? (b : Building) : List Token → Option Building
  | [] => some b
  | token :: rest =>
    match b.step? token with
    | some b => steps? b rest
    | none => none

end Building

/-- Read the characters that remain. -/
def readFrom? (b : Building) (lexeme : Lexeme) : List Char → Option Json
  | [] => do
    let b ← b.steps? (← lexEnd? lexeme)
    b.root
  | c :: cs =>
    match lexStep? lexeme c with
    | none => none
    | some (tokens, lexeme) =>
      match b.steps? tokens with
      | none => none
      | some b => readFrom? b lexeme cs

/-- The value of a JSON text. -/
def read? (text : String) : Option Json :=
  readFrom? .start .between text.toList

end Taxonomy.Json
