import Taxonomy.Binary64.Layout
import Taxonomy.Json.Basic
import Taxonomy.Text.Digits

/-!
# Writing JSON text

Two layouts: everything on one line without blanks, or one member a line, indented by two
blanks a level. Control characters, the quote and the backslash are escaped, all else is written
as it is.
-/

namespace Taxonomy.Json

/-- A character inside a quoted string. -/
def escapedChar (c : Char) : List Char :=
  match c with
  | '"' => ['\\', '"']
  | '\\' => ['\\', '\\']
  | '\n' => ['\\', 'n']
  | '\r' => ['\\', 'r']
  | '\t' => ['\\', 't']
  | '\x08' => ['\\', 'b']
  | '\x0c' => ['\\', 'f']
  | c =>
    if c.toNat < 0x20 then
      ['\\', 'u', '0', '0', Text.hexChar (c.toNat / 16), Text.hexChar (c.toNat % 16)]
    else [c]

def quotedChars (s : String) : List Char :=
  '"' :: s.toList.flatMap escapedChar ++ ['"']

/-- The text of a value without parts. -/
def scalarText : Json → List Char
  | null => "null".toList
  | bool true => "true".toList
  | bool false => "false".toList
  | int n => (toString n).toList
  | float x => (x.text .json).toList
  | str s => quotedChars s
  | arr _ => ['[', ']']
  | obj _ => ['\x7b', '\x7d']

mutual

/-- The text of a value on one line. -/
def compactChars : Json → List Char
  | arr items => '[' :: compactItems items ++ [']']
  | obj members => '\x7b' :: compactMembers members ++ ['\x7d']
  | value => scalarText value

def compactItems : List Json → List Char
  | [] => []
  | [item] => compactChars item
  | item :: rest => compactChars item ++ ',' :: compactItems rest

def compactMembers : List (String × Json) → List Char
  | [] => []
  | [(key, value)] => quotedChars key ++ ':' :: compactChars value
  | (key, value) :: rest =>
    quotedChars key ++ ':' :: compactChars value ++ ',' :: compactMembers rest

end

def compact (value : Json) : String :=
  String.ofList (compactChars value)

/-- A line break followed by the indentation of a level. -/
def lineBreak (level : Nat) : List Char :=
  '\n' :: List.replicate (2 * level) ' '

mutual

/-- The text of a value with one part a line. -/
def prettyChars (level : Nat) : Json → List Char
  | arr [] => ['[', ']']
  | arr (item :: rest) => '[' :: prettyItems (level + 1) (item :: rest) ++ lineBreak level ++ [']']
  | obj [] => ['\x7b', '\x7d']
  | obj (member :: rest) =>
    '\x7b' :: prettyMembers (level + 1) (member :: rest) ++ lineBreak level ++ ['\x7d']
  | value => scalarText value

def prettyItems (level : Nat) : List Json → List Char
  | [] => []
  | [item] => lineBreak level ++ prettyChars level item
  | item :: rest => lineBreak level ++ prettyChars level item ++ ',' :: prettyItems level rest

def prettyMembers (level : Nat) : List (String × Json) → List Char
  | [] => []
  | [(key, value)] => lineBreak level ++ quotedChars key ++ ':' :: ' ' :: prettyChars level value
  | (key, value) :: rest =>
    lineBreak level ++ quotedChars key ++ ':' :: ' ' :: prettyChars level value ++
      ',' :: prettyMembers level rest

end

def pretty (value : Json) : String :=
  String.ofList (prettyChars 0 value)

end Taxonomy.Json
