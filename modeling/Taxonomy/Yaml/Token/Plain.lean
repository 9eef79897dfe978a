import Taxonomy.Yaml.Token.Fold

/-!
# Plain scalars

A scalar without quotes. It ends before a colon with a gap after it, before a comment,
before a mark of the document, where a line is indented too little, and inside brackets before a
bracket or a comma.
-/

namespace Taxonomy.Yaml

/-- A plain scalar and what follows it. -/
structure PlainScalar where
  text : String
  /-- A line has ended since the last word. -/
  broken : Bool
  next : Cursor

namespace PlainScalar

/-- The characters that end a plain scalar inside brackets. -/
def isFlowMark (c : Char) : Bool :=
  c == ',' || c == '[' || c == ']' || c == '\x7b' || c == '\x7d'

/-- Whether a colon is followed by what makes it wrong inside brackets. -/
def isWrongColon (c : Char) (cs : List Char) : Bool :=
  c == ':' && match cs with
    | [] => false
    | d :: _ => isFlowMark d || d == '?'

/-- Whether a word ends before a character. -/
def endsWord (flow : Bool) (c : Char) (cs : List Char) : Bool :=
  (c == ':' && atGap cs) || (flow && isFlowMark c)

/-- Read on after some text, held in reverse, and a gap. Lines of block context are indented at least
to the column `indent`. -/
def read? (flow : Bool) (indent : Int) (text : List Char) (gap : Gap) (place : Place) :
    List Char → Option PlainScalar
  | [] => some ⟨String.ofList text.reverse, gap.broken, place, []⟩
  | c :: cs =>
    if isBlank c || isBreak c then
      if gap.broken && c == '\t' && decide (place.column < indent) then none
      else read? flow indent text (gap.add c) (place.past c) cs
    else if (!gap.isEmpty && ((!flow && decide (place.column < indent)) || c == '#')) ||
        (place.column == 0 && startsDocumentMark (c :: cs)) then
      some ⟨String.ofList text.reverse, gap.broken, place, c :: cs⟩
    else if flow && isWrongColon c cs then none
    else if endsWord flow c cs then
      some ⟨String.ofList text.reverse, gap.broken, place, c :: cs⟩
    else read? flow indent (c :: gap.fold text) {} (place.past c) cs

end PlainScalar

end Taxonomy.Yaml
