import Taxonomy.Yaml.Token.Fold

/-!
# Quoted scalars

Between single quotes a quote is written twice and nothing else is special. Between double
quotes a backslash starts an escape; before a line end it joins the lines without a blank. Line ends
fold as in every scalar. A mark of the document may not stand at the start of a line.
-/

namespace Taxonomy.Yaml

/-- What the next character of a quoted scalar is part of. -/
inductive QuotedState
  | text
  /-- After a single quote that may be the first of two. -/
  | quote
  /-- After a backslash. -/
  | escape
  /-- Inside an escape with this many digits to come, after this value. -/
  | code (left value : Nat)

namespace QuotedState

/-- The character that a one-letter escape stands for. -/
def escapeChar? (c : Char) : Option Char :=
  match c with
  | '0' => some '\x00'
  | 'a' => some '\x07'
  | 'b' => some '\x08'
  | 't' => some '\t'
  | '\t' => some '\t'
  | 'n' => some '\n'
  | 'v' => some '\x0b'
  | 'f' => some '\x0c'
  | 'r' => some '\r'
  | 'e' => some '\x1b'
  | ' ' => some ' '
  | '"' => some '"'
  | '/' => some '/'
  | '\\' => some '\\'
  | 'N' => some '\x85'
  | '_' => some '\xa0'
  | 'L' => some '\u2028'
  | 'P' => some '\u2029'
  | _ => none

/-- The number of digits of an escape by code. -/
def codeLength? (c : Char) : Option Nat :=
  match c with
  | 'x' => some 2
  | 'u' => some 4
  | 'U' => some 8
  | _ => none

/-- The character of a code that is not a surrogate. -/
def codeChar? (n : Nat) : Option Char :=
  if n.isValidChar then some (Char.ofNat n) else none

end QuotedState

open QuotedState in
/-- Read on after some text, held in reverse, and a gap. The result ends behind the closing quote. -/
def readQuoted? (single : Bool) (state : QuotedState) (text : List Char) (gap : Gap) (place : Place) :
    List Char → Option (String × Cursor)
  | [] =>
    match state with
    | .quote => some (String.ofList text.reverse, ⟨place, []⟩)
    | _ => none
  | c :: cs =>
    let next := place.past c
    match state with
    | .quote =>
      if c = '\'' then readQuoted? single .text ('\'' :: text) {} next cs
      else some (String.ofList text.reverse, ⟨place, c :: cs⟩)
    | .escape =>
      if isBreak c then readQuoted? single .text text { broken := true } next cs
      else
        match escapeChar? c, codeLength? c with
        | some e, _ => readQuoted? single .text (e :: text) {} next cs
        | none, some n => readQuoted? single (.code n 0) text {} next cs
        | none, none => none
    | .code left value =>
      match Text.hexDigit? c with
      | none => none
      | some d =>
        let value := value * 16 + d
        if 1 < left then readQuoted? single (.code (left - 1) value) text {} next cs
        else
          match codeChar? value with
          | some e => readQuoted? single .text (e :: text) {} next cs
          | none => none
    | .text =>
      if isBlank c || isBreak c then readQuoted? single .text text (gap.add c) next cs
      else if place.column = 0 ∧ startsDocumentMark (c :: cs) = true then none
      else
        let text := gap.fold text
        if single then
          if c = '\'' then readQuoted? single .quote text {} next cs
          else readQuoted? single .text (c :: text) {} next cs
        else if c = '"' then some (String.ofList text.reverse, ⟨next, cs⟩)
        else if c = '\\' then readQuoted? single .escape text {} next cs
        else readQuoted? single .text (c :: text) {} next cs

end Taxonomy.Yaml
