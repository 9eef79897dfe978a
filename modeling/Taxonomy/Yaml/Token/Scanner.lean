import Taxonomy.Yaml.Token
import Taxonomy.Yaml.Token.Block
import Taxonomy.Yaml.Token.Plain
import Taxonomy.Yaml.Token.Quoted

/-!
# From text to tokens

In block context a column deeper than the last opens a block and a column less deep closes
some. A key without a mark is known only by the colon behind it: what may turn out to be one is
remembered, one place for each bracket that is open, until the line ends or it grows too long, and its
token is put in where it started.
-/

namespace Taxonomy.Yaml

/-- What may turn out to be a key. -/
structure SimpleKey where
  /-- The number of tokens before it. -/
  number : Nat
  place : Place
  /-- Nothing but a key can stand here. -/
  required : Bool

/-- The tokens so far and what is needed to go on. -/
structure Scanner where
  cursor : Cursor
  /-- The latest token first. -/
  tokens : List Token := []
  count : Nat := 0
  /-- The column of the innermost block, negative outside all. -/
  indent : Int := -1
  outerIndents : List Int := []
  /-- A key without a mark may start here. -/
  keyAllowed : Bool := true
  key : Option SimpleKey := none
  /-- One entry for each open bracket. -/
  outerKeys : List (Option SimpleKey) := []

namespace Scanner

def inFlow (s : Scanner) : Bool :=
  !s.outerKeys.isEmpty

def column (s : Scanner) : Int :=
  s.cursor.place.column

def emit (s : Scanner) (token : Token) : Scanner :=
  { s with tokens := token :: s.tokens, count := s.count + 1 }

/-- Put a token before the last few. -/
def putBefore (token : Token) : Nat → List Token → List Token
  | 0, tokens => token :: tokens
  | _ + 1, [] => [token]
  | n + 1, last :: tokens => last :: putBefore token n tokens

/-- Put a token behind the first `number` ones. -/
def emitAt (s : Scanner) (number : Nat) (token : Token) : Scanner :=
  { s with tokens := putBefore token (s.count - number) s.tokens, count := s.count + 1 }

/-- Move past a mark of one line and emit its token. -/
def emitMark (s : Scanner) (width : Nat) (token : Token) : Scanner :=
  { s with cursor := s.cursor.skip width }.emit token

/-- Emit a token that ends at a cursor. -/
def emitTo (s : Scanner) (next : Cursor) (token : Token) : Scanner :=
  { s with cursor := next }.emit token

/-- A key is no longer possible. It is wrong if there had to be one. -/
def dropKey? (s : Scanner) : Option Scanner :=
  match s.key with
  | some key => if key.required then none else some { s with key := none }
  | none => some s

/-- What starts here may turn out to be a key. -/
def saveKey? (s : Scanner) : Option Scanner :=
  if s.keyAllowed then
    s.dropKey?.map (fun s => { s with
      key := some ⟨s.count, s.cursor.place, !s.inFlow && s.indent == s.column⟩ })
  else some s

/-- The greatest number of octets between the start of a key and its colon. -/
def longestKey : Nat := 1024

/-- Forget a key that has ended with its line or grown too long. -/
def refresh? (place : Place) (key : Option SimpleKey) : Option (Option SimpleKey) :=
  match key with
  | none => some none
  | some k =>
    if k.place.line < place.line || k.place.index + longestKey < place.index then
      if k.required then none else some none
    else some (some k)

def refreshKeys? (s : Scanner) : Option Scanner := do
  let key ← refresh? s.cursor.place s.key
  let outerKeys ← s.outerKeys.mapM (refresh? s.cursor.place)
  some { s with key := key, outerKeys := outerKeys }

/-- Open a block at a column that is deeper than the last, behind the first `number` tokens. -/
def openBlock (s : Scanner) (column : Nat) (number : Nat) (token : Token) : Scanner :=
  if !s.inFlow && decide (s.indent < column) then
    { s with indent := column, outerIndents := s.indent :: s.outerIndents }.emitAt number token
  else s

/-- The blocks that a column closes: their number, and the indentation that is left. -/
def closing (column indent : Int) : List Int → Nat × Int × List Int
  | [] => (if column < indent then 1 else 0, if column < indent then -1 else indent, [])
  | outer :: outers =>
    if column < indent then
      let (n, left) := closing column outer outers
      (n + 1, left)
    else (0, indent, outer :: outers)

/-- Close the blocks that are deeper than a column. -/
def closeBlocks (s : Scanner) (column : Int) : Scanner :=
  if s.inFlow then s
  else
    let (n, indent, outerIndents) := closing column s.indent s.outerIndents
    { s with
      tokens := List.replicate n .blockEnd ++ s.tokens
      count := s.count + n
      indent := indent
      outerIndents := outerIndents }

/-- Move past blanks, comments and line ends. Where a key could start a tab is no blank. -/
def skipGap (inFlow keyAllowed inComment : Bool) (place : Place) : List Char → Bool × Cursor
  | [] => (keyAllowed, ⟨place, []⟩)
  | c :: cs =>
    let next := place.past c
    if isBreak c then skipGap inFlow (keyAllowed || !inFlow) false next cs
    else if inComment then skipGap inFlow keyAllowed true next cs
    else if c == ' ' || (c == '\t' && (inFlow || !keyAllowed)) ||
        (c == '\ufeff' && place.column == 0) then
      skipGap inFlow keyAllowed false next cs
    else if c == '#' then skipGap inFlow keyAllowed true next cs
    else (keyAllowed, ⟨place, c :: cs⟩)

/-- Outside brackets, a mark on a line of its own may open a block. -/
def openEntry? (s : Scanner) (token : Token) : Option Scanner :=
  if s.inFlow then some s
  else if s.keyAllowed then some (s.openBlock s.cursor.place.column s.count token)
  else none

def blockEntry? (s : Scanner) : Option Scanner := do
  let s ← (← s.openEntry? .blockSequenceStart).dropKey?
  some ({ s with keyAllowed := true }.emitMark 1 .blockEntry)

def key? (s : Scanner) : Option Scanner := do
  let s ← (← s.openEntry? .blockMappingStart).dropKey?
  some ({ s with keyAllowed := !s.inFlow }.emitMark 1 .key)

/-- A colon makes a key of what was remembered, or follows a marked key. -/
def value? (s : Scanner) : Option Scanner :=
  match s.key with
  | some key =>
    let s := (s.emitAt key.number .key).openBlock key.place.column key.number .blockMappingStart
    some ({ s with key := none, keyAllowed := false }.emitMark 1 .value)
  | none => do
    let s ← s.openEntry? .blockMappingStart
    some ({ s with keyAllowed := !s.inFlow }.emitMark 1 .value)

def openFlow? (s : Scanner) (token : Token) : Option Scanner := do
  let s ← s.saveKey?
  some ({ s with key := none, outerKeys := s.key :: s.outerKeys, keyAllowed := true }.emitMark 1 token)

def closeFlow? (s : Scanner) (token : Token) : Option Scanner := do
  let s ← s.dropKey?
  let s := match s.outerKeys with
    | key :: outerKeys => { s with key := key, outerKeys := outerKeys }
    | [] => s
  some ({ s with keyAllowed := false }.emitMark 1 token)

def flowEntry? (s : Scanner) : Option Scanner := do
  let s ← s.dropKey?
  some ({ s with keyAllowed := true }.emitMark 1 .flowEntry)

def documentMark? (s : Scanner) (token : Token) : Option Scanner := do
  let s ← (s.closeBlocks (-1)).dropKey?
  some ({ s with keyAllowed := false }.emitMark 3 token)

def directive? (s : Scanner) : Option Scanner := do
  let s ← (s.closeBlocks (-1)).dropKey?
  let (directive, next) ← Directive.read? s.cursor
  some ({ s with keyAllowed := false }.emitTo next (.directive directive))

def name? (s : Scanner) (token : String → Token) : Option Scanner := do
  let s ← s.saveKey?
  let (name, next) ← readName? s.cursor
  some ({ s with keyAllowed := false }.emitTo next (token name))

def tag? (s : Scanner) : Option Scanner := do
  let s ← s.saveKey?
  let (handle, suffix, next) ← readTag? s.inFlow s.cursor
  some ({ s with keyAllowed := false }.emitTo next (.tag handle suffix))

def block? (s : Scanner) (folded : Bool) : Option Scanner := do
  let s ← s.dropKey?
  let (text, next) ← readBlock? folded s.indent (s.cursor.skip 1)
  some ({ s with keyAllowed := true }.emitTo next (.scalar text false))

def quoted? (s : Scanner) (single : Bool) : Option Scanner := do
  let s ← s.saveKey?
  let c := s.cursor.skip 1
  let (text, next) ← readQuoted? single .text [] {} c.place c.rest
  some ({ s with keyAllowed := false }.emitTo next (.scalar text false))

def plain? (s : Scanner) : Option Scanner := do
  let s ← s.saveKey?
  let read ← PlainScalar.read? s.inFlow (s.indent + 1) [] {} s.cursor.place s.cursor.rest
  some ({ s with keyAllowed := read.broken }.emitTo read.next (.scalar read.text true))

/-- Whether a plain scalar may start with a character. -/
def startsPlain (inFlow : Bool) (c : Char) (cs : List Char) : Bool :=
  if c == '-' then !(cs.head?.any isBlank)
  else if c == '?' || c == ':' then !inFlow && !atGap cs
  else !(isBlank c || isBreak c || ",[]\x7b\x7d#&*!|>'\"%@\x60".toList.contains c)

/-- The next token at a character that is no gap. -/
def token? (s : Scanner) (c : Char) (cs : List Char) : Option Scanner :=
  let atLineStart := s.cursor.place.column == 0
  if atLineStart && c == '%' then s.directive?
  else if atLineStart && startsMark '-' (c :: cs) then s.documentMark? .documentStart
  else if atLineStart && startsMark '.' (c :: cs) then s.documentMark? .documentEnd
  else if c == '[' then s.openFlow? .flowSequenceStart
  else if c == '\x7b' then s.openFlow? .flowMappingStart
  else if c == ']' then s.closeFlow? .flowSequenceEnd
  else if c == '\x7d' then s.closeFlow? .flowMappingEnd
  else if c == ',' then s.flowEntry?
  else if c == '-' && atGap cs then s.blockEntry?
  else if c == '?' && (s.inFlow || atGap cs) then s.key?
  else if c == ':' && (s.inFlow || atGap cs) then s.value?
  else if c == '*' then s.name? .alias
  else if c == '&' then s.name? .anchor
  else if c == '!' then s.tag?
  else if c == '|' && !s.inFlow then s.block? false
  else if c == '>' && !s.inFlow then s.block? true
  else if c == '\'' then s.quoted? true
  else if c == '"' then s.quoted? false
  else if startsPlain s.inFlow c cs then s.plain?
  else none

/-- The end of the text closes all blocks. -/
def finish? (s : Scanner) : Option (List Token) := do
  let s ← (s.closeBlocks (-1)).dropKey?
  some s.tokens.reverse

/-- Read on. Each step but the last takes a character at least. -/
def scan? : (steps : Nat) → Scanner → Option (List Token)
  | 0, _ => none
  | steps + 1, s => do
    let (keyAllowed, cursor) :=
      skipGap s.inFlow s.keyAllowed false s.cursor.place s.cursor.rest
    let s ← { s with keyAllowed := keyAllowed, cursor := cursor }.refreshKeys?
    match s.cursor.rest with
    | [] => s.finish?
    | c :: cs => do
      let s := s.closeBlocks s.column
      scan? steps (← s.token? c cs)

end Scanner

/-- The tokens of a text. -/
def tokens? (text : String) : Option (List Token) :=
  let cs := withLineFeeds text.toList
  if cs.all isAllowed then Scanner.scan? (cs.length + 1) { cursor := ⟨{}, cs⟩ } else none

end Taxonomy.Yaml
