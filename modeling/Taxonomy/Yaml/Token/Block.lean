import Taxonomy.Yaml.Characters

/-!
# Block scalars

A literal or folded scalar is made of the lines below its header that are indented enough:
by as much as the header says, or as the first lines are. Folding joins two lines that both start with
a word by a blank. At the end the header keeps all line ends, one, or none.
-/

namespace Taxonomy.Yaml

/-- What becomes of the line ends behind a block scalar. -/
inductive Chomping
  | clip
  | strip
  | keep
deriving DecidableEq

/-- What the header of a block scalar says. -/
structure BlockHeader where
  chomping : Chomping := .clip
  /-- How much deeper than its parent the scalar is indented, from one to nine. -/
  increment : Option Nat := none

namespace BlockHeader

def chomping? (c : Char) : Option Chomping :=
  if c = '+' then some .keep else if c = '-' then some .strip else none

/-- Read a header after its first mark: a chomping mark and a digit in either order. Zero is no
indentation. -/
def read? (cs : List Char) : Option (BlockHeader × Nat) :=
  let digit (c : Char) : Option Nat := Text.digit? c
  match cs with
  | [] => some ({}, 0)
  | a :: rest =>
    match chomping? a, digit a with
    | some chomping, _ =>
      match rest.head?.bind digit with
      | some 0 => none
      | some n => some (⟨chomping, some n⟩, 2)
      | none => some (⟨chomping, none⟩, 1)
    | none, some 0 => none
    | none, some n =>
      match rest.head?.bind chomping? with
      | some chomping => some (⟨chomping, some n⟩, 2)
      | none => some (⟨.clip, some n⟩, 1)
    | none, none => some ({}, 0)

end BlockHeader

/-- Lines without content at the front of a block scalar. -/
structure BlockStart where
  /-- The line ends, the latest first. -/
  breaks : List Char
  /-- The deepest column reached. -/
  deepest : Nat
  next : Cursor

/-- Read the lines without content. Without a known indentation all blanks count as indentation. -/
def BlockStart.read? (indent : Option Nat) (breaks : List Char) (deepest : Nat) (place : Place) :
    List Char → Option BlockStart
  | [] => some ⟨breaks, max deepest place.column, place, []⟩
  | c :: cs =>
    let inside := match indent with
      | none => true
      | some n => decide (place.column < n)
    if inside && c == ' ' then read? indent breaks deepest (place.past c) cs
    else if inside && c == '\t' then none
    else if isBreak c then read? indent (c :: breaks) (max deepest place.column) (place.past c) cs
    else some ⟨breaks, max deepest place.column, place, c :: cs⟩

/-- What has been read of a block scalar. Text is held in reverse. -/
structure BlockText where
  text : List Char := []
  /-- The end of the last line, not yet part of the text. -/
  lineEnd : Option Char := none
  /-- The ends of the empty lines after it, the latest first. -/
  breaks : List Char := []
  /-- The last line started with a blank. -/
  startedBlank : Bool := false

namespace BlockText

/-- Put the line ends before a new line into the text. -/
def join (folded startsBlank : Bool) (b : BlockText) : List Char :=
  if folded && b.lineEnd == some '\n' && !b.startedBlank && !startsBlank then
    if b.breaks.isEmpty then ' ' :: b.text else b.breaks ++ b.text
  else b.breaks ++ b.lineEnd.toList ++ b.text

/-- The whole text at the end of a scalar. -/
def finish (chomping : Chomping) (b : BlockText) : String :=
  let text := if chomping = .strip then b.text else b.lineEnd.toList ++ b.text
  let text := if chomping = .keep then b.breaks ++ text else text
  String.ofList text.reverse

/-- Read on, inside a line or in the indentation before one. A blank too few ends the scalar. -/
def read? (folded : Bool) (indent : Nat) (inLine : Bool) (b : BlockText) (place : Place) :
    List Char → Option (BlockText × Cursor)
  | [] => some (b, ⟨place, []⟩)
  | c :: cs =>
    let next := place.past c
    if inLine then
      if isBreak c then read? folded indent false { b with lineEnd := some c } next cs
      else read? folded indent true { b with text := c :: b.text } next cs
    else if isBreak c then read? folded indent false { b with breaks := c :: b.breaks } next cs
    else if decide (place.column < indent) && c == ' ' then read? folded indent false b next cs
    else if decide (place.column < indent) && c == '\t' then none
    else if place.column = indent then
      let startsBlank := isBlank c
      read? folded indent true
        { text := c :: b.join folded startsBlank, startedBlank := startsBlank } next cs
    else some (b, ⟨place, c :: cs⟩)

end BlockText

/-- Read a block scalar from behind its first mark. The parent is indented to `parent`, which is
negative at the top. -/
def readBlock? (folded : Bool) (parent : Int) (c : Cursor) : Option (String × Cursor) := do
  let (header, width) ← BlockHeader.read? c.rest
  let c ← (c.skip width).finishLine?
  let base := parent.toNat
  let start ← BlockStart.read? (header.increment.map (base + ·)) [] 0 c.place c.rest
  let indent := match header.increment with
    | some n => base + n
    | none => max (max start.deepest (parent + 1).toNat) 1
  let (b, c) ← BlockText.read? folded indent false { breaks := start.breaks } start.next.place
    start.next.rest
  some (b.finish header.chomping, c)

end Taxonomy.Yaml
