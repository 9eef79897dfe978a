import Taxonomy.Yaml.Characters

/-!
# Gaps inside scalars

Blanks and line ends between the words of a scalar on several lines. Blanks on one line are
kept; at a line end they are dropped, one line feed becomes a blank, and of several the first is
dropped. The separators of Unicode are kept.
-/

namespace Taxonomy.Yaml

/-- Blanks and line ends since the last word. Characters are held in reverse. -/
structure Gap where
  /-- A line has ended, so that blanks no longer count. -/
  broken : Bool := false
  blanks : List Char := []
  firstBreak : Option Char := none
  moreBreaks : List Char := []

namespace Gap

def isEmpty (g : Gap) : Bool :=
  !g.broken && g.blanks.isEmpty

/-- One more blank or line end. -/
def add (g : Gap) (c : Char) : Gap :=
  if isBreak c then
    if g.broken then { g with moreBreaks := c :: g.moreBreaks }
    else { broken := true, firstBreak := some c }
  else if g.broken then g
  else { g with blanks := c :: g.blanks }

/-- Put what a gap stands for behind a text, both in reverse. -/
def fold (g : Gap) (text : List Char) : List Char :=
  if g.broken then
    match g.firstBreak with
    | some '\n' => if g.moreBreaks.isEmpty then ' ' :: text else g.moreBreaks ++ text
    | some c => g.moreBreaks ++ c :: text
    | none => g.moreBreaks ++ text
  else g.blanks ++ text

end Gap

end Taxonomy.Yaml
