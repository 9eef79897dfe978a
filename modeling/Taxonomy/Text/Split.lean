/-!
# Cutting text at a character
-/

namespace Taxonomy.Text

/-- The parts between occurrences of a separator; there is one part more than separators. -/
def splitAt (separator : Char) : List Char → List (List Char)
  | [] => [[]]
  | c :: cs =>
    if c = separator then [] :: splitAt separator cs
    else match splitAt separator cs with
      | [] => [[c]]
      | part :: parts => (c :: part) :: parts

/-- What follows the last occurrence of a separator, or everything if there is none. -/
def afterLast (separator : Char) (cs : List Char) : List Char :=
  (cs.reverse.takeWhile (· != separator)).reverse

/-- The parts before and after the first character that satisfies a test. -/
def cutAt? (isCut : Char → Bool) : List Char → Option (List Char × List Char)
  | [] => none
  | c :: cs =>
    if isCut c then some ([], cs)
    else (cutAt? isCut cs).map (fun parts => (c :: parts.1, parts.2))

/-- What follows a given beginning. -/
def dropStart? : (start : List Char) → List Char → Option (List Char)
  | [], cs => some cs
  | _ :: _, [] => none
  | a :: start, c :: cs => if a = c then dropStart? start cs else none

end Taxonomy.Text
