/-
Upper and lower case in every script. A character may become several; a sigma that ends a word has a
lower case form of its own.
-/
import LittleMan.Text.CaseTable
namespace LittleMan.Text

open CaseTable

/-- Whether a code point lies in one of the closed ranges. -/
def inRanges (ranges : List (Nat × Nat)) (n : Nat) : Bool :=
  ranges.any fun (first, last) => first ≤ n && n ≤ last

/-- The mapping of one character: the expansions first, then the runs, else itself. -/
def mapCase (expansions : List (Nat × List Nat)) (runs : List Run) (c : Char) : List Char :=
  match expansions.lookup c.toNat with
  | some codes => codes.map Char.ofNat
  | none => match runs.findSome? (·.target? c.toNat) with
    | some code => [Char.ofNat code]
    | none => [c]

/-- Upper case of one character. -/
def upperChar (c : Char) : List Char :=
  if c.toNat < 0x80 then [c.toUpper] else mapCase upperExpansions upperRuns c

/-- Lower case of one character, away from the end of a word. -/
def lowerChar (c : Char) : List Char :=
  if c.toNat < 0x80 then [c.toLower] else mapCase lowerExpansions lowerRuns c

/-- Whether the nearest character that is not skipped is a letter with case. -/
def nearestIsCased (cs : List Char) : Bool :=
  match cs.find? fun c => !inRanges ignorableRanges c.toNat with
  | some c => inRanges casedRanges c.toNat
  | none => false

/-- Lower case, where `before` holds the characters already passed, the nearest first. -/
def lowerAfter (before : List Char) : List Char → List Char
  | [] => []
  | c :: rest =>
    (if c = 'Σ' then [if nearestIsCased before && !nearestIsCased rest then 'ς' else 'σ']
      else lowerChar c) ++ lowerAfter (c :: before) rest

/-- A text in upper case. -/
def upper (text : String) : String := String.ofList (text.toList.flatMap upperChar)

/-- A text in lower case. -/
def lower (text : String) : String := String.ofList (lowerAfter [] text.toList)

end LittleMan.Text
