/-
How far apart two texts are: the least number of characters to insert, delete or replace that turns
one into the other.

* `distance`: the recursion over both texts, the definition to reason about;
* `rowDistance`: the same number row by row, the definition to run.
-/
namespace LittleMan.Text

variable {α : Type} [DecidableEq α]

/-- The edit distance, by recursion over both lists: drop a character here, drop one there, or match
the two first ones. -/
def distance : List α → List α → Nat
  | [], t => t.length
  | s, [] => s.length
  | a :: s, b :: t =>
    min (distance s t + if a = b then 0 else 1)
      (min (distance s (b :: t) + 1) (distance (a :: s) t + 1))
termination_by s t => s.length + t.length

/-- The next row of distances, from the row above it. `corner` is the entry diagonally above the
next one, `left` the entry just computed. -/
def nextRow (a : α) : (corner left : Nat) → List α → List Nat → List Nat
  | corner, left, b :: t, above :: row =>
    let entry := if a = b then corner else 1 + min corner (min above left)
    entry :: nextRow a above entry t row
  | _, _, _, _ => []

/-- All rows one after the other; the row before the first counts the characters of `t`. -/
def lastRow (t : List α) : (count : Nat) → List Nat → List α → List Nat
  | _, row, [] => row
  | count, row, a :: s =>
    let below := match row with
      | [] => []
      | corner :: above => (count + 1) :: nextRow a corner (count + 1) t above
    lastRow t (count + 1) below s

/-- The edit distance, row by row along the longer list. -/
def rowDistance (s t : List α) : Nat :=
  let (long, short) := if s.length < t.length then (t, s) else (s, t)
  (lastRow short 0 (List.range (short.length + 1)) long).getLastD 0

end LittleMan.Text
