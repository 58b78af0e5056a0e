/-
How much two texts resemble each other: the share of characters in blocks that both have, taken
greedily.

* `matched`: the size of all blocks, the longest one first, then what lies left and right of it;
* `closest`: the candidates that resemble a word, the best three.
-/
namespace LittleMan.Text

variable {α : Type} [DecidableEq α]

/-- How far two texts agree from their start. -/
def agreement : List α → List α → Nat
  | a :: s, b :: t => if a = b then agreement s t + 1 else 0
  | _, _ => 0

/-- A block that two texts share: where it starts in each, and its size. -/
structure Block where
  left : Nat := 0
  right : Nat := 0
  size : Nat := 0
deriving DecidableEq, Repr

/-- The longest block; of several the one that starts first on the left, then on the right. -/
def longestBlock (s t : List α) : Block :=
  (List.range s.length).foldl (fun best i =>
    (List.range t.length).foldl (fun best j =>
      let size := agreement (s.drop i) (t.drop j)
      if size > best.size then ⟨i, j, size⟩ else best) best) {}

/-- The size of the longest block and of those that remain on either side of it. -/
def matched (s t : List α) : Nat :=
  let block := longestBlock s t
  if _h : 0 < block.size ∧ block.left < s.length then
    block.size + matched (s.take block.left) (t.take block.right) +
      matched (s.drop (block.left + block.size)) (t.drop (block.right + block.size))
  else 0
termination_by s.length
decreasing_by
  all_goals
    have h : 0 < (longestBlock s t).size ∧ (longestBlock s t).left < s.length := _h
    simp only [List.length_take, List.length_drop]
    omega

/-- A candidate beside a word: twice what matches, of the length of both together. -/
structure Resemblance where
  candidate : String
  shared : Nat
  total : Nat
deriving DecidableEq, Repr

namespace Resemblance

/-- Compares a candidate with a word. -/
def of (word candidate : String) : Resemblance :=
  { candidate
    shared := 2 * matched candidate.toList word.toList
    total := candidate.length + word.length }

/-- Three fifths of the characters are enough. -/
def isClose (r : Resemblance) : Bool := 5 * r.shared ≥ 3 * r.total

/-- Whether a candidate goes before another: it shares more, or as much and has the later name. -/
def precedes (r s : Resemblance) : Bool :=
  let mine := r.shared * s.total
  let yours := s.shared * r.total
  mine > yours || (mine = yours && s.candidate ≤ r.candidate)

end Resemblance

/-- The three best of the candidates that resemble a word, by name. -/
def closest (word : String) (candidates : List String) : List String :=
  let close := (candidates.map (Resemblance.of word)).filter Resemblance.isClose
  let best := (close.mergeSort Resemblance.precedes).take 3
  (best.map Resemblance.candidate).mergeSort fun a b => a ≤ b

end LittleMan.Text
