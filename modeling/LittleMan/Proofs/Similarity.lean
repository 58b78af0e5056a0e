/-
Names that are suggested for a misspelt one.

* `row`: the distances of a text to the beginnings of another, as the definition to run has them;
* `nextRow_row`, `lastRow_row`: each row comes from the one above it, and so the last from the first;
* `rowDistance_eq`: the two distances are the same number;
* `Resembles`: when a name is suggested, told by edits and not by a computation;
* `similar_exact`: the distance is the least number of edits, and the first three names that
  resemble the given one are suggested.
-/
import LittleMan.TagTable
import LittleMan.Proofs.Text.Edits
namespace LittleMan

namespace Text

variable {α : Type} [DecidableEq α]

/-! ### Rows -/

/-- The distances of `s` to the beginnings of `front ++ t` that are no shorter than `front`. -/
def row (s front : List α) : List α → List Nat
  | [] => [distance s front]
  | b :: t => distance s front :: row s (front ++ [b]) t

section Rows

variable (s front t : List α)

theorem row_eq_cons : row s front t = distance s front :: (row s front t).tail := by
  cases t with
  | nil => rfl
  | cons b t => rfl

/-- Below the first entry of a row, the next row is computed from it. -/
theorem nextRow_row (a : α) :
    nextRow a (distance s front) (distance (s ++ [a]) front) t (row s front t).tail =
      (row (s ++ [a]) front t).tail := by
  induction t generalizing front with
  | nil => rfl
  | cons b t ih =>
    have hentry : (if a = b then distance s front else
        1 + min (distance s front)
          (min (distance s (front ++ [b])) (distance (s ++ [a]) front))) =
        distance (s ++ [a]) (front ++ [b]) := by
      by_cases hab : a = b
      · subst hab
        rw [if_pos rfl, distance_concat_self]
      · rw [if_neg hab, distance_concat_of_ne _ _ hab]
    rw [row, List.tail_cons, row_eq_cons s, nextRow, hentry, ih, ← row_eq_cons]
    rfl

/-- The invariant of the rows: after the characters in `done`, the row is that of `done`. -/
theorem lastRow_row (done : List α) :
    lastRow t done.length (row done [] t) s = row (done ++ s) [] t := by
  induction s generalizing done with
  | nil => rw [lastRow, List.append_nil]
  | cons a s ih =>
    have hcount : done.length + 1 = distance (done ++ [a]) [] := by
      rw [distance_nil_right, List.length_append, List.length_singleton]
    have hrest := ih (done ++ [a])
    rw [List.length_append, List.length_singleton, List.append_assoc,
      List.singleton_append] at hrest
    rw [row_eq_cons, lastRow]
    show lastRow t (done.length + 1)
      ((done.length + 1) :: nextRow a (distance done []) (done.length + 1) t _) s = _
    rw [hcount, nextRow_row, ← row_eq_cons, ← hcount, hrest]

/-- The row before the first character counts the characters of the other text. -/
theorem row_nil : row [] front t = List.range' front.length (t.length + 1) := by
  induction t generalizing front with
  | nil => rw [row, distance_nil_left]; rfl
  | cons b t ih =>
    rw [row, distance_nil_left, ih, List.length_append, List.length_singleton, List.length_cons,
      ← List.range'_succ]

theorem getLastD_row (d : Nat) : (row s front t).getLastD d = distance s (front ++ t) := by
  induction t generalizing front d with
  | nil => rw [List.append_nil]; rfl
  | cons b t ih => rw [row, List.getLastD_cons, ih, List.append_assoc, List.singleton_append]

theorem getLastD_lastRow :
    (lastRow t 0 (List.range (t.length + 1)) s).getLastD 0 = distance s t := by
  have hrows := lastRow_row s t []
  rw [row_nil, List.length_nil, ← List.range_eq_range', List.nil_append] at hrows
  rw [hrows, getLastD_row, List.nil_append]

/-- Row by row and along the longer text, the distance comes out. -/
theorem rowDistance_eq (s t : List α) : rowDistance s t = distance s t := by
  unfold rowDistance
  by_cases hlength : s.length < t.length
  · rw [if_pos hlength, distance_comm]
    exact getLastD_lastRow t s
  · rw [if_neg hlength]
    exact getLastD_lastRow s t

end Rows

end Text

/-! ### Suggestions -/

open Text

/-- A tag resembles a name: they are the same in lower case, or their lengths differ by no more than
one and no more than two edits lead from one to the other in lower case. -/
def Resembles (name tag : String) : Prop :=
  lower tag = lower name ∨
    (tag.length ≤ name.length + 1 ∧ name.length ≤ tag.length + 1) ∧
      ∃ n ≤ 2, Edits n (lower name).toList (lower tag).toList

theorem TagTable.alike_iff (name tag : String) : alike name tag = true ↔ Resembles name tag := by
  have hlengths : ((tag.length : Int) - name.length).natAbs ≤ 1 ↔
      tag.length ≤ name.length + 1 ∧ name.length ≤ tag.length + 1 := by
    omega
  rw [alike, Resembles, Bool.or_eq_true, Bool.and_eq_true, beq_iff_eq, decide_eq_true_iff,
    decide_eq_true_iff, rowDistance_eq, hlengths, distance_le_iff]

instance (name tag : String) : Decidable (Resembles name tag) :=
  decidable_of_iff _ (TagTable.alike_iff name tag)

/-- **The suggestions.** For any two texts, the number computed row by row is the least number of
characters to insert, delete and replace that turns one into the other, and so it is the one of the
recursion, does not depend on the direction, and is 0 only for equal texts. For any name and table,
the suggestions are the first three tags, in the order of the table, that resemble the name. -/
theorem similar_exact :
    (∀ s t : List Char,
      IsLeast {n | Edits n s t} (rowDistance s t) ∧
        rowDistance s t = distance s t ∧
        rowDistance s t = rowDistance t s ∧
        (rowDistance s t = 0 ↔ s = t)) ∧
    ∀ (name : String) (tags : List String),
      TagTable.similar name tags = (tags.filter fun tag => Resembles name tag).take 3 := by
  constructor
  · intro s t
    rw [rowDistance_eq, rowDistance_eq]
    exact ⟨isLeast_distance s t, rfl, distance_comm s t, distance_eq_zero_iff⟩
  · intro name tags
    have halike : TagTable.alike name = fun tag => decide (Resembles name tag) := by
      funext tag
      rw [Bool.eq_iff_iff, decide_eq_true_iff]
      exact TagTable.alike_iff name tag
    rw [TagTable.similar, halike]

example : TagTable.similar "lopp" ["end", "LOOP", "lop", "start"] = ["LOOP", "lop"] := by rfl

end LittleMan
