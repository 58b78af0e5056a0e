/-
Edits of a text: a character is inserted, deleted or replaced by another.

* `Edit`, `Edits`: one edit, and a number of edits one after the other;
* `Edits.symm`, `Edits.reverse`: edits can be undone, and done from the other end;
* `distance_le_of_edit`: an edit brings a text no more than one step closer to any other;
* `isLeast_distance`: the distance of two texts is the least number of edits between them;
* `distance_comm`, `distance_reverse`, `distance_eq_zero_iff`: so it is the same in both directions
  and from both ends, and 0 only between equal texts;
* `distance_cons_self`: a character that both texts start with is best kept;
* `distance_concat_self`, `distance_concat_of_ne`: the recursion from the ends of the texts.
-/
import LittleMan.Text.Distance
import Mathlib.Order.Bounds.Basic
namespace LittleMan.Text

variable {α : Type}

/-! ### Edits -/

/-- One edit, somewhere in a text. -/
inductive Edit : List α → List α → Prop where
  | insert (u v : List α) (c : α) : Edit (u ++ v) (u ++ c :: v)
  | delete (u v : List α) (c : α) : Edit (u ++ c :: v) (u ++ v)
  | replace (u v : List α) (b c : α) : Edit (u ++ b :: v) (u ++ c :: v)

/-- So many edits, one after the other. -/
inductive Edits : Nat → List α → List α → Prop where
  | refl (s : List α) : Edits 0 s s
  | cons {n : Nat} {s t u : List α} (first : Edit s t) (others : Edits n t u) : Edits (n + 1) s u

section Edits

variable {s t u : List α} {n : Nat}

theorem Edit.symm (h : Edit s t) : Edit t s := by
  cases h with
  | insert u v c => exact .delete u v c
  | delete u v c => exact .insert u v c
  | replace u v b c => exact .replace u v c b

theorem Edit.cons (a : α) (h : Edit s t) : Edit (a :: s) (a :: t) := by
  cases h with
  | insert u v c => exact .insert (a :: u) v c
  | delete u v c => exact .delete (a :: u) v c
  | replace u v b c => exact .replace (a :: u) v b c

theorem Edit.reverse (h : Edit s t) : Edit s.reverse t.reverse := by
  have hreverse : ∀ (u v : List α) (c : α),
      (u ++ c :: v).reverse = v.reverse ++ c :: u.reverse := by
    intro u v c
    rw [List.reverse_append, List.reverse_cons, List.append_assoc, List.singleton_append]
  cases h with
  | insert u v c =>
    rw [hreverse, List.reverse_append]
    exact .insert v.reverse u.reverse c
  | delete u v c =>
    rw [hreverse, List.reverse_append]
    exact .delete v.reverse u.reverse c
  | replace u v b c =>
    rw [hreverse, hreverse]
    exact .replace v.reverse u.reverse b c

theorem Edits.concat (h : Edits n s t) (last : Edit t u) : Edits (n + 1) s u := by
  induction h with
  | refl s => exact .cons last (.refl u)
  | cons first _ ih => exact .cons first (ih last)

theorem Edits.symm (h : Edits n s t) : Edits n t s := by
  induction h with
  | refl s => exact .refl s
  | cons first _ ih => exact ih.concat first.symm

/-- Edits that leave the first character alone. -/
theorem Edits.cons_cons (a : α) (h : Edits n s t) : Edits n (a :: s) (a :: t) := by
  induction h with
  | refl s => exact .refl (a :: s)
  | cons first _ ih => exact .cons (first.cons a) ih

theorem Edits.reverse (h : Edits n s t) : Edits n s.reverse t.reverse := by
  induction h with
  | refl s => exact .refl s.reverse
  | cons first _ ih => exact .cons first.reverse ih

theorem edits_zero_iff : Edits 0 s t ↔ s = t := by
  constructor
  · rintro ⟨⟩
    rfl
  · rintro rfl
    exact .refl s

/-- A text is inserted character by character. -/
theorem edits_nil_left (t : List α) : Edits t.length [] t := by
  induction t with
  | nil => exact .refl []
  | cons c t ih => exact .cons (.insert [] [] c) (ih.cons_cons c)

end Edits

/-! ### The distance -/

variable [DecidableEq α]

section Recursion

variable (s t : List α) (a b : α)

theorem distance_nil_left : distance [] t = t.length := by
  rw [distance]

theorem distance_nil_right : distance s [] = s.length := by
  cases s with
  | nil => rw [distance]
  | cons a s =>
    rw [distance]
    simp

theorem distance_cons_cons :
    distance (a :: s) (b :: t) =
      min (distance s t + if a = b then 0 else 1)
        (min (distance s (b :: t) + 1) (distance (a :: s) t + 1)) := by
  rw [distance]

theorem distance_self : distance s s = 0 := by
  induction s with
  | nil => exact distance_nil_left []
  | cons a s ih => rw [distance_cons_cons, ih, if_pos rfl, Nat.zero_min]

/-- Deleting the first character is one edit more. -/
theorem distance_cons_left_le : distance (a :: s) t ≤ distance s t + 1 := by
  cases t with
  | nil =>
    rw [distance_nil_right, distance_nil_right]
    exact Nat.le_refl _
  | cons b t =>
    rw [distance_cons_cons]
    omega

/-- And so is inserting one. -/
theorem distance_cons_right_le : distance s (b :: t) ≤ distance s t + 1 := by
  cases s with
  | nil =>
    rw [distance_nil_left, distance_nil_left]
    exact Nat.le_refl _
  | cons a s =>
    rw [distance_cons_cons]
    omega

theorem distance_le_cons_left : distance s t ≤ distance (a :: s) t + 1 := by
  induction t with
  | nil =>
    rw [distance_nil_right, distance_nil_right, List.length_cons]
    omega
  | cons b t ih =>
    -- whichever way the distance from `a :: s` comes about
    have hright := distance_cons_right_le s t b
    rw [distance_cons_cons]
    omega

theorem distance_le_replace (c : α) : distance (a :: s) t ≤ distance (c :: s) t + 1 := by
  induction t with
  | nil =>
    rw [distance_nil_right, distance_nil_right, List.length_cons, List.length_cons]
    omega
  | cons b t ih =>
    rw [distance_cons_cons, distance_cons_cons]
    split <;> split <;> omega

end Recursion

section Least

variable {s s' t : List α} {n : Nat}

/-- What holds of the ends of two texts holds of the texts, if they start in the same way. -/
theorem distance_append_le (h : ∀ t, distance s t ≤ distance s' t + 1) (u : List α) :
    ∀ t, distance (u ++ s) t ≤ distance (u ++ s') t + 1 := by
  induction u with
  | nil => exact h
  | cons a u ih =>
    intro t
    induction t with
    | nil =>
      have hnil := ih []
      rw [distance_nil_right, distance_nil_right] at hnil ⊢
      rw [List.cons_append, List.cons_append, List.length_cons, List.length_cons]
      omega
    | cons b t iht =>
      have hskip := ih t
      have hdelete := ih (b :: t)
      rw [List.cons_append, List.cons_append] at iht ⊢
      rw [distance_cons_cons, distance_cons_cons]
      omega

/-- An edit brings a text at most one step closer to another. -/
theorem distance_le_of_edit (h : Edit s s') (t : List α) : distance s t ≤ distance s' t + 1 := by
  cases h with
  | insert u v c => exact distance_append_le (fun t => distance_le_cons_left v t c) u t
  | delete u v c => exact distance_append_le (fun t => distance_cons_left_le v t c) u t
  | replace u v b c => exact distance_append_le (fun t => distance_le_replace v t b c) u t

theorem distance_le_of_edits (h : Edits n s t) : distance s t ≤ n := by
  induction h with
  | refl s => exact Nat.le_of_eq (distance_self s)
  | cons first _ ih => exact Nat.le_trans (distance_le_of_edit first _) (Nat.succ_le_succ ih)

/-- The distance is enough: the recursion says which edit comes next. -/
theorem edits_distance (s t : List α) : Edits (distance s t) s t := by
  fun_induction distance s t with
  | case1 t => exact edits_nil_left t
  | case2 s _ => exact (edits_nil_left s).symm
  | case3 a s b t hmatch hdelete hinsert =>
    rcases Nat.le_total (distance s t + if a = b then 0 else 1)
      (min (distance s (b :: t) + 1) (distance (a :: s) t + 1)) with hle | hle
    · rw [Nat.min_eq_left hle]
      by_cases hab : a = b
      · subst hab
        rw [if_pos rfl]
        exact hmatch.cons_cons a
      · rw [if_neg hab]
        exact .cons (.replace [] s a b) (hmatch.cons_cons b)
    · rw [Nat.min_eq_right hle]
      rcases Nat.le_total (distance s (b :: t) + 1) (distance (a :: s) t + 1) with hle | hle
      · rw [Nat.min_eq_left hle]
        exact .cons (.delete [] s a) hdelete
      · rw [Nat.min_eq_right hle]
        exact .cons (.insert [] (a :: s) b) (hinsert.cons_cons b)

theorem distance_le_iff : distance s t ≤ n ↔ ∃ k ≤ n, Edits k s t := by
  constructor
  · intro h
    exact ⟨distance s t, h, edits_distance s t⟩
  · rintro ⟨k, hk, hedits⟩
    exact Nat.le_trans (distance_le_of_edits hedits) hk

/-- The distance is the least number of edits that turn one text into the other. -/
theorem isLeast_distance (s t : List α) : IsLeast {n | Edits n s t} (distance s t) :=
  ⟨edits_distance s t, fun _ h => distance_le_of_edits h⟩

theorem distance_comm (s t : List α) : distance s t = distance t s :=
  Nat.le_antisymm (distance_le_of_edits (edits_distance t s).symm)
    (distance_le_of_edits (edits_distance s t).symm)

theorem distance_reverse (s t : List α) : distance s.reverse t.reverse = distance s t := by
  apply Nat.le_antisymm
  · exact distance_le_of_edits (edits_distance s t).reverse
  · have h := (edits_distance s.reverse t.reverse).reverse
    rw [List.reverse_reverse, List.reverse_reverse] at h
    exact distance_le_of_edits h

theorem distance_eq_zero_iff : distance s t = 0 ↔ s = t := by
  constructor
  · intro h
    have hedits := edits_distance s t
    rw [h] at hedits
    exact edits_zero_iff.mp hedits
  · rintro rfl
    exact distance_self s

end Least

/-! ### The ends of the texts -/

section Ends

variable (s t : List α) {a b : α}

/-- A character that both texts start with is best kept. -/
theorem distance_cons_self (a : α) : distance (a :: s) (a :: t) = distance s t := by
  have hleft := distance_le_cons_left s t a
  have hright := distance_le_cons_left t s a
  rw [distance_comm t, distance_comm (a :: t)] at hright
  rw [distance_cons_cons, if_pos rfl]
  omega

theorem distance_concat (s t : List α) (a b : α) :
    distance (s ++ [a]) (t ++ [b]) = distance (a :: s.reverse) (b :: t.reverse) := by
  rw [← distance_reverse, List.reverse_append, List.reverse_append, List.reverse_singleton,
    List.reverse_singleton, List.singleton_append, List.singleton_append]

theorem distance_concat_self (a : α) : distance (s ++ [a]) (t ++ [a]) = distance s t := by
  rw [distance_concat, distance_cons_self, distance_reverse]

theorem distance_concat_of_ne (h : a ≠ b) :
    distance (s ++ [a]) (t ++ [b]) =
      1 + min (distance s t) (min (distance s (t ++ [b])) (distance (s ++ [a]) t)) := by
  have hdelete : distance s.reverse (b :: t.reverse) = distance s (t ++ [b]) := by
    rw [← distance_reverse s, List.reverse_append, List.reverse_singleton, List.singleton_append]
  have hinsert : distance (a :: s.reverse) t.reverse = distance (s ++ [a]) t := by
    rw [← distance_reverse _ t, List.reverse_append, List.reverse_singleton, List.singleton_append]
  rw [distance_concat, distance_cons_cons, if_neg h, distance_reverse, hdelete, hinsert]
  omega

end Ends

end LittleMan.Text
