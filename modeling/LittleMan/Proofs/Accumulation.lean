/-
What the accumulator keeps of any integers.

A value below zero is brought back by adding thousands one after the other. How often that is done,
and what is left in the end, is told here by itself (`Lifted`), so that the adding comes to an end
from every integer, however far below zero. Since the remainders modulo a thousand are kept, sums
that go round one after the other come to what the whole sum would, and only the flag depends on the
last of them alone.

* `Lifted`: a number of thousands lifts a value to zero or above, and no fewer do;
* `lifted_iff`: what number that is for any integer, and that the function finds the result;
* `Machine.addAll`: one number after the other is added to the accumulator;
* `emod_accumulator_addAll`: the remainder of the sum is kept;
* `accumulation_exact`: any integer, and any row of sums.
-/
import LittleMan.Machine
import Mathlib.Algebra.Ring.Int.Defs
namespace LittleMan

/-! ### Thousands -/

/-- `Lifted v n r`: from `v`, a thousand is added `n` times, each time to a value below zero, and
what comes out is `r`, which is not below zero. -/
inductive Lifted : Int → Nat → Int → Prop where
  | done {v : Int} (h : 0 ≤ v) : Lifted v 0 v
  | again {v r : Int} {n : Nat} (h : v < 0) (hrest : Lifted (v + 1000) n r) : Lifted v (n + 1) r

section Lifted

variable {v r : Int} {n : Nat}

theorem Lifted.count_eq (h : Lifted v n r) : n = ((999 - v) / 1000).toNat := by
  induction h with
  | done h => omega
  | again h _ ih => omega

theorem Lifted.liftNegative_eq (h : Lifted v n r) : liftNegative v = r := by
  induction h with
  | done h => rw [liftNegative, if_neg (Int.not_lt.mpr h)]
  | again h _ ih => rw [liftNegative, if_pos h, ih]

/-- The adding comes to an end from every integer. -/
theorem exists_lifted (v : Int) : ∃ n, Lifted v n (liftNegative v) := by
  fun_induction liftNegative v with
  | case1 v h ih =>
    obtain ⟨n, hn⟩ := ih
    exact ⟨n + 1, .again h hn⟩
  | case2 v h => exact ⟨0, .done (Int.not_lt.mp h)⟩

theorem lifted_iff : Lifted v n r ↔ n = ((999 - v) / 1000).toNat ∧ r = liftNegative v := by
  constructor
  · intro h
    exact ⟨h.count_eq, h.liftNegative_eq.symm⟩
  · rintro ⟨rfl, rfl⟩
    obtain ⟨n, hn⟩ := exists_lifted v
    rwa [← hn.count_eq]

end Lifted

/-! ### Sums one after the other -/

namespace Machine

/-- Adds one number after the other to what the accumulator holds. -/
def addAll (m : Machine) (ds : List Int) : Machine :=
  ds.foldl (fun m d => m.setAccumulator (m.accumulator + d)) m

theorem addAll_cons (m : Machine) (d : Int) (ds : List Int) :
    m.addAll (d :: ds) = (m.setAccumulator (m.accumulator + d)).addAll ds :=
  rfl

theorem addAll_concat (m : Machine) (ds : List Int) (d : Int) :
    m.addAll (ds ++ [d]) = (m.addAll ds).setAccumulator ((m.addAll ds).accumulator + d) := by
  rw [addAll, List.foldl_append]
  rfl

/-- Each sum keeps the remainder, so the last has that of them all. -/
theorem emod_accumulator_addAll (m : Machine) (ds : List Int) :
    (m.addAll ds).accumulator % 1000 = (m.accumulator + ds.sum) % 1000 := by
  induction ds generalizing m with
  | nil => rw [List.sum_nil, Int.add_zero]; rfl
  | cons d ds ih =>
    rw [addAll_cons, ih, setAccumulator_eq, List.sum_cons]
    show ((m.accumulator + d) % 1000 + ds.sum) % 1000 = _
    omega

/-- Sums leave everything else alone. -/
theorem kept_addAll (m : Machine) (ds : List Int) :
    (m.addAll ds).memory = m.memory ∧ (m.addAll ds).pc = m.pc := by
  induction ds generalizing m with
  | nil => exact ⟨rfl, rfl⟩
  | cons d ds ih =>
    rw [addAll_cons]
    exact ih (m.setAccumulator (m.accumulator + d))

end Machine

/-- **The accumulator.** For every integer the adding of thousands comes to its end, after one number
of rounds and with one result, and what is kept of the integer is its remainder modulo a thousand,
from 0 to 999, and whether it was negative. So after any row of sums that is not empty, over a machine
in any state, the accumulator holds the remainder of what it held before with all the numbers, the
flag tells whether the last sum was negative before it was brought back, and nothing else has
changed. -/
theorem accumulation_exact :
    (∀ v : Int,
      (∀ n r, Lifted v n r ↔ n = ((999 - v) / 1000).toNat ∧ r = liftNegative v) ∧
      normalize v = (v % 1000, decide (v < 0)) ∧ 0 ≤ v % 1000 ∧ v % 1000 ≤ 999) ∧
    ∀ (m : Machine) (ds : List Int) (d : Int),
      m.addAll (ds ++ [d]) =
        { m with
          accumulator := (m.accumulator + (ds ++ [d]).sum) % 1000
          negative := decide ((m.addAll ds).accumulator + d < 0) } := by
  constructor
  · intro v
    refine ⟨fun n r => lifted_iff, normalize_eq v, ?_, ?_⟩
    · omega
    · omega
  · intro m ds d
    have hsum := m.emod_accumulator_addAll ds
    obtain ⟨hmemory, hpc⟩ := m.kept_addAll ds
    have htotal : ((m.addAll ds).accumulator + d) % 1000 =
        (m.accumulator + (ds ++ [d]).sum) % 1000 := by
      rw [List.sum_append, List.sum_singleton]
      omega
    rw [m.addAll_concat, Machine.setAccumulator_eq, htotal, hmemory, hpc]

/-- Whole thousands below zero leave a zero, and the flag. -/
example : (Machine.addAll { accumulator := 7 } [1995, -2002, -1000]).accumulator = 0 ∧
    (Machine.addAll { accumulator := 7 } [1995, -2002, -1000]).negative = true := by
  decide +kernel

end LittleMan
