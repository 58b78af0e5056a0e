/-
A negative accumulator is never zero.

The flag tells that the last sum or difference was below zero; what the accumulator keeps of it is
the remainder modulo a thousand. A word taken from a number that is not negative leaves more than
-1000, and so a remainder that is not zero. A state set up by hand need not keep to this: it may have
the flag set beside a zero, or start from -1000.

* `Machine.Signed`: the invariant;
* `signed_of_move`, `signed_step`, `signed_run`: instructions, steps and runs keep it in any world;
* `Machine.takes_brz_iff`, `Machine.takes_brp_iff`: when a branch is taken;
* `accumulator_pos_of_negative`: so the flag excludes zero in all that steps and runs lead to, and
  where a branch on zero is taken, one on no flag is taken too.
-/
import LittleMan.Opcode
import LittleMan.Proofs.Run
namespace LittleMan

namespace Machine

/-- The accumulator is not below zero, and beside the flag it is not zero. -/
structure Signed (m : Machine) : Prop where
  nonneg : 0 ≤ m.accumulator
  pos : m.negative = true → 1 ≤ m.accumulator

variable {m : Machine}

theorem signed_of_clear (hclear : m.negative = false) (h : 0 ≤ m.accumulator) : m.Signed :=
  ⟨h, fun hset => absurd (hclear.symm.trans hset) (by simp)⟩

/-! ### Instructions -/

/-- Only memory and counter are other ones. -/
theorem Signed.of_eq {n : Machine} (h : m.Signed) (ha : n.accumulator = m.accumulator)
    (hn : n.negative = m.negative) : n.Signed := by
  refine ⟨?_, fun hset => ?_⟩
  · rw [ha]
    exact h.nonneg
  · rw [ha]
    exact h.pos (hn ▸ hset)

/-- A result less than a thousand below zero leaves a remainder. -/
theorem signed_setAccumulator {v : Int} (hv : -1000 < v) : (m.setAccumulator v).Signed := by
  rw [setAccumulator_eq]
  refine ⟨?_, fun hset => ?_⟩
  · show 0 ≤ v % 1000
    omega
  · have hneg : v < 0 := of_decide_eq_true hset
    show 1 ≤ v % 1000
    omega

theorem signed_of_move (h : m.Signed) {next : Machine} (he : m.effect = .move next) :
    next.Signed := by
  have hacc := h.nonneg
  cases moves_of_effect he with
  | sum w => exact signed_setAccumulator (by omega)
  | difference w =>
    have hw := w.isLt
    exact signed_setAccumulator (by omega)
  | load w => exact signed_of_clear rfl (Int.natCast_nonneg _)
  | store memory => exact h.of_eq rfl rfl
  | jump a => exact h.of_eq rfl rfl
  | next => exact h.of_eq rfl rfl

/-! ### Branches -/

/-- The machine with another word in the box that comes next. -/
def facing (m : Machine) (w : Word) : Machine :=
  { m with memory := m.memory.set (Address.wrap m.pc) w }

theorem fetched_facing (m : Machine) (w : Word) : (m.facing w).fetched = w := by
  show (m.memory.set (Address.wrap m.pc) w).read m.pc = w
  rw [Memory.read_set, if_pos rfl]

/-- A branch of this kind would be taken: wherever it points to, the machine goes on there. -/
def Takes (m : Machine) (o : Opcode) : Prop :=
  ∀ a : Address, ∃ next, (m.facing (o.wordAt a)).effect = .move next ∧ next.pc = a.val

/-- A branch that depends on a condition is taken if the condition holds. -/
theorem takes_iff {o : Opcode} {c : Prop} [Decidable c]
    (he : ∀ a : Address, ∃ next, (m.facing (o.wordAt a)).effect = .move next ∧
      next.pc = if c then (a.val : Int) else m.advanced.pc) : m.Takes o ↔ c := by
  constructor
  · intro htakes
    -- a box that is not the next one tells a jump from going on
    obtain ⟨next, hnext, hpc⟩ := he (Address.wrap (m.advanced.pc + 1))
    obtain ⟨next', hnext', hpc'⟩ := htakes (Address.wrap (m.advanced.pc + 1))
    obtain rfl := Effect.move.inj (hnext.symm.trans hnext')
    have ha := Address.wrap_val (m.advanced.pc + 1)
    have hadv := counter_advanced m
    by_cases hc : c
    · exact hc
    · rw [if_neg hc] at hpc
      omega
  · intro hc a
    obtain ⟨next, hnext, hpc⟩ := he a
    exact ⟨next, hnext, by rw [hpc, if_pos hc]⟩

theorem takes_brz_iff (m : Machine) : m.Takes .brz ↔ m.accumulator = 0 := by
  refine takes_iff fun a => ?_
  have ha := a.isLt
  have hw : (m.facing (Opcode.brz.wordAt a)).fetched.val = 700 + a.val := by
    rw [fetched_facing, Opcode.wordAt_val rfl]
    rfl
  have hdigit : (700 + a.val) / 100 = 7 := by omega
  have hoperand : (700 + a.val) % 100 = a.val := by omega
  refine ⟨_, by simp only [effect, hw, hdigit, hoperand]; rfl, ?_⟩
  show Machine.pc (if m.accumulator = 0 then _ else _) = _
  split <;> rfl

theorem takes_brp_iff (m : Machine) : m.Takes .brp ↔ m.negative = false := by
  refine takes_iff fun a => ?_
  have ha := a.isLt
  have hw : (m.facing (Opcode.brp.wordAt a)).fetched.val = 800 + a.val := by
    rw [fetched_facing, Opcode.wordAt_val rfl]
    rfl
  have hdigit : (800 + a.val) / 100 = 8 := by omega
  have hoperand : (800 + a.val) % 100 = a.val := by omega
  refine ⟨_, by simp only [effect, hw, hdigit, hoperand]; rfl, ?_⟩
  show Machine.pc (if m.negative = true then _ else _) = _
  cases m.negative <;> rfl

end Machine

/-! ### Steps and runs -/

variable {σ ε : Type} {b : Boundary σ ε} {s t : Execution σ}

theorem signed_step (h : s.machine.Signed) : (step b s).2.machine.Signed := by
  have hadv : s.machine.advanced.Signed := h.of_eq rfl rfl
  have hr := stepped_step b s
  generalize step b s = r at hr ⊢
  cases hr with
  | move he => exact Machine.signed_of_move h he
  | input he hb hv => exact Machine.signed_of_clear rfl (isWord_iff.mp hv).1
  | _ => exact hadv

/-- A run keeps the sign, also when it ends with an error. -/
theorem signed_run (patience : Nat) (budget : Option Int) (h : s.machine.Signed) :
    (run b patience budget s).2.machine.Signed :=
  advance_keeps (p := fun t => t.machine.Signed) (fun _ ht => signed_step ht) _ h

/-- What steps and runs make of an execution, one after the other. Each may meet another boundary,
and each may fail. -/
inductive Execution.Reaches (s : Execution σ) : Execution σ → Prop where
  | start : Reaches s s
  | step {t : Execution σ} (h : Reaches s t) {ε : Type} (b : Boundary σ ε) :
      Reaches s (step b t).2
  | run {t : Execution σ} (h : Reaches s t) {ε : Type} (b : Boundary σ ε) (patience : Nat)
      (budget : Option Int) : Reaches s (run b patience budget t).2

theorem signed_of_reaches (hs : s.machine.Signed) (h : s.Reaches t) : t.machine.Signed := by
  induction h with
  | start => exact hs
  | step _ b ih => exact signed_step ih
  | run _ b patience budget ih => exact signed_run patience budget ih

/-- From a machine with the flag clear, as a fresh machine has it and one that was reset, steps and
runs lead only to machines whose accumulator is not zero if the flag is set; so wherever a branch on
zero is taken, a branch on no flag is taken too. -/
theorem accumulator_pos_of_negative (hclear : s.machine.negative = false)
    (hacc : 0 ≤ s.machine.accumulator) (h : s.Reaches t) :
    (t.machine.negative = true → 1 ≤ t.machine.accumulator) ∧
      (t.machine.Takes .brz → t.machine.Takes .brp) := by
  have hsigned := signed_of_reaches (Machine.signed_of_clear hclear hacc) h
  refine ⟨hsigned.pos, fun hzero => ?_⟩
  rw [Machine.takes_brz_iff] at hzero
  rw [Machine.takes_brp_iff, Bool.eq_false_iff]
  intro hset
  have hpos := hsigned.pos hset
  omega

/-- The flag is set beside a zero, as nothing but a snapshot can bring it about; after a reset, one is
subtracted from zero. -/
def signedZero : Execution Tape :=
  { machine := { memory := .ofWords [Word.wrap 202, Word.wrap 800, Word.wrap 1], pc := 50,
                 negative := true }
    world := {} }

theorem accumulator_pos_after_reset :
    ∃ t, Execution.Reaches { signedZero with machine := signedZero.machine.reset } t ∧
      t.machine.negative = true ∧ t.machine.accumulator = 999 ∧ 1 ≤ t.machine.accumulator := by
  let start : Execution Tape := { signedZero with machine := signedZero.machine.reset }
  have hreaches : start.Reaches (step Tape.checked start).2 := .step .start Tape.checked
  have hset : (step Tape.checked start).2.machine.negative = true := by decide +kernel
  refine ⟨_, hreaches, hset, by decide +kernel, ?_⟩
  exact (accumulator_pos_of_negative rfl (Int.le_refl 0) hreaches).1 hset

end LittleMan
