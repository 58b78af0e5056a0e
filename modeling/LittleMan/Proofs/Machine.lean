/-
What an instruction does to a machine.

* `Machine.Moves`, `Machine.moves_of_effect`: what an instruction that needs no world can do;
* `Machine.inRange_of_move`: it keeps the registers in range;
* `Machine.effect_ne_spill`: in a machine in range, what is stored always fits;
* `Machine.counter_of_move`: an instruction leaves the counter at a box;
* `Machine.effect_eq_halt_iff`, `Machine.effect_eq_fault_iff`, `Machine.effect_eq_input_iff`,
  `Machine.effect_eq_output_iff`: which words halt the machine, are no instruction, ask for a
  number, or write one;
* `hasText_of_isWord`, `Machine.InRange.hasText`: words, and the registers of a machine in range,
  have a text.
-/
import LittleMan.Run
namespace LittleMan

theorem hasText_of_isWord {v : Int} (h : isWord v = true) : Text.HasText v := by
  have hv := isWord_iff.mp h
  exact Text.hasText_of_natAbs_lt (by omega)

namespace Machine

variable {m : Machine}

theorem inRange_advanced (h : m.InRange) : m.advanced.InRange := by
  have hpc := (Address.wrap (m.pc + 1)).isLt
  refine ⟨⟨?_, ?_⟩, h.2⟩
  · show (0 : Int) ≤ ((Address.wrap (m.pc + 1)).val : Int)
    omega
  · show ((Address.wrap (m.pc + 1)).val : Int) ≤ 99
    omega

theorem inRange_setAccumulator (h : m.InRange) (v : Int) : (m.setAccumulator v).InRange := by
  rw [setAccumulator_eq]
  refine ⟨h.1, ?_, ?_⟩
  · show 0 ≤ v % 1000
    omega
  · show v % 1000 ≤ 999
    omega

theorem inRange_reset (m : Machine) : m.reset.InRange := by
  refine ⟨?_, ?_⟩ <;> simp [reset]

theorem InRange.hasText (h : m.InRange) : Text.HasText m.pc ∧ Text.HasText m.accumulator := by
  obtain ⟨hpc, haccumulator⟩ := h
  exact ⟨Text.hasText_of_natAbs_lt (by omega), Text.hasText_of_natAbs_lt (by omega)⟩

/-- Memory has no part in it. -/
theorem inRange_of_registers {n : Machine} (h : m.InRange) (hpc : n.pc = m.pc)
    (ha : n.accumulator = m.accumulator) : n.InRange := by
  rw [InRange, hpc, ha]
  exact h

theorem inRange_withCounter (h : m.InRange) {pc : Int} (h0 : 0 ≤ pc) (h99 : pc ≤ 99) :
    ({ m with pc } : Machine).InRange := ⟨⟨h0, h99⟩, h.2⟩

theorem inRange_withAccumulator (h : m.InRange) {v : Int} (hv : isWord v = true)
    (negative : Bool) : ({ m with accumulator := v, negative } : Machine).InRange :=
  ⟨h.1, isWord_iff.mp hv⟩

theorem isWord_val (w : Word) : isWord (w.val : Int) = true := by
  rw [isWord_iff]
  omega

theorem write_of_isWord (memory : Memory) (a : Int) {v : Int} (h : isWord v = true) :
    ∃ w : Word, (w.val : Int) = v ∧ memory.write a v = .ok (memory.set (Address.wrap a) w) := by
  have hv := isWord_iff.mp h
  refine ⟨⟨v.toNat, by omega⟩, Int.toNat_of_nonneg hv.1, ?_⟩
  rw [Memory.write, Word.ofInt?, dif_pos hv]

/-- What an instruction that needs no world makes of a machine: the counter goes on or jumps, and at
most one of memory and accumulator takes something new. -/
inductive Moves (m : Machine) : Machine → Prop where
  | sum (w : Word) : Moves m (m.advanced.setAccumulator (m.accumulator + w.val))
  | difference (w : Word) : Moves m (m.advanced.setAccumulator (m.accumulator - w.val))
  | store (memory : Memory) : Moves m { m.advanced with memory }
  | load (w : Word) : Moves m { m.advanced with accumulator := w.val, negative := false }
  | jump (a : Address) : Moves m { m.advanced with pc := a.val }
  | next : Moves m m.advanced

theorem moves_of_effect {next : Machine} (he : m.effect = .move next) : m.Moves next := by
  have hjump : m.Moves { m.advanced with pc := ((m.fetched.val % 100 : Nat) : Int) } :=
    .jump ⟨m.fetched.val % 100, by omega⟩
  simp only [effect] at he
  -- one case for each hundreds digit
  split at he
  · exact absurd he (by simp)
  · rw [← Effect.move.inj he]
    exact .sum _
  · rw [← Effect.move.inj he]
    exact .difference _
  · split at he
    · rw [← Effect.move.inj he]
      exact .store _
    · exact absurd he (by simp)
  · rw [← Effect.move.inj he]
    exact .load _
  · rw [← Effect.move.inj he]
    exact hjump
  · rw [← Effect.move.inj he]
    split
    · exact hjump
    · exact .next
  · rw [← Effect.move.inj he]
    split
    · exact .next
    · exact hjump
  · split at he
    · exact absurd he (by simp)
    · split at he <;> exact absurd he (by simp)
  · exact absurd he (by simp)

/-- In a machine in range, what is stored always fits. -/
theorem effect_ne_spill (h : m.InRange) (e : Memory.Error) : m.effect ≠ .spill e := by
  obtain ⟨w, _, hw⟩ := write_of_isWord m.memory ((m.fetched.val % 100 : Nat) : Int)
    (isWord_iff.mpr h.2)
  intro he
  simp only [effect, hw] at he
  repeat' split at he
  all_goals exact absurd he (by simp)

/-- An instruction that needs no world leaves the registers in range. -/
theorem inRange_of_move (h : m.InRange) {next : Machine} (he : m.effect = .move next) :
    next.InRange := by
  have hadv := inRange_advanced h
  cases moves_of_effect he with
  | sum w => exact inRange_setAccumulator hadv _
  | difference w => exact inRange_setAccumulator hadv _
  | store memory => exact inRange_of_registers hadv rfl rfl
  | load w => exact inRange_withAccumulator hadv (isWord_val w) false
  | jump a =>
    have ha := a.isLt
    exact inRange_withCounter hadv (Int.natCast_nonneg _) (by omega)
  | next => exact hadv

theorem inRange_of_ofImage {words : List Int} (h : ofImage words = .ok m) : m.InRange := by
  rw [ofImage] at h
  split at h
  · exact absurd h (by simp)
  · split at h
    · rw [← Except.ok.inj h]
      refine ⟨?_, ?_⟩ <;> simp
    · exact absurd h (by simp)

/-! ### The counter -/

theorem counter_advanced (m : Machine) : 0 ≤ m.advanced.pc ∧ m.advanced.pc ≤ 99 := by
  have hpc := (Address.wrap (m.pc + 1)).isLt
  show (0 : Int) ≤ ((Address.wrap (m.pc + 1)).val : Int) ∧
    ((Address.wrap (m.pc + 1)).val : Int) ≤ 99
  omega

/-- Wherever the counter was, an instruction leaves it at a box. -/
theorem counter_of_move {next : Machine} (he : m.effect = .move next) :
    0 ≤ next.pc ∧ next.pc ≤ 99 := by
  have hadv := counter_advanced m
  cases moves_of_effect he with
  | jump a =>
    have ha := a.isLt
    show (0 : Int) ≤ (a.val : Int) ∧ (a.val : Int) ≤ 99
    omega
  | _ => exact hadv

/-! ### Which words halt, ask or write -/

theorem effect_eq_halt_iff : m.effect = .halt ↔ m.fetched.val < 100 := by
  constructor
  · intro h
    simp only [effect] at h
    split at h
    case h_1 hdigit => omega
    all_goals repeat' split at h
    all_goals exact absurd h (by simp)
  · intro h
    have hdigit : m.fetched.val / 100 = 0 := by omega
    simp only [effect, hdigit]

/-- The words that are no instruction. -/
theorem effect_eq_fault_iff : m.effect = .fault ↔
    400 ≤ m.fetched.val ∧ m.fetched.val ≤ 499 ∨ m.fetched.val = 900 ∨ 903 ≤ m.fetched.val := by
  have hlt := m.fetched.isLt
  constructor
  · intro h
    simp only [effect] at h
    split at h
    case h_9 hdigit =>
      split at h
      · exact absurd h (by simp)
      · split at h
        · exact absurd h (by simp)
        · omega
    case h_10 _ h0 h1 h2 h3 h5 h6 h7 h8 h9 =>
      simp only [imp_false] at h0 h1 h2 h3 h5 h6 h7 h8 h9
      omega
    all_goals repeat' split at h
    all_goals exact absurd h (by simp)
  · intro h
    rcases h with ⟨h400, h499⟩ | h
    · have hdigit : m.fetched.val / 100 = 4 := by omega
      simp only [effect, hdigit]
    · have hdigit : m.fetched.val / 100 = 9 := by omega
      simp only [effect, hdigit]
      rw [if_neg (by omega), if_neg (by omega)]

theorem effect_eq_input_iff : m.effect = .input ↔ m.fetched.val = 901 := by
  constructor
  · intro h
    simp only [effect] at h
    split at h
    case h_9 hdigit =>
      split at h
      · omega
      · split at h <;> exact absurd h (by simp)
    all_goals repeat' split at h
    all_goals exact absurd h (by simp)
  · intro h
    simp only [effect, h, Nat.reduceDiv, Nat.reduceMod]
    rfl

theorem effect_eq_output_iff : m.effect = .output ↔ m.fetched.val = 902 := by
  constructor
  · intro h
    simp only [effect] at h
    split at h
    case h_9 hdigit =>
      split at h
      · exact absurd h (by simp)
      · split at h
        · omega
        · exact absurd h (by simp)
    all_goals repeat' split at h
    all_goals exact absurd h (by simp)
  · intro h
    simp only [effect, h, Nat.reduceDiv, Nat.reduceMod]
    rfl

end Machine

end LittleMan
