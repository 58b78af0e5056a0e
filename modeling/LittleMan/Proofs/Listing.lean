/-
The listing and the machine read words alike.

A listing subtracts the operand from a word and looks up what is left; the machine goes by the
hundreds digit. `Word.cases` says into what kinds the words fall, and for each kind both are
evaluated.

* `Prescribes`: the instruction set, as a relation between an instruction with its operand, the
  execution before it and what the step makes of it;
* `prescribes_step`: a step does what the instruction shown in the listing prescribes;
* `foretells_step`: the same with the cases in which the machine stops.
-/
import LittleMan.Listing
import LittleMan.Proofs.Run
namespace LittleMan

open Listing

/-! ### Kinds of words -/

theorem Opcode.ofBase?_base {o : Opcode} (h : o.takesTag = true) : ofBase? o.base = some o := by
  revert h
  cases o <;> decide

/-- Every word is a halt, refers to a box, is one of the two transfers, or says nothing. -/
theorem Word.cases (w : Word) :
    w.val < 100 ∨ (∃ (o : Opcode) (a : Address), o.takesTag = true ∧ w.val = o.base + a.val) ∨
      w.val = 901 ∨ w.val = 902 ∨
      (w.val / 100 = 4 ∨ w.val / 100 = 9) ∧ w.val ≠ 901 ∧ w.val ≠ 902 := by
  have hw := w.isLt
  have hrefers : ∀ o : Opcode, o.takesTag = true → w.val / 100 * 100 = o.base →
      ∃ (o : Opcode) (a : Address), o.takesTag = true ∧ w.val = o.base + a.val :=
    fun o ho hb => ⟨o, ⟨w.val % 100, by omega⟩, ho, by dsimp only; omega⟩
  have hdigit : w.val / 100 = 0 ∨ w.val / 100 = 1 ∨ w.val / 100 = 2 ∨ w.val / 100 = 3 ∨
      w.val / 100 = 4 ∨ w.val / 100 = 5 ∨ w.val / 100 = 6 ∨ w.val / 100 = 7 ∨ w.val / 100 = 8 ∨
      w.val / 100 = 9 := by omega
  -- the digits 4 and 9 are the ones that no base of a reference starts with
  rcases hdigit with h | h | h | h | h | h | h | h | h | h
  · left
    omega
  · exact .inr (.inl (hrefers .add rfl (by rw [h]; rfl)))
  · exact .inr (.inl (hrefers .sub rfl (by rw [h]; rfl)))
  · exact .inr (.inl (hrefers .sto rfl (by rw [h]; rfl)))
  · right; right; right; right
    omega
  · exact .inr (.inl (hrefers .lda rfl (by rw [h]; rfl)))
  · exact .inr (.inl (hrefers .br rfl (by rw [h]; rfl)))
  · exact .inr (.inl (hrefers .brz rfl (by rw [h]; rfl)))
  · exact .inr (.inl (hrefers .brp rfl (by rw [h]; rfl)))
  · right; right
    omega

namespace Listing.Line

variable (tags : TagTable) {w : Word} (address : Option Int)

/-- A reference to a box shows with its mnemonic and the box. -/
theorem ofWord_of_takesTag {o : Opcode} (h : o.takesTag = true) {a : Address}
    (hw : w.val = o.base + a.val) :
    ofWord tags w.val address =
      { word := w.val, opcode := some o, operand := some (a.val : Int)
        operandText := tags.render a.val, address, label := address.bind tags.nameAt? } := by
  obtain ⟨hmod, hlow, hhigh⟩ := Opcode.base_of_takesTag h
  have ha := a.isLt
  have hoperand : (w.val : Int) % 100 = a.val := by omega
  have hbase : (w.val : Int) - (a.val : Int) = o.base := by omega
  rw [ofWord]
  dsimp only
  rw [if_neg (by omega), if_neg (by omega), if_neg (by omega), hoperand, hbase,
    Opcode.ofBase?_base h]

/-- A word below a hundred shows as a halt, with what it is as data. -/
theorem ofWord_of_lt (h : w.val < 100) :
    ofWord tags w.val address =
      { word := w.val, opcode := some .hlt, address, label := address.bind tags.nameAt?
        comment := if (w.val : Int) = 0 then "" else "DAT " ++ Text.padded 3 w.val } := by
  rw [ofWord]
  dsimp only
  rw [if_neg (by omega), if_neg (by omega), if_pos (by omega)]

theorem ofWord_of_input (h : w.val = 901) :
    ofWord tags w.val address =
      { word := w.val, opcode := some .inp, address, label := address.bind tags.nameAt? } := by
  rw [ofWord]
  dsimp only
  rw [if_pos (by omega)]

theorem ofWord_of_output (h : w.val = 902) :
    ofWord tags w.val address =
      { word := w.val, opcode := some .out, address, label := address.bind tags.nameAt? } := by
  rw [ofWord]
  dsimp only
  rw [if_neg (by omega), if_pos (by omega)]

theorem ofWord_of_unknown (h : w.val / 100 = 4 ∨ w.val / 100 = 9) (hi : w.val ≠ 901)
    (ho : w.val ≠ 902) :
    (ofWord tags w.val address).opcode = none := by
  have hnone : Opcode.ofBase? ((w.val : Int) - (w.val : Int) % 100) = none := by
    have hbase : (w.val : Int) - (w.val : Int) % 100 = 400 ∨
        (w.val : Int) - (w.val : Int) % 100 = 900 := by omega
    rcases hbase with hb | hb <;> rw [hb] <;> decide
  rw [ofWord]
  dsimp only
  rw [if_neg (by omega), if_neg (by omega), if_neg (by omega), hnone]

end Listing.Line

/-! ### The instruction set -/

variable {σ ε : Type}

/-- What an instruction, shown with its operand, makes of an execution, and whether the step
succeeds. What is not named stays as it was. -/
inductive Prescribes (b : Boundary σ ε) (s : Execution σ) :
    Option Opcode → Option Int → Except (StepError ε) Unit × Execution σ → Prop where
  | add {a : Int} : Prescribes b s (some .add) (some a)
      (.ok (), s.moved { s.machine with
        pc := (s.machine.pc + 1) % 100
        accumulator := (s.machine.accumulator + (s.machine.memory.read a).val) % 1000
        negative := decide (s.machine.accumulator + (s.machine.memory.read a).val < 0) } s.world)
  | sub {a : Int} : Prescribes b s (some .sub) (some a)
      (.ok (), s.moved { s.machine with
        pc := (s.machine.pc + 1) % 100
        accumulator := (s.machine.accumulator - (s.machine.memory.read a).val) % 1000
        negative := decide (s.machine.accumulator - (s.machine.memory.read a).val < 0) } s.world)
  | sto {a : Int} {memory : Memory} (hcell : ((memory.read a).val : Int) = s.machine.accumulator)
      (hframe : ∀ c, c ≠ Address.wrap a → memory.get c = s.machine.memory.get c) :
      Prescribes b s (some .sto) (some a)
        (.ok (), s.moved { s.machine with pc := (s.machine.pc + 1) % 100, memory } s.world)
  | lda {a : Int} : Prescribes b s (some .lda) (some a)
      (.ok (), s.moved { s.machine with
        pc := (s.machine.pc + 1) % 100
        accumulator := (s.machine.memory.read a).val
        negative := false } s.world)
  | br {a : Int} : Prescribes b s (some .br) (some a)
      (.ok (), s.moved { s.machine with pc := a } s.world)
  | brz {a : Int} : Prescribes b s (some .brz) (some a)
      (.ok (), s.moved { s.machine with
        pc := if s.machine.accumulator = 0 then a else (s.machine.pc + 1) % 100 } s.world)
  | brp {a : Int} : Prescribes b s (some .brp) (some a)
      (.ok (), s.moved { s.machine with
        pc := if s.machine.negative = false then a else (s.machine.pc + 1) % 100 } s.world)
  | inp {v : Int} {world : σ} (h : b.request s.world = (.ok v, world)) (hv : isWord v = true) :
      Prescribes b s (some .inp) none
        (.ok (), s.moved { s.machine with
          pc := (s.machine.pc + 1) % 100, accumulator := v, negative := false } world)
  /-- If the boundary refuses the number, so does the step. -/
  | out {r : Except ε Unit} {world : σ} (h : b.emit s.machine.accumulator s.world = (r, world)) :
      Prescribes b s (some .out) none
        (r.mapError .refused,
          s.moved { s.machine with pc := (s.machine.pc + 1) % 100 } world)
  | hlt : Prescribes b s (some .hlt) none
      (.ok (), { machine := { s.machine with pc := (s.machine.pc + 1) % 100 }
                 progress := { s.progress with halted := true, steps := s.progress.steps + 1 }
                 world := s.world })
  /-- The fault is recorded even if nobody wants to hear of it. -/
  | unknown {operand : Option Int} {r : Except ε Unit} {world : σ}
      (h : b.report ⟨s.machine.pc, s.machine.fetched.val⟩ s.world = (r, world)) :
      Prescribes b s none operand
        (r.mapError .refused,
          { machine := { s.machine with pc := (s.machine.pc + 1) % 100 }
            progress := { halted := true, fault := some ⟨s.machine.pc, s.machine.fetched.val⟩
                          steps := s.progress.steps + 1 }
            world })

theorem Machine.advanced_eq (m : Machine) : m.advanced = { m with pc := (m.pc + 1) % 100 } := by
  rw [advanced, Address.wrap_val]

section Prescribed

variable {b : Boundary σ ε} {s : Execution σ}

/-- Instructions that refer to a box. -/
theorem prescribes_of_takesTag (hm : s.machine.InRange) {o : Opcode} (h : o.takesTag = true)
    {a : Address} (hw : s.machine.fetched.val = o.base + a.val) :
    Prescribes b s (some o) (some (a.val : Int)) (step b s) := by
  have ha := a.isLt
  have hadv := s.machine.advanced_eq
  obtain ⟨hmod, _⟩ := Opcode.base_of_takesTag h
  have hoperand : s.machine.fetched.val % 100 = a.val := by omega
  have hdigit : s.machine.fetched.val / 100 = o.base / 100 := by omega
  cases o with
  | add =>
    have he : s.machine.effect = .move (s.machine.advanced.setAccumulator
        (s.machine.accumulator + (s.machine.memory.read a.val).val)) := by
      simp only [Machine.effect, hdigit, Opcode.base, Nat.reduceDiv, hoperand]
    rw [step_of_move he, Machine.setAccumulator_eq, hadv]
    exact .add
  | sub =>
    have he : s.machine.effect = .move (s.machine.advanced.setAccumulator
        (s.machine.accumulator - (s.machine.memory.read a.val).val)) := by
      simp only [Machine.effect, hdigit, Opcode.base, Nat.reduceDiv, hoperand]
    rw [step_of_move he, Machine.setAccumulator_eq, hadv]
    exact .sub
  | sto =>
    obtain ⟨w, hword, hwrite⟩ := Machine.write_of_isWord s.machine.memory (a.val : Int)
      (isWord_iff.mpr hm.2)
    have he : s.machine.effect = .move
        { s.machine.advanced with memory := s.machine.memory.set (Address.wrap a.val) w } := by
      simp only [Machine.effect, hdigit, Opcode.base, Nat.reduceDiv, hoperand, hwrite]
    rw [step_of_move he, hadv]
    refine .sto ?_ fun c hc => ?_
    · rw [Memory.read_set, if_pos rfl, hword]
    · rw [Memory.get_set, if_neg hc.symm]
  | lda =>
    have he : s.machine.effect = .move { s.machine.advanced with
        accumulator := (s.machine.memory.read a.val).val, negative := false } := by
      simp only [Machine.effect, hdigit, Opcode.base, Nat.reduceDiv, hoperand]
    rw [step_of_move he, hadv]
    exact .lda
  | br =>
    have he : s.machine.effect = .move { s.machine.advanced with pc := a.val } := by
      simp only [Machine.effect, hdigit, Opcode.base, Nat.reduceDiv, hoperand]
    rw [step_of_move he, hadv]
    exact .br
  | brz =>
    have he : s.machine.effect = .move { s.machine with
        pc := if s.machine.accumulator = 0 then (a.val : Int) else (s.machine.pc + 1) % 100 } := by
      simp only [Machine.effect, hdigit, Opcode.base, Nat.reduceDiv, hoperand, hadv]
      split <;> rfl
    rw [step_of_move he]
    exact .brz
  | brp =>
    have he : s.machine.effect = .move { s.machine with
        pc := if s.machine.negative = false then (a.val : Int) else (s.machine.pc + 1) % 100 } := by
      simp only [Machine.effect, hdigit, Opcode.base, Nat.reduceDiv, hoperand, hadv]
      cases s.machine.negative <;> rfl
    rw [step_of_move he]
    exact .brp
  | hlt => exact absurd h (by decide)
  | dat => exact absurd h (by decide)
  | inp => exact absurd h (by decide)
  | out => exact absurd h (by decide)

/-- Words below a hundred halt the machine. -/
theorem prescribes_of_lt (h : s.machine.fetched.val < 100) :
    Prescribes b s (some .hlt) none (step b s) := by
  rw [step_of_halt (Machine.effect_eq_halt_iff.mpr h), Execution.stopped, Machine.advanced_eq]
  exact .hlt

theorem prescribes_of_input (h : s.machine.fetched.val = 901) {v : Int} {world : σ}
    (hb : b.request s.world = (.ok v, world)) (hv : isWord v = true) :
    Prescribes b s (some .inp) none (step b s) := by
  rw [step_of_input (Machine.effect_eq_input_iff.mpr h) hb, if_pos hv, Machine.advanced_eq]
  exact .inp hb hv

theorem prescribes_of_output (h : s.machine.fetched.val = 902) :
    Prescribes b s (some .out) none (step b s) := by
  have he : s.machine.effect = .output := by
    simp only [Machine.effect, h, Nat.reduceDiv, Nat.reduceMod]
    rfl
  rw [step_of_output he rfl, Machine.advanced_eq]
  exact .out rfl

theorem prescribes_of_unknown (hm : s.machine.InRange)
    (h : s.machine.fetched.val / 100 = 4 ∨ s.machine.fetched.val / 100 = 9)
    (hi : s.machine.fetched.val ≠ 901) (ho : s.machine.fetched.val ≠ 902) (operand : Option Int) :
    Prescribes b s none operand (step b s) := by
  have he : s.machine.effect = .fault := by
    rcases h with h | h
    · simp only [Machine.effect, h]
    · simp only [Machine.effect, h]
      rw [if_neg (by omega), if_neg (by omega)]
  rw [step_of_fault he (Machine.InRange.hasText hm).1 rfl, Execution.stopped, Machine.advanced_eq]
  exact .unknown rfl

/-- A step does what the listing shows. -/
theorem prescribes_step (tags : TagTable) (hm : s.machine.InRange) {v : Int} {world : σ}
    (hb : b.request s.world = (.ok v, world)) (hv : isWord v = true) :
    Prescribes b s (Line.ofWord tags s.machine.fetched.val (some s.machine.pc)).opcode
      (Line.ofWord tags s.machine.fetched.val (some s.machine.pc)).operand (step b s) := by
  rcases Word.cases s.machine.fetched with hw | ⟨o, a, h, hw⟩ | hw | hw | ⟨h, hi, ho⟩
  · rw [Line.ofWord_of_lt tags (some s.machine.pc) hw]
    exact prescribes_of_lt hw
  · rw [Line.ofWord_of_takesTag tags (some s.machine.pc) h hw]
    exact prescribes_of_takesTag hm h hw
  · rw [Line.ofWord_of_input tags (some s.machine.pc) hw]
    exact prescribes_of_input hw hb hv
  · rw [Line.ofWord_of_output tags (some s.machine.pc) hw]
    exact prescribes_of_output hw
  · rw [Line.ofWord_of_unknown tags (some s.machine.pc) h hi ho]
    exact prescribes_of_unknown hm h hi ho _

/-! ### When the machine stops -/

variable {o : Option Opcode} {operand : Option Int} {r : Except (StepError ε) Unit × Execution σ}

/-- Only a word that is no instruction leaves a fault. -/
theorem Prescribes.fault_eq (h : Prescribes b s o operand r) :
    r.2.progress.fault =
      if o = none then some ⟨s.machine.pc, s.machine.fetched.val⟩ else s.progress.fault := by
  cases h <;> rfl

/-- Only a halt and a word that is no instruction stop the machine. -/
theorem Prescribes.halted_iff (h : Prescribes b s o operand r) :
    r.2.progress.halted = true ↔ s.progress.halted = true ∨ o = none ∨ o = some .hlt := by
  cases h <;> simp [Execution.moved]

theorem Listing.Line.mnemonic_eq_hlt (l : Line) : l.mnemonic = "HLT" ↔ l.opcode = some .hlt := by
  rw [mnemonic]
  cases l.opcode with
  | none =>
    rw [Option.elim_none]
    exact ⟨fun h => absurd h (by decide), fun h => absurd h (by simp)⟩
  | some o =>
    rw [Option.elim_some, Option.some_inj]
    exact ⟨fun h => Opcode.name_injective h, fun h => by rw [h]; rfl⟩

/-- A line of a listing tells what the next step does. -/
structure Listing.Line.Foretells (line : Line) (b : Boundary σ ε) (s : Execution σ) : Prop where
  /-- The step carries out the instruction that is shown, with the operand that is shown. -/
  instruction : Prescribes b s line.opcode line.operand (step b s)
  faults : s.progress.fault = none →
    (line.isUnknown = true ↔ (step b s).2.progress.fault ≠ none)
  halts : s.progress.fault = none → s.progress.halted = false →
    (line.mnemonic = "HLT" ↔
      (step b s).2.progress.halted = true ∧ (step b s).2.progress.fault = none)

/-- The listing and the machine agree on the word that comes next, under any names for the boxes and
in any world that answers with a word. -/
theorem foretells_step (tags : TagTable) (hm : s.machine.InRange) {v : Int} {world : σ}
    (hb : b.request s.world = (.ok v, world)) (hv : isWord v = true) :
    (Line.ofWord tags s.machine.fetched.val (some s.machine.pc)).Foretells b s := by
  have hp := prescribes_step tags hm hb hv
  refine ⟨hp, fun hfault => ?_, fun hfault hhalted => ?_⟩
  · rw [hp.fault_eq, hfault, Line.isUnknown, Option.isNone_iff_eq_none]
    split <;> simp [*]
  · rw [Line.mnemonic_eq_hlt, hp.halted_iff, hp.fault_eq, hfault, hhalted]
    cases (Line.ofWord tags s.machine.fetched.val (some s.machine.pc)).opcode <;> simp

/-- An instruction in the last box that stores over itself. -/
def storeOverItself : Execution Tape :=
  { machine := { memory := Memory.zero.set (Address.wrap 99) (Word.wrap 399), pc := 99
                 accumulator := 5 }
    world := { pending := [7] } }

theorem foretells_store_over_itself :
    (Line.ofWord {} 399 (some 99)).Foretells Tape.checked storeOverItself ∧
      (step Tape.checked storeOverItself).2.machine.pc = 0 ∧
      ((step Tape.checked storeOverItself).2.machine.memory.read 99).val = 5 := by
  have hm : storeOverItself.machine.InRange := by decide
  have hb : Tape.checked.request storeOverItself.world = (.ok 7, { pending := [] }) := rfl
  exact ⟨foretells_step {} hm hb rfl, by decide +kernel, by decide +kernel⟩

end Prescribed

end LittleMan
