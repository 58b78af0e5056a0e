/-
Running a machine against a boundary.

* `Machine.effect`: what the next instruction asks for, without the world;
* `step`: one instruction, counted;
* `run`: instructions until the machine halts, the boundary refuses, or a budget is used up;
* `runNotes`: the note on a budget that was used up, which is taken at the end of the run.

One step fetches the word at the program counter, moves the counter on to the next box, and acts on
the word by its hundreds digit. A word that is no instruction halts the machine like the halt
instruction does; the fault is kept and reported, it is no error of the run.

What a step or a run has to say of a number takes the text of that number. There is none for a
number of too many digits, and saying it fails.
-/
import LittleMan.Boundary
import LittleMan.Journal
namespace LittleMan

/-- What one instruction asks for. -/
inductive Effect where
  /-- The machine goes on in this state. -/
  | move (next : Machine)
  | halt
  | fault
  /-- The accumulator takes a number from the world. -/
  | input
  /-- The accumulator goes to the world. -/
  | output
  /-- The accumulator does not fit into a box. -/
  | spill (error : Memory.Error)
deriving DecidableEq, Repr

/-- The machine with the program counter on the next box. -/
def Machine.advanced (m : Machine) : Machine :=
  { m with pc := (Address.wrap (m.pc + 1)).val }

/-- The effect of the fetched word, by its hundreds digit; its last two digits name the operand. -/
def Machine.effect (m : Machine) : Effect :=
  let next := m.advanced
  let word := m.fetched.val
  let operand : Int := (word % 100 : Nat)
  let value : Int := (m.memory.read operand).val
  match word / 100 with
  | 0 => .halt
  | 1 => .move (next.setAccumulator (m.accumulator + value))
  | 2 => .move (next.setAccumulator (m.accumulator - value))
  | 3 => match m.memory.write operand m.accumulator with
    | .ok memory => .move { next with memory := memory }
    | .error e => .spill e
  | 5 => .move { next with accumulator := value, negative := false }
  | 6 => .move { next with pc := operand }
  | 7 => .move (if m.accumulator = 0 then { next with pc := operand } else next)
  | 8 => .move (if m.negative then next else { next with pc := operand })
  -- of these words only two are instructions
  | 9 => if operand = 1 then .input else if operand = 2 then .output else .fault
  | _ => .fault

/-- How far a run has come. -/
structure Progress where
  halted : Bool := false
  fault : Option Fault := none
  steps : Nat := 0
deriving DecidableEq, Repr, Inhabited

/-- A machine at work: its state, how far it has come, and the world it works in. -/
structure Execution (σ : Type) where
  machine : Machine
  progress : Progress := {}
  world : σ
deriving DecidableEq, Repr

/-- Why an instruction could not be carried out. -/
inductive StepError (ε : Type) where
  | refused (error : ε)
  | inputOutOfRange (value : Int)
  | store (error : Memory.Error)
  /-- What went wrong cannot be told, because a number in it has no text. -/
  | unwritten (error : Text.NumberTooLong)
deriving DecidableEq, Repr

/-- The wording, given that of the boundary's own errors. -/
def StepError.message {ε : Type} (refusal : ε → String) : StepError ε → String
  | .refused e => refusal e
  | .inputOutOfRange v => "input " ++ toString v ++ " out of range 0..999"
  | .store e => e.message
  | .unwritten e => e.message

/-- The error of an input that is no word. It names the number. -/
def StepError.ofInput {ε : Type} (v : Int) : StepError ε :=
  match Text.written toString v with
  | .ok _ => .inputOutOfRange v
  | .error e => .unwritten e

variable {σ ε : Type}

/-- One instruction. After an error the counter has moved on and the step counts, but the machine is
otherwise as it was. -/
def step (b : Boundary σ ε) (s : Execution σ) : Except (StepError ε) Unit × Execution σ :=
  let counted : Execution σ :=
    { s with
      machine := s.machine.advanced
      progress := { s.progress with steps := s.progress.steps + 1 } }
  match s.machine.effect with
  | .move next => (.ok (), { counted with machine := next })
  | .halt => (.ok (), { counted with progress := { counted.progress with halted := true } })
  | .fault => match Fault.ofWord s.machine.pc s.machine.fetched with
    | .error e => (.error (.unwritten e), counted)
    | .ok fault =>
      -- the fault counts even if the report is refused
      let stopped : Execution σ :=
        { counted with progress := { counted.progress with halted := true, fault := some fault } }
      match b.report fault s.world with
      | (.ok (), world) => (.ok (), { stopped with world := world })
      | (.error e, world) => (.error (.refused e), { stopped with world := world })
  | .input => match b.request s.world with
    | (.error e, world) => (.error (.refused e), { counted with world := world })
    | (.ok v, world) =>
      if isWord v then
        (.ok (), { counted with
          machine := { counted.machine with accumulator := v, negative := false }, world := world })
      else (.error (.ofInput v), { counted with world := world })
  | .output => match b.emit s.machine.accumulator s.world with
    | (.error e, world) => (.error (.refused e), { counted with world := world })
    | (.ok (), world) => (.ok (), { counted with world := world })
  | .spill e => (.error (.store e), counted)

/-- Why a run came to its end. -/
inductive Stop (ε : Type) where
  | halted
  | exhausted
  | failed (error : StepError ε)
deriving DecidableEq, Repr

/-- At most `n` steps, none after the machine has halted or the boundary has refused. -/
def advance (b : Boundary σ ε) : Nat → Execution σ → Stop ε × Execution σ
  | 0, s => (if s.progress.halted then .halted else .exhausted, s)
  | n + 1, s =>
    if s.progress.halted then (.halted, s)
    else match step b s with
      | (.ok (), next) => advance b n next
      | (.error e, next) => (.failed e, next)

/-- The number of steps a run may take: its budget, or `patience` if it has none. A budget below
zero allows none. -/
def allowance (patience : Nat) : Option Int → Nat
  | some budget => budget.toNat
  | none => patience

/-- The execution with nothing done yet. -/
def Execution.restart (s : Execution σ) : Execution σ := { s with progress := {} }

/-- Runs the machine afresh from its present state. -/
def run (b : Boundary σ ε) (patience : Nat) (budget : Option Int) (s : Execution σ) :
    Stop ε × Execution σ :=
  advance b (allowance patience budget) s.restart

/-- The note on a word that is no instruction. -/
def Fault.note (f : Fault) : Entry := ⟨.debug, f.message⟩

/-- The note on a budget that was used up. -/
def exhaustedNote (budget pc : Int) : Except Text.NumberTooLong Entry := do
  let budget ← Text.written toString budget
  let pc ← Text.written (Text.padded 2) pc
  return ⟨.debug, "Step budget of " ++ budget ++ " exhausted at PC " ++ pc⟩

/-- What a run that has come to its end leaves in the journal, its faults apart. -/
def runNotes (budget : Option Int) (stop : Stop ε) (s : Execution σ) :
    Except Text.NumberTooLong Journal :=
  match stop, budget with
  | .exhausted, some n => (exhaustedNote n s.machine.pc).map ([·])
  | _, _ => .ok []

end LittleMan
