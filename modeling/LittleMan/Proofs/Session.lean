/-
Whatever is done with a machine, its registers stay in range.

`Session.Reachable` is what calls can make of a fresh machine: steps and runs in any world, values
put into memory or the accumulator by hand, commands of a debugger whose tags come from an
assembly. Calls may fail; what a failed call leaves behind is reachable too.

* `Session.InRange`: the invariant; not only the machine, but all that a command can put in its
  place has to be in range;
* `InRange.execute`, `InRange.loop`: the commands of the debugger keep it;
* `Session.Reachable.inRange`: so does every call;
* `Session.Reachable.safe`: so a step fails only because of what the boundary answers, and every
  state has a binary form.

That the boundary hands over no word is said with the number, which may be too long to be written.
Then the step fails all the same, but for this reason.
-/
import LittleMan.Debugger.Session
import LittleMan.Proofs.Assembly
import LittleMan.Proofs.Run
import LittleMan.Proofs.Snapshot.Binary
import LittleMan.Proofs.Snapshot.Text
import LittleMan.Proofs.Text.Decimal
namespace LittleMan.Debugger

open Text

namespace Session

variable {σ ε : Type}

/-- The machine and the saved machines are in range, and tags stand for boxes. -/
structure InRange (s : Session σ) : Prop where
  machine : s.machine.InRange
  saved : ∀ e ∈ s.saved, e.2.InRange
  tags : ∀ e ∈ s.tags.entries, 0 ≤ e.2 ∧ e.2 ≤ 99

namespace InRange

variable {s : Session σ}

/-- The world, and whether the session is at its end, have no part in it. -/
theorem of_eq {s' : Session σ} (hs : s.InRange) (hm : s'.machine = s.machine)
    (hsaved : s'.saved = s.saved) (htags : s'.tags = s.tags) : s'.InRange := by
  refine ⟨?_, ?_, ?_⟩
  · rw [hm]
    exact hs.machine
  · rw [hsaved]
    exact hs.saved
  · rw [htags]
    exact hs.tags

/-- The session that comes with an answer. -/
theorem of_snd {α : Type} {x : α × Session σ} {answer : α} (hx : x.2.InRange)
    (heq : x = (answer, s)) : s.InRange := by
  rw [heq] at hx
  exact hx

theorem withExecution (hs : s.InRange) {x : Execution σ} (hx : x.machine.InRange) :
    ({ s with execution := x } : Session σ).InRange := ⟨hx, hs.saved, hs.tags⟩

theorem withMachine (hs : s.InRange) {m : Machine} (hm : m.InRange) : (s.withMachine m).InRange :=
  hs.withExecution hm

theorem withWorld (hs : s.InRange) (w : σ) : (s.withWorld w).InRange := hs.of_eq rfl rfl rfl

theorem ended (hs : s.InRange) : s.ended.InRange := hs.of_eq rfl rfl rfl

variable (h : Host σ ε)

theorem echo (hs : s.InRange) (line : String) : (s.echo h line).InRange := hs.withWorld _

theorem note (hs : s.InRange) (entry : Entry) : (s.note h entry).InRange := hs.withWorld _

theorem echoAll (hs : s.InRange) (lines : List String) : (s.echoAll h lines).InRange := by
  induction lines generalizing s with
  | nil => exact hs
  | cons line lines ih => exact ih (hs.echo h line)

theorem ask (hs : s.InRange) (prompt : String) : (s.ask h prompt).2.InRange := hs.withWorld _

/-! ### Commands that move on -/

theorem stepOnce (hs : s.InRange) : (s.stepOnce h).2.InRange := by
  have hstep := inRange_step (b := h.boundary) hs.machine
  rw [Session.stepOnce]
  rcases hnext : step h.boundary s.execution with ⟨e | _, next⟩ <;> rw [hnext] at hstep
  · exact hs.withExecution hstep
  · dsimp only
    split
    · exact (hs.withExecution hstep).ended
    · exact hs.withExecution hstep

theorem runToEnd (hs : s.InRange) (patience : Nat) : (s.runToEnd h patience).2.InRange := by
  have hrun := inRange_run (b := h.boundary) patience none hs.machine
  rw [Session.runToEnd]
  rcases hend : run h.boundary patience none s.execution with ⟨_ | _ | _, next⟩ <;>
    rw [hend] at hrun
  · exact (hs.withExecution hrun).ended
  · exact hs.withExecution hrun
  · exact hs.withExecution hrun

theorem stepsTo (hs : s.InRange) (target : Int) (patience executed : Nat) :
    (s.stepsTo h target patience executed).2.InRange := by
  induction patience generalizing s executed with
  | zero => exact hs
  | succ patience ih =>
    have hstep := hs.stepOnce h
    rw [Session.stepsTo]
    rcases hnext : s.stepOnce h with ⟨e | _, next⟩ <;> rw [hnext] at hstep
    · exact hstep
    · dsimp only
      split
      · exact hstep
      · exact ih hstep (executed + 1)

theorem runTo (hs : s.InRange) (patience : Nat) (target : Int) :
    (s.runTo h patience target).2.InRange := by
  have hsteps := (hs.echo h ("Stepping to " ++ padded 2 target)).stepsTo h target patience 0
  rw [Session.runTo]
  split
  · next heq => exact hsteps.of_snd heq
  · next heq => exact (hsteps.of_snd heq).echo h _

/-! ### Commands that bring in another state -/

theorem loadText (hs : s.InRange) : (s.loadText h).2.InRange := by
  have hask := hs.ask h "Load>"
  rw [Session.loadText]
  split
  · next heq => exact hask.of_snd heq
  · next heq =>
    have hasked := hask.of_snd heq
    split
    · next m hm => exact hasked.withMachine (Snapshot.inRange_of_decodeText hm)
    · exact hasked.echo h _

theorem fileName (hs : s.InRange) (given : Option String) : (s.fileName h given).2.InRange := by
  cases given with
  | some name => exact hs
  | none => exact hs.ask h "Filename> "

theorem writeTo (hs : s.InRange) (name : String) : (s.writeTo h name).2.InRange := by
  rw [Session.writeTo]
  split
  · exact hs
  · split
    · exact hs
    · split
      · exact (hs.withWorld _).note h _
      · exact (hs.withWorld _).echo h _

theorem readFrom (hs : s.InRange) (name : String) : (s.readFrom h name).2.InRange := by
  rw [Session.readFrom]
  split
  · exact hs
  · split
    · exact hs.echo h _
    · split
      · exact hs.echo h _
      · next m hm => exact (hs.withMachine (Snapshot.inRange_of_decodeBinary hm)).note h _

/-! ### Commands -/

/-- A point names a box: by its number modulo 100, or by a tag. -/
theorem resolve (hs : s.InRange) {point : String} {address : Int}
    (hp : s.resolve point = .ok (some address)) : 0 ≤ address ∧ address ≤ 99 := by
  rw [Session.resolve] at hp
  split at hp
  · -- a number goes round until it names a box
    obtain ⟨n, _, hn⟩ := exists_of_map_eq_ok hp
    have := (Address.wrap n).isLt
    rw [← Option.some_inj.mp hn]
    omega
  · exact hs.tags (point, address) (mem_of_lookup_eq_some (Except.ok.inj hp))

theorem withPoint (hs : s.InRange) (point unknown : String)
    {next : Int → Except (Error ε) Unit × Session σ}
    (hnext : ∀ address, 0 ≤ address → address ≤ 99 → (next address).2.InRange) :
    (s.withPoint h point unknown next).2.InRange := by
  rw [Session.withPoint]
  split
  · exact hs
  · exact hs.echo h unknown
  · next address hp => exact hnext address (hs.resolve hp).1 (hs.resolve hp).2

theorem perform (hs : s.InRange) (patience : Nat) (command : Command) :
    (s.perform h patience command).2.InRange := by
  cases command with
  | step => exact hs.stepOnce h
  | run => exact hs.runToEnd h patience
  | showBox point => exact hs.withPoint h point _ fun address _ _ => hs.echo h _
  | showTagged => exact hs.echoAll h _
  | runTo point => exact hs.withPoint h point _ fun address _ _ => hs.runTo h patience address
  | skip => exact (hs.echo h _).withMachine (Machine.inRange_advanced hs.machine)
  | branch point =>
    exact hs.withPoint h point _ fun address h0 h99 =>
      hs.withMachine (Machine.inRange_withCounter hs.machine h0 h99)
  | dumpText =>
    rw [Session.perform]
    split
    · exact hs
    · exact hs.echo h _
  | loadText => exact hs.loadText h
  | save name =>
    -- the copy is of the machine at this moment
    have hsaved : ({ s with saved := (name, s.machine) :: s.saved } : Session σ).InRange := by
      refine ⟨hs.machine, fun e he => ?_, hs.tags⟩
      rcases List.mem_cons.mp he with rfl | he
      · exact hs.machine
      · exact hs.saved e he
    exact hsaved.echo h _
  | restore name =>
    rw [Session.perform]
    split
    · exact hs.echo h _
    · next m hm => exact (hs.withMachine (hs.saved (name, m) (mem_of_lookup_eq_some hm))).echo h _
  | exportTo file =>
    have hfile := hs.fileName h file
    rw [Session.perform]
    split
    · next heq => exact hfile.of_snd heq
    · next heq => exact (hfile.of_snd heq).writeTo h _
  | importFrom file =>
    have hfile := hs.fileName h file
    rw [Session.perform]
    split
    · next heq => exact hfile.of_snd heq
    · next heq => exact (hfile.of_snd heq).readFrom h _
  | help => exact hs.echo h _
  | quit => exact hs.of_eq rfl rfl rfl

theorem execute (hs : s.InRange) (patience : Nat) (line : String) :
    (s.execute h patience line).2.InRange := by
  rw [Session.execute]
  split
  · exact hs.perform h patience _
  · exact hs.echo h _

theorem commands (hs : s.InRange) (patience turns : Nat) :
    (s.commands h patience turns).2.InRange := by
  induction turns generalizing s with
  | zero => exact hs
  | succ turns ih =>
    have hask := (hs.echoAll h s.statusLines).ask h ">"
    rw [Session.commands]
    split
    · exact hs
    · split
      · next heq => exact hask.of_snd heq
      · next line answered heq =>
        have hdone := (hask.of_snd heq).execute h patience line
        split
        · next hok => exact ih (hdone.of_snd hok)
        · next hend => exact hdone.of_snd hend
        · next herror => exact hdone.of_snd herror

/-- Whole sessions keep everything in range. -/
theorem loop (hs : s.InRange) (patience : Nat) : (s.loop h patience).2.InRange := by
  have hdone := hs.commands h patience patience
  rw [Session.loop]
  split
  · next heq => exact hdone.of_snd heq
  · next heq =>
    dsimp only
    split
    · exact (hdone.of_snd heq).echoAll h _
    · exact hdone.of_snd heq

end InRange

end Session

/-! ### What calls can reach -/

/-- Machines to start from: empty, over an image, or read from a snapshot. -/
inductive Fresh : Machine → Prop where
  | empty : Fresh {}
  | image {words : List Int} {m : Machine} (h : Machine.ofImage words = .ok m) : Fresh m
  | text {text : String} {m : Machine} (h : Snapshot.decodeText text = .ok m) : Fresh m
  | binary {bytes : List UInt8} {m : Machine} (h : Snapshot.decodeBinary bytes = .ok m) : Fresh m

namespace Session

variable {σ : Type}

/-- The session with another memory in its machine. -/
def withMemory (s : Session σ) (memory : Memory) : Session σ :=
  s.withMachine { s.machine with memory }

/-- The sessions that some calls, in any order, make of a fresh machine. Every call of the
interpreter may come with another boundary, and between calls the world may change. -/
inductive Reachable : Session σ → Prop where
  | start {m : Machine} (hm : Fresh m) (world : σ) :
      Reachable { execution := { machine := m, world } }
  | step {s : Session σ} (hs : Reachable s) {ε : Type} (b : Boundary σ ε) :
      Reachable { s with execution := (step b s.execution).2 }
  | run {s : Session σ} (hs : Reachable s) {ε : Type} (b : Boundary σ ε) (patience : Nat)
      (budget : Option Int) :
      Reachable { s with execution := (run b patience budget s.execution).2 }
  /-- The interpreter forgets how far it has come. -/
  | restart {s : Session σ} (hs : Reachable s) :
      Reachable { s with execution := s.execution.restart }
  | reset {s : Session σ} (hs : Reachable s) : Reachable (s.withMachine s.machine.reset)
  | setAccumulator {s : Session σ} (hs : Reachable s) (v : Int) :
      Reachable (s.withMachine (s.machine.setAccumulator v))
  /-- A value that is no word is refused, and memory stays as it is. -/
  | write {s : Session σ} (hs : Reachable s) (a v : Int) {memory : Memory}
      (h : s.machine.memory.write a v = .ok memory) : Reachable (s.withMemory memory)
  /-- What was copied before a value was refused stays. -/
  | load {s : Session σ} (hs : Reachable s) (start : Int) (values : List Int) :
      Reachable (s.withMemory (s.machine.memory.load start values).2)
  | clear {s : Session σ} (hs : Reachable s) : Reachable (s.withMemory .zero)
  | elsewhere {s : Session σ} (hs : Reachable s) (world : σ) : Reachable (s.withWorld world)
  /-- A debugger is started on the machine, with the tags of an assembled program. -/
  | debug {s : Session σ} (hs : Reachable s) {lines : List String} {filename : String} {p : Program}
      (hp : assemble lines filename = .ok p) :
      Reachable { execution := s.execution, tags := p.tags }
  | execute {s : Session σ} (hs : Reachable s) {ε : Type} (h : Host σ ε) (patience : Nat)
      (line : String) : Reachable (s.execute h patience line).2
  | loop {s : Session σ} (hs : Reachable s) {ε : Type} (h : Host σ ε) (patience : Nat) :
      Reachable (s.loop h patience).2

end Session

theorem Fresh.inRange {m : Machine} (hm : Fresh m) : m.InRange := by
  cases hm with
  | empty => decide
  | image h => exact Machine.inRange_of_ofImage h
  | text h => exact Snapshot.inRange_of_decodeText h
  | binary h => exact Snapshot.inRange_of_decodeBinary h

/-- The tags of an assembled program stand for boxes. -/
theorem tags_of_assemble {lines : List String} {filename : String} {p : Program}
    (h : assemble lines filename = .ok p) : ∀ e ∈ p.tags.entries, 0 ≤ e.2 ∧ e.2 ≤ 99 := by
  have hp := assemble_eq_ok_iff.mp h
  rintro ⟨t, a⟩ he
  rw [hp.tags] at he
  obtain ⟨j, s, hj, _, rfl⟩ := Draft.mem_tagEntries.mp he
  have hlt := (List.getElem?_eq_some_iff.mp hj).1
  have hle := hp.length_le
  dsimp only
  omega

namespace Session

variable {σ : Type} {s : Session σ}

/-- The invariant holds after any calls. -/
theorem Reachable.inRange (h : s.Reachable) : s.InRange := by
  induction h with
  | start hm world => exact ⟨hm.inRange, by simp, by simp⟩
  | step _ b ih => exact ih.withExecution (inRange_step ih.machine)
  | run _ b patience budget ih => exact ih.withExecution (inRange_run patience budget ih.machine)
  | restart _ ih => exact ih.withExecution ih.machine
  | reset _ ih => exact ih.withMachine (Machine.inRange_reset _)
  | setAccumulator _ v ih => exact ih.withMachine (Machine.inRange_setAccumulator ih.machine v)
  | write _ a v _ ih => exact ih.withMachine (Machine.inRange_of_registers ih.machine rfl rfl)
  | load _ start values ih =>
    exact ih.withMachine (Machine.inRange_of_registers ih.machine rfl rfl)
  | clear _ ih => exact ih.withMachine (Machine.inRange_of_registers ih.machine rfl rfl)
  | elsewhere _ world ih => exact ih.withWorld world
  | debug _ hp ih => exact ⟨ih.machine, by simp, tags_of_assemble hp⟩
  | execute _ h patience line ih => exact ih.execute h patience line
  | loop _ h patience ih => exact ih.loop h patience

/-- What is promised of a session at any time. -/
structure Safe (s : Session σ) : Prop where
  memory : s.machine.memory.toList.length = 100 ∧ ∀ w ∈ s.machine.memory.toList, w.val ≤ 999
  pc : 0 ≤ s.machine.pc ∧ s.machine.pc ≤ 99
  accumulator : 0 ≤ s.machine.accumulator ∧ s.machine.accumulator ≤ 999
  /-- A step fails only with what the boundary refuses, or where its answer is no word. Then the
  error names the answer, if it has a text. -/
  step : ∀ {ε : Type} (b : Boundary σ ε) (e : StepError ε), (step b s.execution).1 = .error e →
    (∃ v, (b.request s.execution.world).1 = .ok v ∧ isWord v = false ∧ HasText v ∧
        e = .inputOutOfRange v) ∨
      (∃ v, (b.request s.execution.world).1 = .ok v ∧ ¬HasText v ∧ e = .unwritten {}) ∨
        ∃ r, b.Refuses s.execution.world r ∧ e = .refused r
  /-- There is a binary snapshot. -/
  binary : ∃ bytes, Snapshot.encodeBinary s.machine = .ok bytes ∧ bytes.length = 205

/-- Why a step fails from a machine in range. -/
theorem step_error_of_inRange {ε : Type} {b : Boundary σ ε} {x : Execution σ}
    (hx : x.machine.InRange) {e : StepError ε} (he : (LittleMan.step b x).1 = .error e) :
    (∃ v, (b.request x.world).1 = .ok v ∧ isWord v = false ∧ HasText v ∧ e = .inputOutOfRange v) ∨
      (∃ v, (b.request x.world).1 = .ok v ∧ ¬HasText v ∧ e = .unwritten {}) ∨
        ∃ r, b.Refuses x.world r ∧ e = .refused r := by
  rcases step_error_cases hx he with ⟨v, -, hv, hword, rfl⟩ | hrefused
  · by_cases htext : HasText v
    · exact .inl ⟨v, hv, hword, htext, StepError.ofInput_of_hasText htext⟩
    · exact .inr (.inl ⟨v, hv, htext, StepError.ofInput_of_not_hasText htext⟩)
  · exact .inr (.inr hrefused)

/-- Whatever calls were made before, a session is safe. -/
theorem Reachable.safe (h : s.Reachable) : s.Safe := by
  have hm := h.inRange.machine
  exact {
    memory := ⟨Memory.length_toList _, fun w _ => Nat.le_of_lt_succ w.isLt⟩
    pc := hm.1
    accumulator := hm.2
    step := fun _ _ he => step_error_of_inRange hm he
    binary := Snapshot.encodeBinary_of_inRange hm }

/-- The number that waits for the machine is no word. -/
def beforeInput : Session Tape := { execution := { machine := {}, world := { pending := [1000] } } }

/-- The accumulator was set to more than a word; then an input is refused in the middle of a
step. -/
theorem safe_after_refused_input :
    ∃ s : Session Tape, s.Reachable ∧ s.machine.pc = 1 ∧ s.machine.accumulator = 234 ∧ s.Safe := by
  have h0 : beforeInput.Reachable := .start .empty _
  have h1 : ((beforeInput.withMachine (beforeInput.machine.setAccumulator 1234)).withMemory
      (Memory.zero.set 0 901)).Reachable := (h0.setAccumulator 1234).write 0 901 rfl
  refine ⟨_, h1.step Tape.unchecked, ?_, ?_, Reachable.safe (h1.step Tape.unchecked)⟩
  · decide +kernel
  · decide +kernel

/-- A number that has no text waits for a machine that asks for it. -/
def beforeUnwritten : Session Tape :=
  { execution := { machine := { memory := .ofWords [Word.wrap 901] }
                   world := { pending := [leastUnwritten] } } }

/-- So a step may fail otherwise than by saying that an input is out of range, and without a refusal
of the boundary. -/
theorem step_fails_unwritten :
    beforeUnwritten.Reachable ∧
      (step Tape.unchecked beforeUnwritten.execution).1 = .error (.unwritten {}) ∧
      (∀ v, (.unwritten {} : StepError Tape.Error) ≠ .inputOutOfRange v) ∧
      ∀ r, ¬Tape.unchecked.Refuses beforeUnwritten.execution.world r := by
  have himage : Machine.ofImage [901] = .ok beforeUnwritten.machine := by decide +kernel
  refine ⟨.start (.image himage) _, ?_, nofun, ?_⟩
  · have hinput := step_eq_ofInput (b := Tape.unchecked) (s := beforeUnwritten.execution)
      (by decide +kernel) rfl (by decide +kernel)
    rw [hinput, StepError.ofInput_of_not_hasText not_hasText_leastUnwritten]
  · rintro r (h | ⟨v, h⟩ | ⟨f, h⟩) <;> exact absurd h nofun

end Session

end LittleMan.Debugger
