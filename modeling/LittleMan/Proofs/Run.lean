/-
Steps and runs, taken apart.

* `step_of_move`, `step_of_halt` and the like: a step, given the effect of the fetched word and the
  answer of the world; `Stepped` says that a step does nothing else;
* `step_ok_cases`, `step_error_cases`: what a step that succeeds can do, and why a step fails;
* `advance_keeps`: what each step keeps, a run keeps; so the registers stay in range, also if the
  world refuses (`inRange_step`, `inRange_run`);
* `advance_add_of_exhausted`, `advance_add_of_ended`: a run in two parts;
* `advance_eq_halted_iff`, `advance_eq_failed_iff`: the last step of a run that came to its end.

Throughout, `advance b n s = (.exhausted, t)` says that `n` steps lead from `s` to `t` and that the
machine was still going after each of them.
-/
import LittleMan.Proofs.Machine
namespace LittleMan

/-! ### Steps -/

variable {σ ε : Type} {b : Boundary σ ε} {s t : Execution σ}

/-- An execution after one more step, with the machine and the world that the step leaves. -/
def Execution.moved (s : Execution σ) (machine : Machine) (world : σ) : Execution σ :=
  { machine, world, progress := { s.progress with steps := s.progress.steps + 1 } }

/-- An execution after one more step, which halted the machine, maybe with a fault. -/
def Execution.stopped (s : Execution σ) (fault : Option Fault) (world : σ) : Execution σ :=
  { machine := s.machine.advanced, world
    progress := { halted := true, fault, steps := s.progress.steps + 1 } }

theorem step_of_move {next : Machine} (h : s.machine.effect = .move next) :
    step b s = (.ok (), s.moved next s.world) := by
  rw [step, h]
  rfl

theorem step_of_halt (h : s.machine.effect = .halt) :
    step b s = (.ok (), s.stopped s.progress.fault s.world) := by
  rw [step, h]
  rfl

theorem Fault.ofWord_of_hasText {address : Int} (h : Text.HasText address) (w : Word) :
    ofWord address w = .ok ⟨address, w.val⟩ := by
  rw [ofWord, Text.written_of_hasText h]
  rfl

theorem Fault.ofWord_of_not_hasText {address : Int} (h : ¬Text.HasText address) (w : Word) :
    ofWord address w = .error {} := by
  rw [ofWord, Text.written_of_not_hasText h]
  rfl

theorem step_of_fault (h : s.machine.effect = .fault) (hpc : Text.HasText s.machine.pc)
    {r : Except ε Unit} {world : σ}
    (hb : b.report ⟨s.machine.pc, s.machine.fetched.val⟩ s.world = (r, world)) :
    step b s = (r.mapError .refused,
      s.stopped (some ⟨s.machine.pc, s.machine.fetched.val⟩) world) := by
  rw [step, h]
  simp only [Fault.ofWord_of_hasText hpc, hb]
  cases r <;> rfl

/-- A fault in a box whose number has no text cannot be told. -/
theorem step_of_fault_unwritten (h : s.machine.effect = .fault)
    (hpc : ¬Text.HasText s.machine.pc) :
    step b s = (.error (.unwritten {}), s.moved s.machine.advanced s.world) := by
  rw [step, h]
  simp only [Fault.ofWord_of_not_hasText hpc]
  rfl

/-- The error of an input names the input, if it has a text. -/
theorem StepError.ofInput_of_hasText {v : Int} (h : Text.HasText v) :
    (ofInput v : StepError ε) = .inputOutOfRange v := by
  rw [ofInput, Text.written_of_hasText h]

theorem StepError.ofInput_of_not_hasText {v : Int} (h : ¬Text.HasText v) :
    (ofInput v : StepError ε) = .unwritten {} := by
  rw [ofInput, Text.written_of_not_hasText h]

theorem StepError.ofInput_ne_refused (v : Int) (d : ε) : (ofInput v : StepError ε) ≠ .refused d := by
  by_cases h : Text.HasText v
  · rw [ofInput_of_hasText h]
    exact nofun
  · rw [ofInput_of_not_hasText h]
    exact nofun

theorem step_of_input (h : s.machine.effect = .input) {v : Int} {world : σ}
    (hb : b.request s.world = (.ok v, world)) :
    step b s = if isWord v then
        (.ok (), s.moved { s.machine.advanced with accumulator := v, negative := false } world)
      else (.error (.ofInput v), s.moved s.machine.advanced world) := by
  rw [step, h]
  simp only [hb]
  rfl

theorem step_of_input_refused (h : s.machine.effect = .input) {e : ε} {world : σ}
    (hb : b.request s.world = (.error e, world)) :
    step b s = (.error (.refused e), s.moved s.machine.advanced world) := by
  rw [step, h]
  simp only [hb]
  rfl

theorem step_of_output (h : s.machine.effect = .output) {r : Except ε Unit} {world : σ}
    (hb : b.emit s.machine.accumulator s.world = (r, world)) :
    step b s = (r.mapError .refused, s.moved s.machine.advanced world) := by
  rw [step, h]
  cases r <;> simp only [hb] <;> rfl

theorem step_of_spill {e : Memory.Error} (h : s.machine.effect = .spill e) :
    step b s = (.error (.store e), s.moved s.machine.advanced s.world) := by
  rw [step, h]
  rfl

/-- What a step can come to: its answer, and the execution after it. -/
inductive Stepped (b : Boundary σ ε) (s : Execution σ) :
    Except (StepError ε) Unit × Execution σ → Prop where
  | move {next : Machine} (he : s.machine.effect = .move next) :
      Stepped b s (.ok (), s.moved next s.world)
  | halt (he : s.machine.effect = .halt) :
      Stepped b s (.ok (), s.stopped s.progress.fault s.world)
  | fault (he : s.machine.effect = .fault) (hpc : Text.HasText s.machine.pc)
      {r : Except ε Unit} {world : σ}
      (hb : b.report ⟨s.machine.pc, s.machine.fetched.val⟩ s.world = (r, world)) :
      Stepped b s (r.mapError .refused,
        s.stopped (some ⟨s.machine.pc, s.machine.fetched.val⟩) world)
  | unwritten (he : s.machine.effect = .fault) (hpc : ¬Text.HasText s.machine.pc) :
      Stepped b s (.error (.unwritten {}), s.moved s.machine.advanced s.world)
  | input (he : s.machine.effect = .input) {v : Int} {world : σ}
      (hb : b.request s.world = (.ok v, world)) (hv : isWord v = true) :
      Stepped b s (.ok (),
        s.moved { s.machine.advanced with accumulator := v, negative := false } world)
  | outOfRange (he : s.machine.effect = .input) {v : Int} {world : σ}
      (hb : b.request s.world = (.ok v, world)) (hv : isWord v = false) :
      Stepped b s (.error (.ofInput v), s.moved s.machine.advanced world)
  | refused (he : s.machine.effect = .input) {e : ε} {world : σ}
      (hb : b.request s.world = (.error e, world)) :
      Stepped b s (.error (.refused e), s.moved s.machine.advanced world)
  | output (he : s.machine.effect = .output) {r : Except ε Unit} {world : σ}
      (hb : b.emit s.machine.accumulator s.world = (r, world)) :
      Stepped b s (r.mapError .refused, s.moved s.machine.advanced world)
  | spill {e : Memory.Error} (he : s.machine.effect = .spill e) :
      Stepped b s (.error (.store e), s.moved s.machine.advanced s.world)

theorem stepped_step (b : Boundary σ ε) (s : Execution σ) : Stepped b s (step b s) := by
  cases he : s.machine.effect with
  | move next =>
    rw [step_of_move he]
    exact .move he
  | halt =>
    rw [step_of_halt he]
    exact .halt he
  | fault =>
    by_cases hpc : Text.HasText s.machine.pc
    · rw [step_of_fault he hpc rfl]
      exact .fault he hpc rfl
    · rw [step_of_fault_unwritten he hpc]
      exact .unwritten he hpc
  | input =>
    rcases hb : b.request s.world with ⟨e | v, world⟩
    · rw [step_of_input_refused he hb]
      exact .refused he hb
    · rw [step_of_input he hb]
      split
      · next hv => exact .input he hb hv
      · next hv => exact .outOfRange he hb (Bool.eq_false_iff.mpr hv)
  | output =>
    rw [step_of_output he rfl]
    exact .output he rfl
  | spill e =>
    rw [step_of_spill he]
    exact .spill he

/-- A step asks the world at most one question. -/
theorem world_step {p : σ → Prop} (h : p s.world) (hrequest : p (b.request s.world).2)
    (hemit : ∀ v, p (b.emit v s.world).2) (hreport : ∀ f, p (b.report f s.world).2) :
    p (step b s).2.world := by
  have hr := stepped_step b s
  generalize step b s = r at hr ⊢
  cases hr with
  | move he => exact h
  | halt he => exact h
  | fault he hpc hb =>
    have := hreport ⟨s.machine.pc, s.machine.fetched.val⟩
    rwa [hb] at this
  | unwritten he hpc => exact h
  | output he hb =>
    have := hemit s.machine.accumulator
    rwa [hb] at this
  | spill he => exact h
  | input he hb => rwa [hb] at hrequest
  | outOfRange he hb => rwa [hb] at hrequest
  | refused he hb => rwa [hb] at hrequest

/-- A step that succeeds leaves the machine going, or stops it at a halt, or stops it at a word that
is no instruction. -/
theorem step_ok_cases (h : step b s = (.ok (), t)) :
    (∃ machine world, t = s.moved machine world) ∨
      s.machine.effect = .halt ∧ t = s.stopped s.progress.fault s.world ∨
      s.machine.effect = .fault ∧ Text.HasText s.machine.pc ∧
        ∃ world, t = s.stopped (some ⟨s.machine.pc, s.machine.fetched.val⟩) world := by
  have hr := stepped_step b s
  generalize step b s = r at h hr
  obtain rfl : r.2 = t := congrArg Prod.snd h
  cases hr with
  | halt he => exact .inr (.inl ⟨he, rfl⟩)
  | fault he hpc hb => exact .inr (.inr ⟨he, hpc, _, rfl⟩)
  | _ => exact .inl ⟨_, _, rfl⟩

/-- The boundary refuses one of the three questions with this error. -/
def Boundary.Refuses (b : Boundary σ ε) (world : σ) (error : ε) : Prop :=
  (b.request world).1 = .error error ∨ (∃ v, (b.emit v world).1 = .error error) ∨
    ∃ f, (b.report f world).1 = .error error

/-- A step fails because the world gives what is no word, because the world refuses, because the
accumulator does not fit into a box, or because a fault cannot be told. -/
theorem step_failure_cases {e : StepError ε} (h : (step b s).1 = .error e) :
    (∃ v, s.machine.effect = .input ∧ (b.request s.world).1 = .ok v ∧ isWord v = false ∧
        e = .ofInput v) ∨
      (∃ d, b.Refuses s.world d ∧ e = .refused d) ∨
        (∃ m, s.machine.effect = .spill m ∧ e = .store m) ∨
          s.machine.effect = .fault ∧ ¬Text.HasText s.machine.pc ∧ e = .unwritten {} := by
  have hr := stepped_step b s
  generalize step b s = r at h hr
  cases hr with
  | move he => exact absurd h (by simp)
  | halt he => exact absurd h (by simp)
  | input he hb hv => exact absurd h (by simp)
  | outOfRange he hb hv =>
    exact .inl ⟨_, he, congrArg Prod.fst hb, hv, (Except.error.inj h).symm⟩
  | refused he hb =>
    exact .inr (.inl ⟨_, .inl (congrArg Prod.fst hb), (Except.error.inj h).symm⟩)
  | spill he => exact .inr (.inr (.inl ⟨_, he, (Except.error.inj h).symm⟩))
  | unwritten he hpc => exact .inr (.inr (.inr ⟨he, hpc, (Except.error.inj h).symm⟩))
  | @output _ r world hb =>
    cases r with
    | ok => exact absurd h nofun
    | error d =>
      exact .inr (.inl ⟨d, .inr (.inl ⟨_, congrArg Prod.fst hb⟩), (Except.error.inj h).symm⟩)
  | @fault _ hpc r world hb =>
    cases r with
    | ok => exact absurd h nofun
    | error d =>
      exact .inr (.inl ⟨d, .inr (.inr ⟨_, congrArg Prod.fst hb⟩), (Except.error.inj h).symm⟩)

/-- A step from a machine in range fails only because of the world: it was given no word, or was
refused. -/
theorem step_error_cases (h : s.machine.InRange) {e : StepError ε} (he : (step b s).1 = .error e) :
    (∃ v, s.machine.effect = .input ∧ (b.request s.world).1 = .ok v ∧ isWord v = false ∧
        e = .ofInput v) ∨
      ∃ r, b.Refuses s.world r ∧ e = .refused r := by
  rcases step_failure_cases he with hinput | hrefused | ⟨m, hspill, -⟩ | ⟨-, hpc, -⟩
  · exact .inl hinput
  · exact .inr hrefused
  · exact absurd hspill (Machine.effect_ne_spill h m)
  · exact absurd (Machine.InRange.hasText h).1 hpc

/-- A step to which the world gives no word fails. -/
theorem step_eq_ofInput (h : s.machine.effect = .input) {v : Int}
    (hb : (b.request s.world).1 = .ok v) (hv : isWord v = false) :
    (step b s).1 = .error (.ofInput v) := by
  rw [step_of_input h (Prod.ext hb rfl), if_neg (by simp [hv])]

/-- The world refuses the one question that the step asks. -/
theorem step_eq_refused_iff {d : ε} :
    (step b s).1 = .error (.refused d) ↔
      (s.machine.effect = .input ∧ (b.request s.world).1 = .error d) ∨
        (s.machine.effect = .output ∧ (b.emit s.machine.accumulator s.world).1 = .error d) ∨
          s.machine.effect = .fault ∧ Text.HasText s.machine.pc ∧
            (b.report ⟨s.machine.pc, s.machine.fetched.val⟩ s.world).1 = .error d := by
  have herror : ∀ r : Except ε Unit, (r.mapError .refused : Except (StepError ε) Unit) =
      .error (.refused d) ↔ r = .error d := by
    intro r
    cases r with
    | ok => exact iff_of_false nofun nofun
    | error e =>
      constructor
      · intro h
        rw [StepError.refused.inj (Except.error.inj h)]
      · intro h
        rw [Except.error.inj h]
        rfl
  constructor
  · intro h
    have hr := stepped_step b s
    generalize step b s = r at h hr
    cases hr with
    | refused he hb =>
      obtain rfl := StepError.refused.inj (Except.error.inj h)
      exact .inl ⟨he, congrArg Prod.fst hb⟩
    | output he hb =>
      exact .inr (.inl ⟨he, (congrArg Prod.fst hb).trans ((herror _).mp h)⟩)
    | fault he hpc hb =>
      exact .inr (.inr ⟨he, hpc, (congrArg Prod.fst hb).trans ((herror _).mp h)⟩)
    | outOfRange he hb hv => exact absurd (Except.error.inj h) (StepError.ofInput_ne_refused _ _)
    | _ => exact absurd h (by simp)
  · rintro (⟨he, hb⟩ | ⟨he, hb⟩ | ⟨he, hpc, hb⟩)
    · rw [step_of_input_refused he (Prod.ext hb rfl)]
    · rw [step_of_output he rfl, hb]
      rfl
    · rw [step_of_fault he hpc rfl, hb]
      rfl

/-- A step keeps the registers in range, whatever the world gives. -/
theorem inRange_step (h : s.machine.InRange) : (step b s).2.machine.InRange := by
  have hadv := Machine.inRange_advanced h
  have hr := stepped_step b s
  generalize step b s = r at hr ⊢
  cases hr with
  | move he => exact Machine.inRange_of_move h he
  | input he hb hv => exact Machine.inRange_withAccumulator hadv hv false
  | _ => exact hadv

/-- A step that leaves the machine going is counted, and leaves no fault. -/
theorem progress_of_step (h : step b s = (.ok (), t)) (ht : t.progress.halted = false) :
    t.progress = { s.progress with steps := s.progress.steps + 1 } := by
  obtain ⟨machine, world, rfl⟩ | ⟨_, rfl⟩ | ⟨_, _, world, rfl⟩ := step_ok_cases h
  · rfl
  · exact absurd ht (by simp [Execution.stopped])
  · exact absurd ht (by simp [Execution.stopped])

/-- A step that halts the machine without a fault fetched a halt. -/
theorem effect_of_halting_step (h : step b s = (.ok (), t)) (hs : s.progress.halted = false)
    (ht : t.progress.halted = true) (hfault : t.progress.fault = none) :
    s.machine.effect = .halt := by
  obtain ⟨machine, world, rfl⟩ | ⟨he, _⟩ | ⟨_, _, world, rfl⟩ := step_ok_cases h
  · exact absurd (hs.symm.trans ht) (by simp)
  · exact he
  · exact absurd hfault (by simp [Execution.stopped])

/-! ### Runs -/

theorem advance_of_halted (n : Nat) (h : s.progress.halted = true) :
    advance b n s = (.halted, s) := by
  cases n <;> simp [advance, h]

theorem advance_zero (h : s.progress.halted = false) : advance b 0 s = (.exhausted, s) := by
  rw [advance, h]
  rfl

theorem advance_succ_of_ok (n : Nat) (hs : s.progress.halted = false)
    (h : step b s = (.ok (), t)) : advance b (n + 1) s = advance b n t := by
  rw [advance, hs, h]
  rfl

theorem advance_succ_of_error (n : Nat) (hs : s.progress.halted = false) {e : StepError ε}
    (h : step b s = (.error e, t)) : advance b (n + 1) s = (.failed e, t) := by
  rw [advance, hs, h]
  rfl

variable {n : Nat}

theorem not_halted_of_exhausted (h : advance b n s = (.exhausted, t)) :
    s.progress.halted = false := by
  refine Bool.eq_false_iff.mpr fun hs => ?_
  rw [advance_of_halted n hs] at h
  exact absurd (Prod.mk.inj h).1 (by simp)

theorem advance_zero_of_exhausted (h : advance b 0 s = (.exhausted, t)) : t = s := by
  rw [advance_zero (not_halted_of_exhausted h)] at h
  exact (Prod.mk.inj h).2.symm

/-- The first of several steps. -/
theorem step_of_exhausted (h : advance b (n + 1) s = (.exhausted, t)) :
    ∃ r, step b s = (.ok (), r) ∧ advance b n r = (.exhausted, t) := by
  have hs := not_halted_of_exhausted h
  rcases hstep : step b s with ⟨e | _, r⟩
  · rw [advance_succ_of_error n hs hstep] at h
    exact absurd (Prod.mk.inj h).1 (by simp)
  · rw [advance_succ_of_ok n hs hstep] at h
    exact ⟨r, rfl, h⟩

/-- Nothing but the number of steps is noted as long as the machine is going. -/
theorem progress_of_exhausted (h : advance b n s = (.exhausted, t)) :
    t.progress = { s.progress with steps := s.progress.steps + n } := by
  induction n generalizing s with
  | zero => rw [advance_zero_of_exhausted h]; rfl
  | succ n ih =>
    obtain ⟨r, hstep, hr⟩ := step_of_exhausted h
    rw [ih hr, progress_of_step hstep (not_halted_of_exhausted hr), Nat.add_right_comm,
      Nat.add_assoc]

theorem halted_of_exhausted (h : advance b n s = (.exhausted, t)) : t.progress.halted = false := by
  rw [progress_of_exhausted h]
  exact not_halted_of_exhausted h

theorem steps_of_exhausted (h : advance b n s = (.exhausted, t)) :
    t.progress.steps = s.progress.steps + n := by
  rw [progress_of_exhausted h]

theorem fault_of_exhausted (h : advance b n s = (.exhausted, t)) :
    t.progress.fault = s.progress.fault := by
  rw [progress_of_exhausted h]

/-- What every step keeps, also one that fails, a run keeps. -/
theorem advance_keeps {p : Execution σ → Prop} (hp : ∀ t, p t → p (step b t).2) (n : Nat)
    (h : p s) : p (advance b n s).2 := by
  induction n generalizing s with
  | zero => exact h
  | succ n ih =>
    have hs := hp s h
    rw [advance]
    split
    · exact h
    · rcases hstep : step b s with ⟨e | _, next⟩ <;> rw [hstep] at hs
      · exact hs
      · exact ih hs

theorem inRange_advance (n : Nat) (h : s.machine.InRange) : (advance b n s).2.machine.InRange :=
  advance_keeps (p := fun t => t.machine.InRange) (fun _ ht => inRange_step ht) n h

/-- A run leaves the registers in range, also when it ends with an error. -/
theorem inRange_run (patience : Nat) (budget : Option Int) (h : s.machine.InRange) :
    (run b patience budget s).2.machine.InRange := inRange_advance _ h

/-- A run that is still going goes on from where it is. -/
theorem advance_add_of_exhausted (m : Nat) (h : advance b n s = (.exhausted, t)) :
    advance b (n + m) s = advance b m t := by
  induction n generalizing s with
  | zero => rw [advance_zero_of_exhausted h, Nat.zero_add]
  | succ n ih =>
    obtain ⟨r, hstep, hr⟩ := step_of_exhausted h
    rw [Nat.add_right_comm, advance_succ_of_ok _ (not_halted_of_exhausted h) hstep, ih hr]

/-- A run that came to its end does not change with a larger number of steps. -/
theorem advance_add_of_ended (m : Nat) {stop : Stop ε} (h : advance b n s = (stop, t))
    (hstop : stop ≠ .exhausted) : advance b (n + m) s = (stop, t) := by
  cases hs : s.progress.halted with
  | true =>
    rw [advance_of_halted n hs] at h
    rw [advance_of_halted _ hs, h]
  | false =>
    induction n generalizing s with
    | zero =>
      rw [advance_zero hs] at h
      exact absurd (Prod.mk.inj h).1.symm hstop
    | succ n ih =>
      rw [Nat.add_right_comm]
      rcases hstep : step b s with ⟨e | _, r⟩
      · rw [advance_succ_of_error _ hs hstep] at h ⊢
        exact h
      · rw [advance_succ_of_ok _ hs hstep] at h ⊢
        cases hr : r.progress.halted with
        | true =>
          rw [advance_of_halted n hr] at h
          rw [advance_of_halted _ hr, h]
        | false => exact ih h hr

/-- A run that is still going was so after fewer steps. -/
theorem exhausted_of_le {k : Nat} (hk : k ≤ n) (h : advance b n s = (.exhausted, t)) :
    ∃ r, advance b k s = (.exhausted, r) := by
  obtain ⟨m, rfl⟩ := Nat.exists_eq_add_of_le hk
  rcases hstop : advance b k s with ⟨stop, r⟩
  by_cases he : stop = .exhausted
  · exact ⟨r, by rw [he]⟩
  · rw [advance_add_of_ended m hstop he] at h
    exact absurd (Prod.mk.inj h).1 he

/-! ### The last step -/

section LastStep

variable {stop : Stop ε}

/-- A run that came to its end did so in one step. -/
theorem advance_eq_iff (hs : s.progress.halted = false) (hstop : stop ≠ .exhausted) :
    advance b n s = (stop, t) ↔
      ∃ k r, k < n ∧ advance b k s = (.exhausted, r) ∧ advance b 1 r = (stop, t) := by
  constructor
  · intro h
    induction n with
    | zero =>
      rw [advance_zero hs] at h
      exact absurd (Prod.mk.inj h).1.symm hstop
    | succ n ih =>
      rcases hn : advance b n s with ⟨stop', r⟩
      by_cases he : stop' = .exhausted
      · rw [he] at hn
        exact ⟨n, r, n.lt_succ_self, hn, by rw [← advance_add_of_exhausted 1 hn, h]⟩
      · -- the end had come before
        have heq := (advance_add_of_ended 1 hn he).symm.trans h
        obtain ⟨k, r, hk, hr⟩ := ih (hn.trans heq)
        exact ⟨k, r, Nat.lt_succ_of_lt hk, hr⟩
  · rintro ⟨k, r, hk, hr, hlast⟩
    obtain ⟨m, rfl⟩ := Nat.exists_eq_add_of_lt hk
    have hend := (advance_add_of_exhausted 1 hr).trans hlast
    rw [Nat.add_right_comm]
    exact advance_add_of_ended m hend hstop

theorem advance_one_eq_halted_iff (hs : s.progress.halted = false) :
    advance b 1 s = (.halted, t) ↔ step b s = (.ok (), t) ∧ t.progress.halted = true := by
  rcases hstep : step b s with ⟨e | _, r⟩
  · rw [advance_succ_of_error 0 hs hstep]
    simp
  · rw [advance_succ_of_ok 0 hs hstep]
    cases hr : r.progress.halted with
    | true =>
      rw [advance_of_halted 0 hr, Prod.mk.injEq, Prod.mk.injEq]
      exact ⟨fun h => ⟨⟨rfl, h.2⟩, h.2 ▸ hr⟩, fun h => ⟨rfl, h.1.2⟩⟩
    | false =>
      rw [advance_zero hr, Prod.mk.injEq, Prod.mk.injEq]
      exact ⟨fun h => absurd h.1 (by simp), fun h => absurd (h.1.2 ▸ hr) (by simp [h.2])⟩

theorem advance_one_eq_exhausted_iff (hs : s.progress.halted = false) :
    advance b 1 s = (.exhausted, t) ↔ step b s = (.ok (), t) ∧ t.progress.halted = false := by
  constructor
  · intro h
    obtain ⟨r, hstep, hr⟩ := step_of_exhausted h
    rw [advance_zero_of_exhausted hr]
    exact ⟨hstep, not_halted_of_exhausted hr⟩
  · rintro ⟨hstep, ht⟩
    rw [advance_succ_of_ok 0 hs hstep, advance_zero ht]

theorem advance_one_eq_failed_iff (hs : s.progress.halted = false) {e : StepError ε} :
    advance b 1 s = (.failed e, t) ↔ step b s = (.error e, t) := by
  rcases hstep : step b s with ⟨e' | _, r⟩
  · rw [advance_succ_of_error 0 hs hstep]
    simp
  · rw [advance_succ_of_ok 0 hs hstep]
    cases hr : r.progress.halted with
    | true => simp [advance_of_halted 0 hr]
    | false => simp [advance_zero hr]

theorem advance_eq_halted_iff (hs : s.progress.halted = false) :
    advance b n s = (.halted, t) ↔ ∃ k r, k < n ∧ advance b k s = (.exhausted, r) ∧
      step b r = (.ok (), t) ∧ t.progress.halted = true := by
  rw [advance_eq_iff hs (by simp)]
  exact exists_congr fun k => exists_congr fun r => and_congr_right fun _ =>
    and_congr_right fun hr => advance_one_eq_halted_iff (halted_of_exhausted hr)

theorem advance_eq_failed_iff (hs : s.progress.halted = false) {e : StepError ε} :
    advance b n s = (.failed e, t) ↔ ∃ k r, k < n ∧ advance b k s = (.exhausted, r) ∧
      step b r = (.error e, t) := by
  rw [advance_eq_iff hs (by simp)]
  exact exists_congr fun k => exists_congr fun r => and_congr_right fun _ =>
    and_congr_right fun hr => advance_one_eq_failed_iff (halted_of_exhausted hr)

theorem advance_succ_eq_exhausted_iff :
    advance b (n + 1) s = (.exhausted, t) ↔ ∃ r, advance b n s = (.exhausted, r) ∧
      step b r = (.ok (), t) ∧ t.progress.halted = false := by
  constructor
  · intro h
    obtain ⟨r, hr⟩ := exhausted_of_le n.le_succ h
    rw [advance_add_of_exhausted 1 hr, advance_one_eq_exhausted_iff (halted_of_exhausted hr)] at h
    exact ⟨r, hr, h⟩
  · rintro ⟨r, hr, h⟩
    rw [advance_add_of_exhausted 1 hr, advance_one_eq_exhausted_iff (halted_of_exhausted hr)]
    exact h

end LastStep

end LittleMan
