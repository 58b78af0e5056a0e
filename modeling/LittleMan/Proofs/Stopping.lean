/-
What a run that has returned tells about its end.

The end is reported after the fact: the box that stopped the machine is the one before the counter,
and its word is read there. That is right because a step that stops the machine neither jumps nor
stores.

* `Boundary.logged`: a boundary that keeps the lines that faults are reported in;
* `Ending`: what a stopped machine leaves behind for the word that stopped it;
* `LastStep.machine_eq`: a step that stops a machine changes nothing in it but the counter;
* `LastStep.ending`: it leaves the ending of the word that it fetched;
* `ending_of_run`: so does a run that halts;
* `silent_of_run`: a run that was cut short leaves nothing behind;
* `tellsEnd_of_run`: all this of any run that has returned, in terms of what is left after it.
-/
import LittleMan.Proofs.Budget
namespace LittleMan

variable {σ ε : Type}

/-! ### Lines in the log -/

/-- A boundary that keeps the lines that are sent to it, in front of the world. -/
def Boundary.logged (b : Boundary σ ε) : Boundary (List String × σ) ε where
  request w := ((b.request w.2).1, w.1, (b.request w.2).2)
  emit v w := ((b.emit v w.2).1, w.1, (b.emit v w.2).2)
  report f w := ((b.report f w.2).1, w.1 ++ [f.message], (b.report f w.2).2)

/-- An execution in a world where some lines were sent. -/
def Execution.logged (lines : List String) (s : Execution σ) : Execution (List String × σ) :=
  { machine := s.machine, progress := s.progress, world := (lines, s.world) }

/-- The lines that the next step sends. -/
def Machine.complaint (m : Machine) : List String :=
  if m.effect = .fault ∧ Text.HasText m.pc then [Fault.message ⟨m.pc, m.fetched.val⟩] else []

variable {b : Boundary σ ε} {s t : Execution σ} {n : Nat}

theorem Boundary.request_logged {w w₁ : σ} {r : Except ε Int} (h : b.request w = (r, w₁))
    (lines : List String) : b.logged.request (lines, w) = (r, lines, w₁) := by
  simp only [logged, h]

theorem Boundary.emit_logged {w w₁ : σ} {v : Int} {r : Except ε Unit} (h : b.emit v w = (r, w₁))
    (lines : List String) : b.logged.emit v (lines, w) = (r, lines, w₁) := by
  simp only [logged, h]

theorem Boundary.report_logged {w w₁ : σ} {f : Fault} {r : Except ε Unit}
    (h : b.report f w = (r, w₁)) (lines : List String) :
    b.logged.report f (lines, w) = (r, lines ++ [f.message], w₁) := by
  simp only [logged, h]

theorem Machine.complaint_of_ne {m : Machine} (h : m.effect ≠ .fault) : m.complaint = [] :=
  if_neg fun hc => h hc.1

/-- Keeping the lines changes nothing else. -/
theorem step_logged (b : Boundary σ ε) (s : Execution σ) (lines : List String) :
    step b.logged (s.logged lines) =
      ((step b s).1, (step b s).2.logged (lines ++ s.machine.complaint)) := by
  have hsilent : s.machine.effect ≠ .fault → lines ++ s.machine.complaint = lines :=
    fun h => by rw [Machine.complaint_of_ne h, List.append_nil]
  have hr := stepped_step b s
  generalize step b s = r at hr ⊢
  cases hr with
  | move he =>
    rw [hsilent (by simp [he]), step_of_move (s := s.logged lines) he]
    rfl
  | halt he =>
    rw [hsilent (by simp [he]), step_of_halt (s := s.logged lines) he]
    rfl
  | fault he hpc hb =>
    rw [Machine.complaint, if_pos ⟨he, hpc⟩,
      step_of_fault (s := s.logged lines) he hpc (b.report_logged hb lines)]
    rfl
  | unwritten he hpc =>
    rw [Machine.complaint, if_neg fun hc => hpc hc.2, List.append_nil,
      step_of_fault_unwritten (s := s.logged lines) he hpc]
    rfl
  | input he hb hv =>
    rw [hsilent (by simp [he]),
      step_of_input (s := s.logged lines) he (b.request_logged hb lines), if_pos hv]
    rfl
  | outOfRange he hb hv =>
    rw [hsilent (by simp [he]),
      step_of_input (s := s.logged lines) he (b.request_logged hb lines), if_neg (by simp [hv])]
    rfl
  | refused he hb =>
    rw [hsilent (by simp [he]),
      step_of_input_refused (s := s.logged lines) he (b.request_logged hb lines)]
    rfl
  | output he hb =>
    rw [hsilent (by simp [he]),
      step_of_output (s := s.logged lines) he (b.emit_logged hb lines)]
    rfl
  | spill he =>
    rw [hsilent (by simp [he]), step_of_spill (s := s.logged lines) he]
    rfl

/-- A step that leaves the machine going sends no line. -/
theorem complaint_of_going (h : step b s = (.ok (), t)) (ht : t.progress.halted = false) :
    s.machine.complaint = [] := by
  refine if_neg fun ⟨he, hpc⟩ => ?_
  rw [step_of_fault he hpc rfl] at h
  rw [← (Prod.mk.inj h).2] at ht
  exact absurd ht (by simp [Execution.stopped])

theorem advance_logged (h : advance b n s = (.exhausted, t)) (lines : List String) :
    advance b.logged n (s.logged lines) = (.exhausted, t.logged lines) := by
  induction n generalizing s with
  | zero =>
    have hgoing := not_halted_of_exhausted h
    rw [advance_zero_of_exhausted h]
    exact advance_zero (s := s.logged lines) hgoing
  | succ n ih =>
    have hgoing := not_halted_of_exhausted h
    obtain ⟨r, hstep, hr⟩ := step_of_exhausted h
    have hlogged := step_logged b s lines
    rw [hstep, complaint_of_going hstep (not_halted_of_exhausted hr), List.append_nil] at hlogged
    exact (advance_succ_of_ok n (s := s.logged lines) hgoing hlogged).trans (ih hr)

/-! ### The last step -/

/-- What a word that stopped the machine leaves behind: the fault, and the lines sent. -/
inductive Ending (box : Int) (word : Word) : Option Fault → List String → Prop where
  | halt (h : word.val < 100) : Ending box word none []
  | fault (h : 400 ≤ word.val ∧ word.val ≤ 499 ∨ word.val = 900 ∨
        903 ≤ word.val ∧ word.val ≤ 999) :
      Ending box word (some ⟨box, word.val⟩)
        ["Unknown instruction " ++ Text.padded 3 word.val ++ " in box " ++ Text.padded 2 box]

/-- The machine came to `r`, still going, and its next step stopped it. -/
structure LastStep (b : Boundary σ ε) (s r t : Execution σ) : Prop where
  /-- All the steps before. -/
  before : ∃ k, repeated (step b) k s = (.ok (), r)
  going : r.progress.halted = false
  step : step b r = (.ok (), t)
  halted : t.progress.halted = true

variable {r : Execution σ}

/-- A step that stops the machine goes on to the next box and does nothing else to it. -/
theorem LastStep.machine_eq (h : LastStep b s r t) : t.machine = r.machine.advanced := by
  obtain ⟨machine, world, rfl⟩ | ⟨-, rfl⟩ | ⟨-, -, world, rfl⟩ := step_ok_cases h.step
  · exact absurd (h.going.symm.trans h.halted) (by simp)
  · rfl
  · rfl

theorem wrap_pred_advanced (m : Machine) :
    Address.wrap (m.advanced.pc - 1) = Address.wrap m.pc := by
  apply Fin.ext
  simp only [Machine.advanced, Address.wrap]
  omega

theorem LastStep.ending (h : LastStep b s r t) (hfault : r.progress.fault = none) :
    Ending r.machine.pc r.machine.fetched t.progress.fault r.machine.complaint := by
  obtain ⟨machine, world, rfl⟩ | ⟨he, rfl⟩ | ⟨he, hpc, world, rfl⟩ := step_ok_cases h.step
  · exact absurd (h.going.symm.trans h.halted) (by simp)
  · have hsilent : r.machine.complaint = [] := Machine.complaint_of_ne (by simp [he])
    rw [hsilent, show (r.stopped r.progress.fault r.world).progress.fault = none from hfault]
    exact .halt (Machine.effect_eq_halt_iff.mp he)
  · have hlt := r.machine.fetched.isLt
    rw [Machine.complaint, if_pos ⟨he, hpc⟩]
    refine .fault ?_
    have := Machine.effect_eq_fault_iff.mp he
    omega

/-! ### Runs -/

/-- The run has returned: the machine has halted, or a budget is used up. When it is only the
patience that has come to an end, a run without a budget is still going. -/
def Returned (budget : Option Int) (stop : Stop ε) : Prop :=
  stop = .halted ∨ stop = .exhausted ∧ budget ≠ none

/-- What a run that has returned tells of its end. -/
structure TellsEnd (b : Boundary σ ε) (patience : Nat) (budget : Option Int) (s : Execution σ)
    (stop : Stop ε) (t : Execution σ) : Prop where
  /-- It was cut short by its budget, which it used up, and says nothing. -/
  cut : t.progress.halted = false → ∃ limit, budget = some limit ∧
    (t.progress.steps : Int) = max limit 0 ∧ t.progress.fault = none ∧
    run b.logged patience budget (s.logged []) = (stop, t.logged [])
  /-- It was stopped by the word that stands one box before the counter, and says so. -/
  stopped : t.progress.halted = true → ∃ r lines, LastStep b s.restart r t ∧
    r.machine.pc = (t.machine.pc - 1) % 100 ∧
    r.machine.fetched = t.machine.memory.read ((t.machine.pc - 1) % 100) ∧
    run b.logged patience budget (s.logged []) = (stop, t.logged lines) ∧
    Ending ((t.machine.pc - 1) % 100) (t.machine.memory.read ((t.machine.pc - 1) % 100))
      t.progress.fault lines

/-- A step leaves the counter at a box. -/
theorem counter_step (h : step b s = (.ok (), t)) : 0 ≤ t.machine.pc ∧ t.machine.pc ≤ 99 := by
  have hr := stepped_step b s
  rw [h] at hr
  generalize hx : (Except.ok (), t) = x at hr
  obtain rfl : x.2 = t := by rw [← hx]
  cases hr with
  | move he => exact Machine.counter_of_move he
  | _ => exact Machine.counter_advanced s.machine

theorem counter_repeated (hs : 0 ≤ s.machine.pc ∧ s.machine.pc ≤ 99)
    (h : repeated (step b) n s = (.ok (), t)) : 0 ≤ t.machine.pc ∧ t.machine.pc ≤ 99 :=
  repeated_keeps (p := fun r => 0 ≤ r.machine.pc ∧ r.machine.pc ≤ 99)
    (fun _ _ _ hstep => counter_step hstep) hs h

variable {patience : Nat} {budget : Option Int}

/-- A run that was cut short took all its steps and left nothing behind. -/
theorem silent_of_run (h : run b patience budget s = (.exhausted, t)) :
    t.progress = { halted := false, fault := none, steps := allowance patience budget } ∧
      run b.logged patience budget (s.logged []) = (.exhausted, t.logged []) := by
  refine ⟨?_, advance_logged h []⟩
  rw [progress_of_exhausted h]
  simp [Execution.restart]

/-- A run that halted leaves the ending of the word that its last step fetched. -/
theorem ending_of_run (h : run b patience budget s = (.halted, t)) :
    ∃ r, LastStep b s.restart r t ∧ ∃ lines,
      run b.logged patience budget (s.logged []) = (.halted, t.logged lines) ∧
        Ending r.machine.pc r.machine.fetched t.progress.fault lines := by
  obtain ⟨k, r, -, hk, hr, hstep, ht⟩ := exists_last_of_run h
  have hlast : LastStep b s.restart r t :=
    ⟨⟨k, (advance_eq_exhausted_iff.mp hr).1⟩, halted_of_exhausted hr, hstep, ht⟩
  refine ⟨r, hlast, r.machine.complaint, ?_, hlast.ending (fault_of_exhausted hr)⟩
  have hlogged := step_logged b r []
  rw [hstep, List.nil_append] at hlogged
  exact (advance_eq_halted_iff rfl).mpr ⟨k, _, hk, advance_logged hr [], hlogged, ht⟩

theorem LastStep.pc_eq (h : LastStep b s r t) (hs : 0 ≤ s.machine.pc ∧ s.machine.pc ≤ 99) :
    r.machine.pc = (t.machine.pc - 1) % 100 := by
  obtain ⟨k, hk⟩ := h.before
  have hr := counter_repeated hs hk
  rw [h.machine_eq]
  simp only [Machine.advanced, Address.wrap_val]
  omega

/-- Whatever ends a run, its end is told as it was. -/
theorem tellsEnd_of_run (hpc : 0 ≤ s.machine.pc ∧ s.machine.pc ≤ 99) {stop : Stop ε}
    (h : run b patience budget s = (stop, t)) (hreturned : Returned budget stop) :
    TellsEnd b patience budget s stop t := by
  rcases hreturned with rfl | ⟨rfl, hbudget⟩
  · obtain ⟨r, hlast, lines, hlogged, hending⟩ := ending_of_run h
    have hbox := hlast.pc_eq hpc
    have hword : r.machine.fetched = t.machine.memory.read ((t.machine.pc - 1) % 100) := by
      rw [← hbox, hlast.machine_eq]
      rfl
    refine ⟨fun hgoing => absurd (hgoing.symm.trans hlast.halted) (by simp), fun _ => ?_⟩
    rw [hword, hbox] at hending
    exact ⟨r, lines, hlast, hbox, hword, hlogged, hending⟩
  · obtain ⟨hprogress, hlogged⟩ := silent_of_run h
    obtain ⟨limit, rfl⟩ := Option.ne_none_iff_exists'.mp hbudget
    refine ⟨fun _ => ⟨limit, rfl, ?_, by rw [hprogress], hlogged⟩, fun hhalted => ?_⟩
    · rw [hprogress]
      simp only [allowance]
      omega
    · exact absurd (hhalted.symm.trans (congrArg Progress.halted hprogress)) (by simp)

end LittleMan
