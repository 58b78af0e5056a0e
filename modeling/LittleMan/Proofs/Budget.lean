/-
A budget only cuts a run short.

* `Budgeting.reaches`: a budget that allows for all steps of a run changes nothing, not even if the
  machine halts in the last step it allows for;
* `Budgeting.cuts`: a smaller budget ends the run after so many steps, with nothing reported;
* `Budgeting.resumes`: a run that was cut short goes on under a second budget as it would have gone
  on under both together, whatever its end;
* `budgeting_run`: all this holds of every state in every world.

A world may keep whatever it is asked and told, so where two runs leave the same world, their
dialogues with the boundary were the same.
-/
import LittleMan.Proofs.Steps
namespace LittleMan

variable {σ ε : Type}

/-- What budgets do to the runs from a state. -/
structure Budgeting (b : Boundary σ ε) (s : Execution σ) : Prop where
  reaches : ∀ {patience : Nat} {budget : Option Int} {t : Execution σ},
    run b patience budget s = (.halted, t) →
    ∀ (patience' : Nat) {limit : Int}, t.progress.steps ≤ limit →
      run b patience' (some limit) s = (.halted, t)
  cuts : ∀ {patience : Nat} {budget : Option Int} {t : Execution σ},
    run b patience budget s = (.halted, t) →
    ∀ (patience' : Nat) {limit : Int}, 0 ≤ limit → limit < t.progress.steps →
      ∃ r, run b patience' (some limit) s = (.exhausted, r) ∧
        repeated (step b) limit.toNat s.restart = (.ok (), r) ∧
        r.progress = { halted := false, fault := none, steps := limit.toNat }
  /-- The steps of both runs count. -/
  resumes : ∀ (patience : Nat) {n : Nat} {t : Execution σ},
    run b patience (some (n : Int)) s = (.exhausted, t) →
    ∀ (m : Nat) {stop : Stop ε} {u : Execution σ},
      run b patience (some (m : Int)) t = (stop, u) →
      run b patience (some ((n : Int) + m)) s = (stop, u.later t.progress.steps)

variable {b : Boundary σ ε} {s t : Execution σ} {patience : Nat} {budget : Option Int}

/-- The steps of a run that halted: all but the last leave the machine going. -/
theorem exists_last_of_run (h : run b patience budget s = (.halted, t)) :
    ∃ k r, t.progress.steps = k + 1 ∧ k < allowance patience budget ∧
      advance b k s.restart = (.exhausted, r) ∧ step b r = (.ok (), t) ∧
      t.progress.halted = true := by
  obtain ⟨k, r, hk, hr, hstep, ht⟩ := (advance_eq_halted_iff rfl).mp h
  refine ⟨k, r, ?_, hk, hr, hstep, ht⟩
  have hlast := steps_step b r
  rw [hstep, steps_of_exhausted hr] at hlast
  rw [hlast]
  exact congrArg (· + 1) (Nat.zero_add k)

theorem run_of_steps_le (h : run b patience budget s = (.halted, t)) {patience' : Nat}
    {budget' : Option Int} (hle : t.progress.steps ≤ allowance patience' budget') :
    run b patience' budget' s = (.halted, t) := by
  obtain ⟨k, r, hsteps, -, hr, hlast⟩ := exists_last_of_run h
  exact (advance_eq_halted_iff rfl).mpr ⟨k, r, by omega, hr, hlast⟩

theorem run_of_lt_steps (h : run b patience budget s = (.halted, t)) {patience' : Nat}
    {budget' : Option Int} (hlt : allowance patience' budget' < t.progress.steps) :
    ∃ r, run b patience' budget' s = (.exhausted, r) := by
  obtain ⟨k, r, hsteps, -, hr, -⟩ := exists_last_of_run h
  exact exhausted_of_le (by omega) hr

/-- A machine that is still going without a fault is one that was just set going, the count
apart. -/
theorem eq_later_restart (hhalted : s.progress.halted = false) (hfault : s.progress.fault = none) :
    s = s.restart.later s.progress.steps := by
  obtain ⟨machine, ⟨halted, fault, steps⟩, world⟩ := s
  cases hhalted
  cases hfault
  simp [Execution.restart, Execution.later]

theorem run_resumed {n m : Nat} (h : run b patience (some (n : Int)) s = (.exhausted, t))
    {stop : Stop ε} {u : Execution σ} (hu : run b patience (some (m : Int)) t = (stop, u)) :
    run b patience (some ((n : Int) + m)) s = (stop, u.later t.progress.steps) := by
  have hfirst : advance b n s.restart = (.exhausted, t) := h
  have hsecond : advance b m t.restart = (stop, u) := hu
  have ht : t = t.restart.later t.progress.steps :=
    eq_later_restart (halted_of_exhausted hfirst) (fault_of_exhausted hfirst)
  have hboth : allowance patience (some ((n : Int) + m)) = n + m := by
    simp only [allowance]
    omega
  calc run b patience (some ((n : Int) + m)) s
      = advance b (n + m) s.restart := by rw [run, hboth]
    _ = advance b m t := advance_add_of_exhausted m hfirst
    _ = advance b m (t.restart.later t.progress.steps) := congrArg _ ht
    _ = (stop, u.later t.progress.steps) := by rw [advance_later, hsecond]

/-- Budgets only cut runs short. -/
theorem budgeting_run (b : Boundary σ ε) (s : Execution σ) : Budgeting b s where
  reaches h patience' limit hle := run_of_steps_le h (by simp only [allowance]; omega)
  cuts {_ _ t} h patience' limit h0 hlt := by
    have hfew : allowance patience' (some limit) < t.progress.steps := by
      simp only [allowance]
      omega
    obtain ⟨r, hr⟩ := run_of_lt_steps h hfew
    refine ⟨r, hr, (advance_eq_exhausted_iff.mp hr).1, ?_⟩
    rw [progress_of_exhausted hr]
    simp [Execution.restart, allowance]
  resumes patience n t h m stop u hu := run_resumed h hu

/-- Reads a number, writes it and halts: three steps. -/
def readAndWrite : Execution Tape :=
  { machine := { memory := .ofWords [Word.wrap 901, Word.wrap 902] }, world := { pending := [4] } }

theorem budgeting_last_step :
    (run Tape.checked 9 (some 3) readAndWrite).1 = .halted ∧
      (∃ r, run Tape.checked 9 (some 2) readAndWrite = (.exhausted, r) ∧ r.progress.steps = 2) ∧
      ∃ r, run Tape.checked 9 (some 0) readAndWrite = (.exhausted, r) ∧ r.progress.steps = 0 := by
  have hends : run Tape.checked 9 none readAndWrite =
      (.halted, (run Tape.checked 9 none readAndWrite).2) := by
    decide +kernel
  have hsteps : (run Tape.checked 9 none readAndWrite).2.progress.steps = 3 := by decide +kernel
  have hbudget := budgeting_run Tape.checked readAndWrite
  have hcut : ∀ limit : Nat, limit < 3 →
      ∃ r, run Tape.checked 9 (some limit) readAndWrite = (.exhausted, r) ∧
        r.progress.steps = limit := by
    intro limit hlimit
    obtain ⟨r, hr, -, hprogress⟩ := hbudget.cuts hends 9 (Int.natCast_nonneg limit) (by omega)
    exact ⟨r, hr, congrArg Progress.steps hprogress⟩
  exact ⟨congrArg Prod.fst (hbudget.reaches hends 9 (by omega)), hcut 2 (by omega),
    hcut 0 (by omega)⟩

end LittleMan
