/-
What a grade says about the run, whatever world grades it.

* `grade_pass_iff`: a run passes in its `n`-th step, a halt, if the world expects no more;
* `grade_crash_iff`: a run crashes if the world hands over what is no word, if a departure would have
  to name a number without a text, or if the budget is used up and has no text, and for no other
  reason;
* `lt_allowance_iff`: which steps a budget allows for.
-/
import LittleMan.Grading.Grade
import LittleMan.Proofs.Run
namespace LittleMan

/-! ### Outcomes -/

theorem Outcome.verdict_eq_pass_iff {o : Outcome} : o.verdict = .pass ↔ o.flaw = none := by
  obtain ⟨_ | (_ | _ | _ | _), steps⟩ := o <;> simp [verdict]

theorem Outcome.verdict_eq_crash_iff {o : Outcome} :
    o.verdict = .crash ↔ ∃ e, o.flaw = some (.crashed e) := by
  obtain ⟨_ | (_ | _ | _ | _), steps⟩ := o <;> simp [verdict]

/-! ### Notes on a run -/

section Notes

variable {σ ε : Type} {s : Execution σ} {stop : Stop ε} {budget : Option Int}

theorem exists_runNotes (hpc : Text.HasText s.machine.pc)
    (h : ∀ limit ∈ budget, stop = .exhausted → Text.HasText limit) :
    ∃ notes, runNotes budget stop s = .ok notes := by
  rcases budget with _ | limit
  · exact ⟨[], by cases stop <;> rfl⟩
  · cases stop with
    | exhausted =>
      rw [runNotes, exhaustedNote, Text.written_of_hasText (h limit rfl rfl),
        Text.written_of_hasText hpc]
      exact ⟨_, rfl⟩
    | _ => exact ⟨[], rfl⟩

theorem runNotes_of_not_hasText {limit : Int} (hlimit : limit ∈ budget)
    (htext : ¬Text.HasText limit) : runNotes budget (.exhausted : Stop ε) s = .error {} := by
  obtain rfl := Option.mem_def.mp hlimit
  rw [runNotes, exhaustedNote, Text.written_of_not_hasText htext]
  rfl

end Notes

section Graders

variable {σ : Type} (g : Grader σ) {limit : Int} {stop : Stop Departure} {s : Execution σ}

theorem Grader.judge_eq_none_iff :
    (g.judge limit stop s).1 = none ↔
      stop = .halted ∧ s.progress.fault = none ∧ (g.finish s.world).1 = .ok () := by
  rcases stop with _ | _ | (_ | _ | _)
  case halted =>
    simp only [judge]
    rcases s.progress.fault with _ | f
    · rcases g.finish s.world with ⟨_ | _, world⟩ <;> simp
    · simp
  all_goals simp [judge]

theorem Grader.judge_eq_crashed_iff {e : StepError Departure} :
    (g.judge limit stop s).1 = some (.crashed e) ↔
      ∃ e', stop = .failed e' ∧ Flaw.ofError e' = .crashed e := by
  rcases stop with _ | _ | e'
  case halted =>
    simp only [judge]
    rcases s.progress.fault with _ | f
    · rcases g.finish s.world with ⟨_ | _, world⟩ <;> simp
    · simp
  all_goals simp [judge]

/-- An error crashes the run if it is a departure that there are no words for, or no departure. -/
theorem Flaw.ofError_eq_crashed_iff {e c : StepError Departure} :
    Flaw.ofError e = .crashed c ↔
      (∃ n, e = .refused (.unwritten n) ∧ c = .unwritten n) ∨ c = e ∧ ∀ d, e ≠ .refused d := by
  rcases e with d | v | m | n
  case refused =>
    cases d with
    | unwritten n =>
      rw [ofError, Flaw.crashed.injEq]
      exact ⟨fun h => .inl ⟨n, rfl, h.symm⟩, fun h => h.elim (fun ⟨_, _, hc⟩ => hc.symm)
        fun ⟨_, hd⟩ => absurd rfl (hd _)⟩
    | _ => simp [ofError]
  all_goals simp [ofError, eq_comm]

/-- A graded machine before its first step: its memory, and nothing else of it. -/
def Machine.start (base : Machine) (world : σ) : Execution σ :=
  { machine := { memory := base.memory }, world }

variable {g} {patience : Nat} {budget : Option Int} {base : Machine} {world : σ}

theorem inRange_of_advance {ε : Type} {b : Boundary σ ε} {k : Nat} {end' : Stop ε}
    (h : advance b k (base.start world) = (end', s)) : s.machine.InRange := by
  have hrange := inRange_advance (b := b) (s := base.start world) k base.inRange_reset
  rwa [h] at hrange

/-- A run that was not cut short, or by a budget with a text, is judged. -/
theorem outcome_grade
    (h : advance g.boundary (allowance patience budget) (base.start world) = (stop, s))
    (hnotes : ∀ limit ∈ budget, stop = .exhausted → Text.HasText limit) :
    (grade g patience budget base world).outcome =
      { flaw := (g.judge (budget.getD patience) stop s).1, steps := s.progress.steps } := by
  have hrun : run g.boundary patience budget { machine := base.reset, world } = (stop, s) := h
  obtain ⟨notes, hok⟩ := exists_runNotes (Machine.InRange.hasText (inRange_of_advance h)).1 hnotes
  rw [grade, hrun]
  simp only [hok]

/-- A budget without a text crashes the run that uses it up. -/
theorem outcome_grade_of_not_hasText {limit : Int} (hlimit : limit ∈ budget)
    (htext : ¬Text.HasText limit)
    (h : advance g.boundary (allowance patience budget) (base.start world) = (.exhausted, s)) :
    (grade g patience budget base world).outcome =
      { flaw := some (.crashed (.unwritten {})), steps := s.progress.steps } := by
  have hrun : run g.boundary patience budget { machine := base.reset, world } = (.exhausted, s) := h
  rw [grade, hrun]
  simp only [runNotes_of_not_hasText hlimit htext]

/-- The note on the budget could be taken, unless the run crashed. -/
theorem hasText_of_ne_crash
    (h : advance g.boundary (allowance patience budget) (base.start world) = (stop, s))
    (hcrash : (grade g patience budget base world).outcome.verdict ≠ .crash) :
    ∀ limit ∈ budget, stop = .exhausted → Text.HasText limit := by
  rintro limit hlimit rfl
  refine Decidable.byContradiction fun htext => hcrash (Outcome.verdict_eq_crash_iff.mpr ?_)
  rw [outcome_grade_of_not_hasText hlimit htext h]
  exact ⟨_, rfl⟩

/-- A run passes if it comes to a halt and the world expects no more. -/
theorem grade_pass_iff {n : Nat} :
    ((grade g patience budget base world).outcome.verdict = .pass ∧
        (grade g patience budget base world).outcome.steps = n) ↔
      ∃ k r, n = k + 1 ∧ k < allowance patience budget ∧
        advance g.boundary k (base.start world) = (.exhausted, r) ∧
        r.machine.effect = .halt ∧ (g.finish r.world).1 = .ok () := by
  constructor
  · rcases h : advance g.boundary (allowance patience budget) (base.start world) with ⟨stop, t⟩
    rintro ⟨hpass, rfl⟩
    have hnotes := hasText_of_ne_crash h (by simp [hpass])
    rw [Outcome.verdict_eq_pass_iff, outcome_grade h hnotes, Grader.judge_eq_none_iff] at hpass
    rw [outcome_grade h hnotes]
    obtain ⟨rfl, hfault, hfinish⟩ := hpass
    obtain ⟨k, r, hk, hr, hstep, hhalt⟩ := (advance_eq_halted_iff rfl).mp h
    have he := effect_of_halting_step hstep (halted_of_exhausted hr) hhalt hfault
    obtain rfl := (Prod.mk.inj ((step_of_halt he).symm.trans hstep)).2
    refine ⟨k, r, ?_, hk, hr, he, hfinish⟩
    rw [← Nat.zero_add k]
    exact congrArg (· + 1) (steps_of_exhausted hr)
  · rintro ⟨k, r, rfl, hk, hr, he, hfinish⟩
    have hend := (advance_eq_halted_iff rfl).mpr ⟨k, r, hk, hr, step_of_halt he, rfl⟩
    rw [Outcome.verdict_eq_pass_iff, outcome_grade hend (fun _ _ h => absurd h (by simp)),
      Grader.judge_eq_none_iff]
    refine ⟨⟨rfl, fault_of_exhausted hr, hfinish⟩, ?_⟩
    rw [← Nat.zero_add k]
    exact congrArg (· + 1) (steps_of_exhausted hr)

/-- A run that passes has come to its end. -/
theorem halted_of_pass (h : (grade g patience budget base world).outcome.verdict = .pass) :
    (advance g.boundary (allowance patience budget) (base.start world)).1 = .halted := by
  rcases hend : advance g.boundary (allowance patience budget) (base.start world) with ⟨stop, t⟩
  have hnotes := hasText_of_ne_crash hend (by simp [h])
  rw [Outcome.verdict_eq_pass_iff, outcome_grade hend hnotes, Grader.judge_eq_none_iff] at h
  exact h.1

variable (g patience budget base world) in
/-- After some steps within the budget the world hands over what is no word. -/
def HandsOverNoWord : Prop :=
  ∃ k r v, k < allowance patience budget ∧
    advance g.boundary k (base.start world) = (.exhausted, r) ∧
    r.machine.effect = .input ∧ (g.boundary.request r.world).1 = .ok v ∧ isWord v = false

variable (g patience budget base world) in
/-- After some steps within the budget there is a departure that has no words. -/
def DepartsUnwritten : Prop :=
  ∃ k r n, k < allowance patience budget ∧
    advance g.boundary k (base.start world) = (.exhausted, r) ∧
    (step g.boundary r).1 = .error (.refused (.unwritten n))

variable (g patience budget base world) in
/-- The budget has no text, and it is used up. -/
def EndsUnwritten : Prop :=
  ∃ limit ∈ budget, ¬Text.HasText limit ∧
    (advance g.boundary (allowance patience budget) (base.start world)).1 = .exhausted

/-- A step that fails within the budget ends the run, with the flaw of its error. -/
theorem flaw_of_step {k : Nat} {r : Execution σ} (hk : k < allowance patience budget)
    (hr : advance g.boundary k (base.start world) = (.exhausted, r)) {e : StepError Departure}
    (hstep : (step g.boundary r).1 = .error e) :
    (grade g patience budget base world).outcome.flaw = some (.ofError e) := by
  have hend := (advance_eq_failed_iff rfl).mpr ⟨k, r, hk, hr, Prod.ext hstep rfl⟩
  rw [outcome_grade hend (fun _ _ h => absurd h (by simp))]
  rfl

/-- A run crashes if the world hands over what is no word, or if something cannot be told. -/
theorem grade_crash_iff :
    (grade g patience budget base world).outcome.verdict = .crash ↔
      HandsOverNoWord g patience budget base world ∨ DepartsUnwritten g patience budget base world ∨
        EndsUnwritten g patience budget base world := by
  rw [Outcome.verdict_eq_crash_iff]
  constructor
  · rcases h : advance g.boundary (allowance patience budget) (base.start world) with ⟨stop, t⟩
    rintro ⟨c, hc⟩
    by_cases hnotes : ∀ limit ∈ budget, stop = .exhausted → Text.HasText limit
    · rw [outcome_grade h hnotes] at hc
      obtain ⟨e, rfl, hflaw⟩ := g.judge_eq_crashed_iff.mp hc
      obtain ⟨k, r, hk, hr, hstep⟩ := (advance_eq_failed_iff rfl).mp h
      have herror : (step g.boundary r).1 = .error e := by rw [hstep]
      rcases Flaw.ofError_eq_crashed_iff.mp hflaw with ⟨n, rfl, -⟩ | ⟨-, hrefused⟩
      · exact .inr (.inl ⟨k, r, n, hk, hr, herror⟩)
      · -- what is stored always fits
        rcases step_error_cases (inRange_of_advance hr) herror with ⟨v, he, hrequest, hword, -⟩ | ⟨d, _, rfl⟩
        · exact .inl ⟨k, r, v, hk, hr, he, hrequest, hword⟩
        · exact absurd rfl (hrefused d)
    · simp only [Classical.not_forall] at hnotes
      obtain ⟨limit, hlimit, rfl, htext⟩ := hnotes
      exact .inr (.inr ⟨limit, hlimit, htext, by rw [h]⟩)
  · rintro (⟨k, r, v, hk, hr, he, hrequest, hword⟩ | ⟨k, r, n, hk, hr, hstep⟩ |
      ⟨limit, hlimit, htext, hend⟩)
    · rw [flaw_of_step hk hr (step_eq_ofInput he hrequest hword)]
      exact ⟨_, congrArg some (Flaw.ofError_eq_crashed_iff.mpr
        (.inr ⟨rfl, StepError.ofInput_ne_refused v⟩))⟩
    · rw [flaw_of_step hk hr hstep]
      exact ⟨_, rfl⟩
    · rw [outcome_grade_of_not_hasText hlimit htext (Prod.ext hend rfl)]
      exact ⟨_, rfl⟩

theorem outcome_eq_of_memory_eq {other : Machine} (h : other.memory = base.memory) :
    (grade g patience budget other world).outcome =
      (grade g patience budget base world).outcome := by
  have hreset : other.reset = base.reset := by
    rw [Machine.reset, Machine.reset, h]
  rw [grade, grade, hreset]

end Graders

/-! ### The budget -/

/-- The budget, if there is one, allows for so many steps. -/
def Within (budget : Option Int) (n : Nat) : Prop := ∀ limit ∈ budget, (n : Int) ≤ limit

/-- Without a budget it is the patience that has to last until the run ends. -/
theorem lt_allowance_iff {σ ε : Type} {b : Boundary σ ε} {s t : Execution σ} {patience k : Nat}
    {budget : Option Int} (hk : advance b k s = (.exhausted, t))
    (hends : budget = none → (advance b (allowance patience budget) s).1 ≠ .exhausted) :
    k < allowance patience budget ↔ Within budget (k + 1) := by
  cases budget with
  | some limit =>
    simp only [Within, allowance, Option.mem_some_iff, forall_eq']
    omega
  | none =>
    refine iff_of_true (Nat.lt_of_not_le fun hle => ?_) (fun _ h => absurd h (by simp))
    obtain ⟨r, hr⟩ := exhausted_of_le hle hk
    exact hends rfl (congrArg Prod.fst hr)

end LittleMan
