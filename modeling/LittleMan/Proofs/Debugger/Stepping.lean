/-
Three commands that let the machine step.

The empty line takes one step, `run` takes steps until the machine has halted, and `runto` until the
counter is at a point. In a session that is going they agree:

* `Underway.going`: as long as every fault can be reported, a session that has not halted is going,
  whatever command lines came before;
* `repeated_emptyLine_iff`: empty lines bring a session as far as the machine;
* `runToEnd_of_firstAt`: `run` ends like as many empty lines as it takes to halt;
* `stepsTo_eq_ok_iff`: `runto` takes as many empty lines as it takes to arrive;
* `Beside.emptyLine`: lines that are only shown make no difference to a step;
* `stepping_agrees`: all this together.

`run` counts its steps afresh, so the count is the one thing that it and the empty lines leave
different.
-/
import LittleMan.Debugger.Rehearsal
import LittleMan.Proofs.Budget
import LittleMan.Proofs.Debugger.Progress
import LittleMan.Proofs.Imitation
import LittleMan.Proofs.Results
namespace LittleMan.Debugger

open Text

/-- What is shown is kept apart from the machine's boundary: worlds that differ in it correspond,
and the boundary answers alike in worlds that correspond. -/
structure Host.Apart {σ ε : Type} (h : Host σ ε) (corr : σ → σ → Prop) : Prop where
  symm : ∀ {w w'}, corr w w' → corr w' w
  imitates : Imitates h.boundary h.boundary corr
  echo : ∀ line w, corr w (h.echo line w)

namespace Session

variable {σ ε : Type} {h : Host σ ε} {s t u v : Session σ} {patience n k : Nat} {target : Int}

/-! ### Sessions that are going -/

/-- No command line sets a session going again. -/
theorem halted_execute (hs : s.halted = true) (line : String) :
    (s.execute h patience line).2.halted = true := by
  have hlasting : Lasting fun t : Session σ => t.halted = true := ⟨fun _ ht => ht, fun _ => rfl⟩
  rw [execute]
  split
  · next command _ =>
    cases hc : command.moves with
    | false => exact (Idle.perform h s patience hc).halted.trans hs
    | true => exact hlasting.perform hs patience hc
  · exact hs

/-- The sessions that command lines lead to, also those that failed. Between two lines the machine
and the world may be exchanged. -/
inductive Underway (h : Host σ ε) : Session σ → Prop where
  | start (m : Machine) (world : σ) (tags : TagTable) :
      Underway h { execution := { machine := m, world }, tags }
  | execute {s : Session σ} (hs : Underway h s) (patience : Nat) (line : String) :
      Underway h (s.execute h patience line).2
  | withMachine {s : Session σ} (hs : Underway h s) (m : Machine) : Underway h (s.withMachine m)
  | withWorld {s : Session σ} (hs : Underway h s) (w : σ) : Underway h (s.withWorld w)

/-- Where every fault can be reported, the machine of a session that has not halted is going. -/
theorem Underway.going (hreport : ∀ f w, (h.boundary.report f w).1 = .ok ())
    (hs : Underway h s) (hhalted : s.halted = false) : s.Going := by
  induction hs with
  | start => exact ⟨rfl, rfl, rfl⟩
  | @execute s hs patience line ih =>
    have hbefore : s.halted = false := Bool.eq_false_iff.mpr fun hs' =>
      absurd (hhalted.symm.trans (halted_execute hs' line)) (by simp)
    obtain ⟨x, -, hleads⟩ := leads_execute (h := h) (ih hbefore) patience line
    generalize (s.execute h patience line).1 = answer at hleads
    cases hleads with
    | going hgoing => exact hgoing
    | stopped hstops => exact absurd (hhalted.symm.trans hstops.halted) (by simp)
    | unreported hrefused => exact absurd ((hreport _ _).symm.trans hrefused) (by simp)
  | withMachine _ m ih => exact (ih hhalted).of_idle ⟨rfl, rfl⟩
  | withWorld _ w ih => exact (ih hhalted).of_idle ⟨rfl, rfl⟩

/-! ### Empty lines -/

/-- Carries out the empty command line. -/
def emptyLine (h : Host σ ε) (patience : Nat) (s : Session σ) : Except (Error ε) Unit × Session σ :=
  s.execute h patience ""

theorem emptyLine_eq (patience : Nat) (s : Session σ) :
    s.emptyLine h patience = s.stepOnce h := by
  have hparse : Command.parse "" = some .step := by decide +kernel
  rw [emptyLine, execute, hparse]
  rfl

/-- The session brought to where its machine has come. -/
def reached (s : Session σ) (x : Execution σ) : Session σ :=
  { s with
    execution := x
    halted := s.halted || x.progress.halted
    finished := s.finished || x.progress.halted }

theorem reached_self (hs : s.execution.progress.halted = false) : s.reached s.execution = s := by
  simp only [reached, hs, Bool.or_false]

theorem emptyLine_eq_ok_iff :
    s.emptyLine h patience = (.ok (), v) ↔
      ∃ x, step h.boundary s.execution = (.ok (), x) ∧ v = s.reached x := by
  rw [emptyLine_eq, stepOnce]
  rcases step h.boundary s.execution with ⟨e | _, next⟩
  · simp
  · cases hnext : next.progress.halted <;> simp [reached, ended, hnext, eq_comm]

theorem reached_reached {x y : Execution σ} (hstep : step h.boundary x = (.ok (), y)) :
    (s.reached x).reached y = s.reached y := by
  have hor : (x.progress.halted || y.progress.halted) = y.progress.halted := by
    cases hx : x.progress.halted with
    | false => rfl
    | true =>
      have hy := halted_step (b := h.boundary) hx
      rw [hstep] at hy
      exact hy.symm
  simp only [reached, Bool.or_assoc, hor]

/-- Empty lines bring the session as far as the machine. -/
theorem repeated_emptyLine_iff (hs : s.execution.progress.halted = false) :
    repeated (emptyLine h patience) n s = (.ok (), v) ↔
      ∃ x, repeated (step h.boundary) n s.execution = (.ok (), x) ∧ v = s.reached x := by
  induction n generalizing v with
  | zero =>
    simp only [repeated_zero_iff, exists_eq_left', reached_self hs]
    exact eq_comm
  | succ n ih =>
    simp only [repeated_succ_iff_last]
    constructor
    · rintro ⟨r, hr, hlast⟩
      obtain ⟨x, hx, rfl⟩ := ih.mp hr
      obtain ⟨y, hy, rfl⟩ := emptyLine_eq_ok_iff.mp hlast
      exact ⟨y, ⟨x, hx, hy⟩, reached_reached hy⟩
    · rintro ⟨y, ⟨x, hx, hy⟩, rfl⟩
      exact ⟨s.reached x, ih.mpr ⟨x, hx, rfl⟩,
        emptyLine_eq_ok_iff.mpr ⟨y, hy, (reached_reached hy).symm⟩⟩

/-! ### Running -/

/-- The machine has halted. -/
def HasHalted (s : Session σ) : Prop := s.execution.progress.halted = true

/-- Empty lines first halt the machine in the step that its runs halt in. -/
theorem firstAt_hasHalted_iff (hs : s.Going) :
    FirstAt (emptyLine h patience) HasHalted s n v ↔
      ∃ m r y, n = m + 1 ∧ advance h.boundary m s.execution = (.exhausted, r) ∧
        step h.boundary r = (.ok (), y) ∧ y.progress.halted = true ∧ v = s.reached y := by
  have hgoing := hs.machine.halted
  constructor
  · intro hfirst
    obtain ⟨m, rfl⟩ := Nat.exists_eq_add_of_le' hfirst.pos
    obtain ⟨y, hy, rfl⟩ := (repeated_emptyLine_iff hgoing).mp hfirst.reaches
    obtain ⟨r, hr, hstep⟩ := repeated_succ_iff_last.mp hy
    have hrgoing : r.progress.halted = false := by
      rcases Nat.eq_zero_or_pos m with rfl | hpos
      · rw [← repeated_zero_iff.mp hr]
        exact hgoing
      · have hreaches : repeated (emptyLine h patience) m s = (.ok (), s.reached r) :=
          (repeated_emptyLine_iff hgoing).mpr ⟨r, hr, rfl⟩
        exact Bool.eq_false_iff.mpr (hfirst.first hpos m.lt_succ_self hreaches)
    exact ⟨m, r, y, rfl, advance_eq_exhausted_iff.mpr ⟨hr, hrgoing⟩, hstep, hfirst.holds, rfl⟩
  · rintro ⟨m, r, y, rfl, hr, hstep, hy, rfl⟩
    have hall : repeated (step h.boundary) (m + 1) s.execution = (.ok (), y) :=
      repeated_succ_iff_last.mpr ⟨r, (advance_eq_exhausted_iff.mp hr).1, hstep⟩
    refine ⟨Nat.le_add_left 1 m, (repeated_emptyLine_iff hgoing).mpr ⟨y, hall, rfl⟩, hy,
      fun {j w} _ hlt hw => ?_⟩
    -- a run that is still going was so after fewer steps
    obtain ⟨x, hx, rfl⟩ := (repeated_emptyLine_iff hgoing).mp hw
    obtain ⟨q, hq⟩ := exhausted_of_le (Nat.le_of_lt_succ hlt) hr
    obtain ⟨hsteps, hqgoing⟩ := advance_eq_exhausted_iff.mp hq
    obtain rfl := (Prod.mk.inj (hx.symm.trans hsteps)).2
    exact Bool.eq_false_iff.mp hqgoing

/-- A run from a machine that is going takes the same steps, and counts them afresh. -/
theorem advance_eq_run_later (b : Boundary σ ε) (patience : Nat) {x : Execution σ}
    (hx : x.progress.Going) :
    advance b patience x =
      ((run b patience none x).1, (run b patience none x).2.later x.progress.steps) := by
  rw [run, ← advance_later, ← eq_later_restart hx.halted hx.fault]
  rfl

/-- Two sessions have come to the same end. -/
structure SameEnd (u v : Session σ) : Prop where
  machine : u.machine = v.machine
  world : u.execution.world = v.execution.world
  fault : u.execution.progress.fault = v.execution.progress.fault
  halted : u.halted = true ∧ v.halted = true
  finished : u.finished = true ∧ v.finished = true

/-- A run ends like as many empty lines as it takes to halt. -/
theorem runToEnd_of_firstAt (hs : s.Going)
    (hfirst : FirstAt (emptyLine h patience) HasHalted s n v) (hn : n ≤ patience) :
    ∃ u, s.runToEnd h patience = (.ok (), u) ∧ SameEnd u v := by
  obtain ⟨m, r, y, rfl, hr, hstep, hy, rfl⟩ := (firstAt_hasHalted_iff hs).mp hfirst
  have hsteps : advance h.boundary patience s.execution = (.halted, y) :=
    (advance_eq_halted_iff hs.machine.halted).mpr ⟨m, r, hn, hr, hstep, hy⟩
  rw [advance_eq_run_later _ _ hs.machine] at hsteps
  rcases hrun : run h.boundary patience none s.execution with ⟨stop, x⟩
  rw [hrun] at hsteps
  obtain ⟨rfl, rfl⟩ := Prod.mk.inj hsteps
  have hflag : ∀ flag : Bool, (flag || x.progress.halted) = true :=
    fun flag => Bool.or_eq_true_iff.mpr (.inr hy)
  exact ⟨({ s with execution := x } : Session σ).ended, by rw [runToEnd, hrun],
    ⟨rfl, rfl, rfl, ⟨rfl, hflag s.halted⟩, ⟨rfl, hflag s.finished⟩⟩⟩

/-- A run comes to its end only if empty lines do. -/
theorem firstAt_of_runToEnd (hs : s.Going) (hrun : s.runToEnd h patience = (.ok (), u)) :
    ∃ n v, n ≤ patience ∧ FirstAt (emptyLine h patience) HasHalted s n v := by
  have hsteps := advance_eq_run_later h.boundary patience hs.machine
  rw [runToEnd] at hrun
  rcases hstop : run h.boundary patience none s.execution with ⟨_ | _ | e, x⟩ <;>
    rw [hstop] at hrun
  · rw [hstop] at hsteps
    obtain ⟨m, r, hm, hr, hstep, hy⟩ := (advance_eq_halted_iff hs.machine.halted).mp hsteps
    exact ⟨m + 1, _, hm, (firstAt_hasHalted_iff hs).mpr ⟨m, r, _, rfl, hr, hstep, hy, rfl⟩⟩
  · exact absurd (Prod.mk.inj hrun).1 (by simp)
  · exact absurd (Prod.mk.inj hrun).1 (by simp)

/-! ### Running to a point -/

/-- The counter is at the target, or the machine has halted. -/
def Arrived (target : Int) (s : Session σ) : Prop := s.machine.pc = target ∨ s.HasHalted

/-- Steps to a target are empty lines up to the first that arrives there. -/
theorem stepsTo_eq_ok_iff {patience' executed : Nat} :
    s.stepsTo h target patience executed = (.ok n, t) ↔
      ∃ k, FirstAt (emptyLine h patience') (Arrived target) s k t ∧ k ≤ patience ∧
        n = executed + k := by
  induction patience generalizing s executed with
  | zero =>
    constructor
    · intro h
      exact absurd (Prod.mk.inj h).1 (by simp)
    · rintro ⟨k, hfirst, hk, -⟩
      exact absurd hfirst.pos (by omega)
  | succ patience ih =>
    rw [stepsTo]
    rcases hnext : s.stepOnce h with ⟨e | _, next⟩ <;> rw [← emptyLine_eq patience'] at hnext
    · constructor
      · intro h
        exact absurd (Prod.mk.inj h).1 (by simp)
      · rintro ⟨k, hfirst, -, -⟩
        obtain ⟨r, hr⟩ := hfirst.exists_act
        exact absurd (hnext.symm.trans hr) (by simp)
    · dsimp only
      by_cases harrived : Arrived target next
      · rw [if_pos (by simpa [Arrived, HasHalted, or_comm] using harrived)]
        constructor
        · intro h
          obtain ⟨hn, rfl⟩ := Prod.mk.inj h
          exact ⟨1, (FirstAt.iff_of_holds hnext harrived).mpr ⟨rfl, rfl⟩, Nat.le_add_left 1 patience,
            (Except.ok.inj hn).symm⟩
        · rintro ⟨k, hfirst, -, rfl⟩
          obtain ⟨rfl, rfl⟩ := (FirstAt.iff_of_holds hnext harrived).mp hfirst
          rfl
      · rw [if_neg (by simpa [Arrived, HasHalted, or_comm] using harrived), ih]
        -- the first arrival from here is one step later from where this step began
        constructor
        · rintro ⟨k, hfirst, hk, rfl⟩
          exact ⟨k + 1, (FirstAt.iff_of_not hnext harrived).mpr ⟨k, rfl, hfirst⟩,
            Nat.succ_le_succ hk, by omega⟩
        · rintro ⟨k, hfirst, hk, rfl⟩
          obtain ⟨m, rfl, hm⟩ := (FirstAt.iff_of_not hnext harrived).mp hfirst
          exact ⟨m, hm, Nat.le_of_succ_le_succ hk, by omega⟩

theorem runTo_eq_ok_iff :
    s.runTo h patience target = (.ok (), u) ↔
      ∃ k v, FirstAt (emptyLine h patience) (Arrived target)
          (s.echo h ("Stepping to " ++ padded 2 target)) k v ∧
        k ≤ patience ∧ u = v.echo h ("Stepped " ++ toString k ++ " instructions") := by
  rw [runTo]
  constructor
  · intro hu
    split at hu
    · exact absurd (Prod.mk.inj hu).1 (by simp)
    · next n v hsteps =>
      obtain ⟨k, hfirst, hk, rfl⟩ := stepsTo_eq_ok_iff.mp hsteps
      rw [Nat.zero_add] at hu
      exact ⟨k, v, hfirst, hk, (Prod.mk.inj hu).2.symm⟩
  · rintro ⟨k, v, hfirst, hk, rfl⟩
    have hsteps := stepsTo_eq_ok_iff.mpr ⟨k, hfirst, hk, (Nat.zero_add k).symm⟩
    rw [hsteps]

theorem execute_of_runTo {line point : String} (hparse : Command.parse line = some (.runTo point))
    (hpoint : s.resolve point = .ok (some target)) :
    s.execute h patience line = s.runTo h patience target := by
  rw [execute, hparse]
  simp only [perform, withPoint, hpoint]

/-- Steps to a target end the session if the machine has halted, and only then. -/
theorem runTo_ends (hs : s.Going) (hfinished : s.finished = false)
    (hu : s.runTo h patience target = (.ok (), u)) :
    (u.halted = true ↔ u.HasHalted) ∧ (u.finished = true ↔ u.HasHalted) := by
  obtain ⟨k, v, hfirst, -, rfl⟩ := runTo_eq_ok_iff.mp hu
  have hshown := hs.of_idle (Idle.echo h s ("Stepping to " ++ padded 2 target))
  obtain ⟨x, -, rfl⟩ := (repeated_emptyLine_iff hshown.machine.halted).mp hfirst.reaches
  simp [reached, HasHalted, echo, withWorld, hs.session, hfinished]

/-! ### What is shown -/

/-- The same session, in two worlds that correspond. -/
structure Beside (corr : σ → σ → Prop) (s t : Session σ) : Prop where
  execution : LittleMan.Beside corr s.execution t.execution
  tags : t.tags = s.tags
  saved : t.saved = s.saved
  halted : t.halted = s.halted
  finished : t.finished = s.finished

namespace Beside

variable {corr : σ → σ → Prop}

theorem reached {x y : Execution σ} (hst : Beside corr s t) (hxy : LittleMan.Beside corr x y) :
    Beside corr (s.reached x) (t.reached y) where
  execution := hxy
  tags := hst.tags
  saved := hst.saved
  halted := by simp only [Session.reached, hst.halted, hxy.progress]
  finished := by simp only [Session.reached, hst.finished, hxy.progress]

theorem arrived_iff (hst : Beside corr s t) : Arrived target s ↔ Arrived target t := by
  simp only [Arrived, HasHalted, machine, hst.execution.machine, hst.execution.progress]

/-- An empty line does alike in worlds that correspond. -/
theorem emptyLine (happart : h.Apart corr) (hst : Beside corr s t)
    (hs : s.emptyLine h patience = (.ok (), u)) :
    ∃ v, t.emptyLine h patience = (.ok (), v) ∧ Beside corr u v := by
  obtain ⟨x, hx, rfl⟩ := emptyLine_eq_ok_iff.mp hs
  obtain ⟨y, hy, hxy⟩ := happart.imitates.step hst.execution hx
  exact ⟨t.reached y, emptyLine_eq_ok_iff.mpr ⟨y, hy, rfl⟩, hst.reached hxy⟩

/-- So do empty lines that lead to a target. -/
theorem firstAt (happart : h.Apart corr) (hst : Beside corr s t)
    (hs : FirstAt (Session.emptyLine h patience) (Arrived target) s k u) :
    ∃ v, FirstAt (Session.emptyLine h patience) (Arrived target) t k v ∧ Beside corr u v :=
  hs.along (R := Beside corr) (fun hrq hr => hrq.emptyLine happart hr) arrived_iff hst

theorem echo (happart : h.Apart corr) (s : Session σ) (line : String) :
    Beside corr s (s.echo h line) :=
  ⟨⟨rfl, rfl, happart.echo line _⟩, rfl, rfl, rfl, rfl⟩

theorem of_echo (happart : h.Apart corr) (s : Session σ) (line : String) :
    Beside corr (s.echo h line) s :=
  ⟨⟨rfl, rfl, happart.symm (happart.echo line _)⟩, rfl, rfl, rfl, rfl⟩

end Beside

/-! ### Agreement -/

/-- The commands that step agree on a session. -/
structure SteppingAgrees (h : Host σ ε) (s : Session σ) : Prop where
  /-- `run` ends like the empty lines up to the first that halts the machine. -/
  run : ∀ {line : String}, Command.parse line = some .run →
    ∀ {patience n : Nat} {v : Session σ},
      FirstAt (emptyLine h patience) HasHalted s n v → n ≤ patience →
        ∃ u, s.execute h patience line = (.ok (), u) ∧ SameEnd u v
  /-- It ends only if they do. -/
  run_only : ∀ {line : String}, Command.parse line = some .run →
    ∀ {patience : Nat} {u : Session σ}, s.execute h patience line = (.ok (), u) →
      ∃ n v, n ≤ patience ∧ FirstAt (emptyLine h patience) HasHalted s n v
  /-- `runto` shows a line, does as the empty lines up to the first that arrives, and shows how many
  they were. It does not come to its end if none of them arrives. -/
  runTo : ∀ {line point : String} {target : Int}, Command.parse line = some (.runTo point) →
    s.resolve point = .ok (some target) → ∀ {patience : Nat} {u : Session σ},
      s.execute h patience line = (.ok (), u) ↔
        ∃ k v, FirstAt (emptyLine h patience) (Arrived target)
            (s.echo h ("Stepping to " ++ padded 2 target)) k v ∧
          k ≤ patience ∧ u = v.echo h ("Stepped " ++ toString k ++ " instructions")
  /-- It ends the session if its last step halts the machine, and only then. -/
  runTo_ends : ∀ {line point : String} {target : Int}, Command.parse line = some (.runTo point) →
    s.resolve point = .ok (some target) → ∀ {patience : Nat} {u : Session σ},
      s.execute h patience line = (.ok (), u) →
        (u.halted = true ↔ u.HasHalted) ∧ (u.finished = true ↔ u.HasHalted)
  /-- The line that it shows first makes no difference, if what is shown is kept apart. -/
  shown : ∀ {corr : σ → σ → Prop}, h.Apart corr →
    ∀ (line : String) {patience k : Nat} {target : Int},
      (∀ {v : Session σ}, FirstAt (emptyLine h patience) (Arrived target) s k v →
        ∃ w, FirstAt (emptyLine h patience) (Arrived target) (s.echo h line) k w ∧
          Beside corr v w) ∧
      ∀ {w : Session σ}, FirstAt (emptyLine h patience) (Arrived target) (s.echo h line) k w →
        ∃ v, FirstAt (emptyLine h patience) (Arrived target) s k v ∧ Beside corr w v

end Session

open Session

/-- Where every fault can be reported, the commands that step agree on every session that is neither
halted nor finished. -/
theorem stepping_agrees {σ ε : Type} (h : Host σ ε)
    (hreport : ∀ f w, (h.boundary.report f w).1 = .ok ()) {s : Session σ} (hs : Underway h s)
    (hhalted : s.halted = false) (hfinished : s.finished = false) : SteppingAgrees h s where
  run hparse patience n v hfirst hn := by
    rw [execute, hparse]
    exact runToEnd_of_firstAt (hs.going hreport hhalted) hfirst hn
  run_only hparse patience u hu := by
    rw [execute, hparse] at hu
    exact firstAt_of_runToEnd (hs.going hreport hhalted) hu
  runTo hparse hpoint patience u := by
    rw [execute_of_runTo hparse hpoint]
    exact runTo_eq_ok_iff
  runTo_ends hparse hpoint patience u hu := by
    rw [execute_of_runTo hparse hpoint] at hu
    exact runTo_ends (hs.going hreport hhalted) hfinished hu
  shown happart line :=
    ⟨fun hv => (Beside.echo happart s line).firstAt happart hv,
      fun hw => (Beside.of_echo happart s line).firstAt happart hw⟩

/-- In the prepared world, what is shown is kept apart. -/
theorem Rehearsal.host_apart :
    Rehearsal.host.Apart fun w w' => w' = { w with echoed := w'.echoed } where
  symm h := by rw [h]
  imitates := {
    request := fun {w w' v w₁} h hw => by
      rw [h]
      obtain ⟨hv, rfl⟩ := Prod.mk.inj hw
      exact ⟨_, Prod.ext hv rfl, rfl⟩
    emit := fun {w w' v w₁} h hw => by
      rw [h]
      obtain ⟨hv, rfl⟩ := Prod.mk.inj hw
      exact ⟨_, Prod.ext hv rfl, rfl⟩
    report := fun {w w' f w₁} h hw => by
      rw [h]
      obtain ⟨hv, rfl⟩ := Prod.mk.inj hw
      exact ⟨_, Prod.ext hv rfl, rfl⟩ }
  echo _ _ := rfl

/-- A session over a machine that reads a number, writes it and halts. -/
def readingSession : Session Rehearsal :=
  { execution :=
      { machine := { memory := .ofWords [Word.wrap 901, Word.wrap 902] }
        world := { tape := { pending := [4] } } } }

theorem stepping_agrees_reading :
    (∃ n v u, FirstAt (emptyLine Rehearsal.host 9) HasHalted readingSession n v ∧
      readingSession.execute Rehearsal.host 9 "run" = (.ok (), u) ∧ SameEnd u v) ∧
    ∃ k v u, FirstAt (emptyLine Rehearsal.host 9) (Arrived 2) readingSession k v ∧
      readingSession.execute Rehearsal.host 9 "runto 2" = (.ok (), u) ∧
        u.machine = v.machine := by
  have hagrees : SteppingAgrees Rehearsal.host readingSession :=
    stepping_agrees Rehearsal.host (fun _ _ => rfl) (.start _ _ _) rfl rfl
  have hrun : Command.parse "run" = some .run := by decide +kernel
  have hrunTo : Command.parse "runto 2" = some (.runTo "2") := by decide +kernel
  have hpoint : readingSession.resolve "2" = .ok (some 2) := by rfl
  constructor
  · have hends : (readingSession.execute Rehearsal.host 9 "run").1 = .ok () :=
      eq_ok_of_isOk (by decide +kernel)
    obtain ⟨n, v, hn, hfirst⟩ := hagrees.run_only hrun (Prod.ext hends rfl)
    obtain ⟨u, hu, hsame⟩ := hagrees.run hrun hfirst hn
    exact ⟨n, v, u, hfirst, hu, hsame⟩
  · have hends : (readingSession.execute Rehearsal.host 9 "runto 2").1 = .ok () :=
      eq_ok_of_isOk (by decide +kernel)
    obtain ⟨k, w, hfirst, -, hu⟩ := (hagrees.runTo hrunTo hpoint).mp (Prod.ext hends rfl)
    obtain ⟨v, hv, hwv⟩ := (hagrees.shown Rehearsal.host_apart _).2 hfirst
    refine ⟨k, v, _, hv, Prod.ext hends rfl, ?_⟩
    rw [hu]
    exact hwv.execution.machine.symm

end LittleMan.Debugger
