/-
How far commands bring a session.

Three commands let the machine take steps (`Lasting` is what they leave of a session), the others
leave the progress alone (`Idle`). A session is `Going` as long as its machine is and nothing has
been reported. From there a command

* leaves it going,
* ends it with a last step of the machine that stopped it, or
* fails because a fault could not be reported

(`Leads`, `leads_execute`).
-/
import LittleMan.Debugger.Session
import LittleMan.Proofs.Stopping
namespace LittleMan

/-! ### Steps of a machine that is going -/

/-- The machine is going, and nothing was reported. -/
structure Progress.Going (p : Progress) : Prop where
  halted : p.halted = false
  fault : p.fault = none

section Going

variable {σ ε : Type} {b : Boundary σ ε} {s t : Execution σ} {n : Nat}

theorem Progress.Going.counted {p : Progress} (h : p.Going) (n : Nat) :
    ({ p with steps := p.steps + n } : Progress).Going := ⟨h.halted, h.fault⟩

/-- A step leaves the machine going, or stops it, or a fault could not be reported. -/
theorem going_step_cases (hs : s.progress.Going) :
    (step b s).2.progress.Going ∨
      ((step b s).1 = .ok () ∧ (step b s).2.progress.halted = true) ∨
      ∃ f d, (b.report f s.world).1 = .error d ∧ (step b s).1 = .error (.refused d) := by
  have hr := stepped_step b s
  generalize step b s = r at hr ⊢
  cases hr with
  | halt => exact .inr (.inl ⟨rfl, rfl⟩)
  | @fault he hpc answer world hb =>
    rcases answer with d | _
    · exact .inr (.inr ⟨_, d, congrArg Prod.fst hb, rfl⟩)
    · exact .inr (.inl ⟨rfl, rfl⟩)
  | _ => exact .inl (hs.counted 1)

theorem going_of_exhausted (hs : s.progress.Going) (h : advance b n s = (.exhausted, t)) :
    t.progress.Going := by
  rw [progress_of_exhausted h]
  exact hs.counted n

theorem going_restart (s : Execution σ) : s.restart.progress.Going := ⟨rfl, rfl⟩

end Going

end LittleMan

namespace LittleMan.Debugger

/-- The commands that let the machine take steps. -/
def Command.moves : Command → Bool
  | .step => true
  | .run => true
  | .runTo _ => true
  | _ => false

namespace Session

variable {σ ε : Type} {s t : Session σ} (h : Host σ ε)

/-! ### Commands that leave the progress alone -/

/-- Neither the machine nor the session has come any further. -/
structure Idle (s t : Session σ) : Prop where
  halted : t.halted = s.halted
  progress : t.execution.progress = s.execution.progress

namespace Idle

theorem refl (s : Session σ) : Idle s s := ⟨rfl, rfl⟩

theorem trans {u : Session σ} (hst : Idle s t) (htu : Idle t u) : Idle s u :=
  ⟨htu.halted.trans hst.halted, htu.progress.trans hst.progress⟩

/-- The session that comes with an answer. -/
theorem of_snd {α : Type} {x : α × Session σ} {answer : α} (hx : Idle s x.2)
    (heq : x = (answer, t)) : Idle s t := by
  rw [heq] at hx
  exact hx

theorem echo (s : Session σ) (line : String) : Idle s (s.echo h line) := ⟨rfl, rfl⟩

theorem echoAll (s : Session σ) (lines : List String) : Idle s (s.echoAll h lines) := by
  induction lines generalizing s with
  | nil => exact refl s
  | cons line lines ih => exact (echo h s line).trans (ih (s.echo h line))

theorem ask (s : Session σ) (prompt : String) : Idle s (s.ask h prompt).2 := ⟨rfl, rfl⟩

theorem loadText (s : Session σ) : Idle s (s.loadText h).2 := by
  rw [Session.loadText]
  have hask := ask h s "Load>"
  split
  · next heq => exact hask.of_snd heq
  · next heq =>
    have hasked := hask.of_snd heq
    split
    · exact hasked.trans ⟨rfl, rfl⟩
    · exact hasked.trans (echo h _ _)

theorem fileName (s : Session σ) (given : Option String) : Idle s (s.fileName h given).2 := by
  cases given with
  | some name => exact refl s
  | none => exact ask h s "Filename> "

theorem writeTo (s : Session σ) (name : String) : Idle s (s.writeTo h name).2 := by
  rw [Session.writeTo]
  split
  · exact refl s
  · split
    · exact refl s
    · split <;> exact ⟨rfl, rfl⟩

theorem readFrom (s : Session σ) (name : String) : Idle s (s.readFrom h name).2 := by
  rw [Session.readFrom]
  split
  · exact refl s
  · split
    · exact echo h s _
    · split
      · exact echo h s _
      · exact ⟨rfl, rfl⟩

theorem withPoint (s : Session σ) (point unknown : String)
    {next : Int → Except (Error ε) Unit × Session σ} (hnext : ∀ address, Idle s (next address).2) :
    Idle s (s.withPoint h point unknown next).2 := by
  rw [Session.withPoint]
  split
  · exact refl s
  · exact echo h s unknown
  · next address _ => exact hnext address

theorem perform (s : Session σ) (patience : Nat) {command : Command}
    (hc : command.moves = false) : Idle s (s.perform h patience command).2 := by
  cases command with
  | step => exact absurd hc (by decide)
  | run => exact absurd hc (by decide)
  | runTo point => exact absurd hc (by simp [Command.moves])
  | showBox point => exact withPoint h s point _ fun address => echo h s _
  | showTagged => exact echoAll h s _
  | skip => exact ⟨rfl, rfl⟩
  | branch point => exact withPoint h s point _ fun address => ⟨rfl, rfl⟩
  | dumpText =>
    rw [Session.perform]
    split
    · exact refl s
    · exact echo h s _
  | loadText => exact loadText h s
  | save name => exact ⟨rfl, rfl⟩
  | restore name =>
    rw [Session.perform]
    split
    · exact echo h s _
    · exact ⟨rfl, rfl⟩
  | exportTo file =>
    have hfile := fileName h s file
    rw [Session.perform]
    split
    · next heq => exact hfile.of_snd heq
    · next heq => exact (hfile.of_snd heq).trans (writeTo h _ _)
  | importFrom file =>
    have hfile := fileName h s file
    rw [Session.perform]
    split
    · next heq => exact hfile.of_snd heq
    · next heq => exact (hfile.of_snd heq).trans (readFrom h _ _)
  | help => exact echo h s _
  | quit => exact ⟨rfl, rfl⟩

end Idle

/-! ### Commands that move on -/

/-- What neither a change of the execution nor the end of the program takes away from a session. -/
structure Lasting (p : Session σ → Prop) : Prop where
  execution : ∀ {s : Session σ} (x : Execution σ), p s → p { s with execution := x }
  ended : ∀ {s : Session σ}, p s → p s.ended

namespace Lasting

variable {h} {p : Session σ → Prop} (hp : Lasting p)

include hp

theorem stepOnce (hs : p s) : p (s.stepOnce h).2 := by
  rw [Session.stepOnce]
  split
  · exact hp.execution _ hs
  · dsimp only
    split
    · exact hp.ended (hp.execution _ hs)
    · exact hp.execution _ hs

theorem runToEnd (hs : p s) (patience : Nat) : p (s.runToEnd h patience).2 := by
  rw [Session.runToEnd]
  split
  · exact hp.execution _ hs
  · exact hp.execution _ hs
  · exact hp.ended (hp.execution _ hs)

theorem stepsTo (hs : p s) (target : Int) (patience executed : Nat) :
    p (s.stepsTo h target patience executed).2 := by
  induction patience generalizing s executed with
  | zero => exact hs
  | succ patience ih =>
    have hstep := hp.stepOnce (h := h) hs
    rw [Session.stepsTo]
    split
    · next heq => rwa [heq] at hstep
    · next heq =>
      rw [heq] at hstep
      split
      · exact hstep
      · exact ih hstep _

theorem runTo (hs : p s) (patience : Nat) (target : Int) : p (s.runTo h patience target).2 := by
  have hshown : p (s.echo h ("Stepping to " ++ Text.padded 2 target)) := hp.execution _ hs
  have hsteps := hp.stepsTo (h := h) hshown target patience 0
  rw [Session.runTo]
  split
  · next heq => rwa [heq] at hsteps
  · next heq =>
    rw [heq] at hsteps
    exact hp.execution _ hsteps

theorem perform (hs : p s) (patience : Nat) {command : Command} (hc : command.moves = true) :
    p (s.perform h patience command).2 := by
  cases command with
  | step => exact hp.stepOnce hs
  | run => exact hp.runToEnd hs patience
  | runTo point =>
    rw [Session.perform, withPoint]
    split
    · exact hs
    · exact hp.execution _ hs
    · exact hp.runTo hs patience _
  | _ => exact absurd hc (by simp [Command.moves])

end Lasting

/-- Nothing has halted, and nothing was reported. -/
structure Going (s : Session σ) : Prop where
  session : s.halted = false
  machine : s.execution.progress.Going

theorem Going.of_idle (hs : s.Going) (hidle : Idle s t) : t.Going :=
  ⟨hidle.halted.trans hs.session, hidle.progress ▸ hs.machine⟩

/-- From `x` the machine came to `r`, and its next step ended the session. -/
structure Stops (h : Host σ ε) (x r : Execution σ) (t : Session σ) : Prop where
  last : ∃ y, LastStep h.boundary x r y ∧ t.machine = y.machine ∧
    t.execution.progress = y.progress
  halted : t.halted = true
  finished : t.finished = true

/-- What a command answers and leaves behind, if its steps begin at `x`. -/
inductive Leads (h : Host σ ε) (x : Execution σ) {α : Type} :
    Except (Error ε) α → Session σ → Prop where
  | going {answer : Except (Error ε) α} {t : Session σ} (ht : t.Going) : Leads h x answer t
  | stopped {a : α} {r : Execution σ} {t : Session σ} (ht : Stops h x r t) : Leads h x (.ok a) t
  | unreported {f : Fault} {w : σ} {d : ε} {t : Session σ}
      (hreport : (h.boundary.report f w).1 = .error d) :
      Leads h x (.error (.step (.refused d))) t

variable {h}

/-- A step before. -/
theorem Stops.after {x x' r : Execution σ} (hstep : step h.boundary x = (.ok (), x'))
    (ht : Stops h x' r t) : Stops h x r t := by
  obtain ⟨⟨y, hlast, hy⟩, hhalted, hfinished⟩ := ht
  obtain ⟨k, hk⟩ := hlast.before
  have hbefore : repeated (step h.boundary) (k + 1) x = (.ok (), r) :=
    repeated_succ_iff.mpr ⟨x', hstep, hk⟩
  exact ⟨⟨y, { hlast with before := ⟨k + 1, hbefore⟩ }, hy⟩, hhalted, hfinished⟩

theorem Leads.after {x x' : Execution σ} {α : Type} {answer : Except (Error ε) α}
    (hstep : step h.boundary x = (.ok (), x')) (ht : Leads h x' answer t) :
    Leads h x answer t := by
  cases ht with
  | going ht => exact .going ht
  | stopped ht => exact .stopped (ht.after hstep)
  | unreported hreport => exact .unreported hreport

theorem Stops.of_step {x y : Execution σ} (hx : x.progress.Going)
    (hstep : step h.boundary x = (.ok (), y)) (hy : y.progress.halted = true) (s : Session σ) :
    Stops h x x ({ s with execution := y } : Session σ).ended :=
  ⟨⟨y, ⟨⟨0, rfl⟩, hx.halted, hstep, hy⟩, rfl, rfl⟩, rfl, rfl⟩

theorem leads_stepOnce (hs : s.Going) :
    Leads h s.execution (s.stepOnce h).1 (s.stepOnce h).2 := by
  have hcases := going_step_cases (b := h.boundary) hs.machine
  rw [stepOnce]
  rcases hstep : step h.boundary s.execution with ⟨e | _, next⟩ <;> rw [hstep] at hcases
  · rcases hcases with hgoing | ⟨hok, -⟩ | ⟨f, d, hreport, he⟩
    · exact .going ⟨hs.session, hgoing⟩
    · exact absurd hok (by simp)
    · obtain rfl := Except.error.inj he
      exact .unreported hreport
  · dsimp only
    rcases hcases with hgoing | ⟨-, hhalted⟩ | ⟨f, d, -, he⟩
    · have hnext : next.progress.halted = false := hgoing.halted
      rw [if_neg (by simp [hnext])]
      exact .going ⟨hs.session, hgoing⟩
    · rw [if_pos hhalted]
      exact .stopped (.of_step hs.machine hstep hhalted s)
    · exact absurd he (by simp)

/-- A step that succeeds brings the session as far as the machine. -/
theorem execution_of_stepOnce (hstep : s.stepOnce h = (.ok (), t)) :
    step h.boundary s.execution = (.ok (), t.execution) := by
  rw [stepOnce] at hstep
  rcases hx : step h.boundary s.execution with ⟨e | _, next⟩ <;> rw [hx] at hstep
  · exact absurd (Prod.mk.inj hstep).1 (by simp)
  · rw [← (Prod.mk.inj hstep).2]
    split <;> rfl

theorem leads_runToEnd (hs : s.Going) (patience : Nat) :
    Leads h s.execution.restart (s.runToEnd h patience).1 (s.runToEnd h patience).2 := by
  rw [runToEnd]
  rcases hrun : run h.boundary patience none s.execution with ⟨_ | _ | e, next⟩
  · -- halted
    obtain ⟨r, hlast, -⟩ := ending_of_run hrun
    exact .stopped ⟨⟨next, hlast, rfl, rfl⟩, rfl, rfl⟩
  · exact .going ⟨hs.session, going_of_exhausted (going_restart _) hrun⟩
  · -- the step that failed came from a machine that was going
    obtain ⟨k, r, -, hr, hstep⟩ := (advance_eq_failed_iff rfl).mp hrun
    have hcases := going_step_cases (b := h.boundary) (going_of_exhausted (going_restart _) hr)
    rw [hstep] at hcases
    rcases hcases with hgoing | ⟨hok, -⟩ | ⟨f, d, hreport, he⟩
    · exact .going ⟨hs.session, hgoing⟩
    · exact absurd hok (by simp)
    · obtain rfl := Except.error.inj he
      exact .unreported hreport

theorem leads_stepsTo (hs : s.Going) (target : Int) (patience executed : Nat) :
    Leads h s.execution (s.stepsTo h target patience executed).1
      (s.stepsTo h target patience executed).2 := by
  induction patience generalizing s executed with
  | zero => exact .going hs
  | succ patience ih =>
    have hstep := leads_stepOnce (h := h) hs
    rw [stepsTo]
    rcases hnext : s.stepOnce h with ⟨e | _, next⟩ <;> rw [hnext] at hstep
    · cases hstep with
      | going hgoing => exact .going hgoing
      | unreported hreport => exact .unreported hreport
    · dsimp only
      cases hstep with
      | going hgoing =>
        split
        · exact .going hgoing
        · exact (ih hgoing (executed + 1)).after (execution_of_stepOnce hnext)
      | stopped hstops =>
        obtain ⟨y, hlast, -, hprogress⟩ := hstops.last
        have hhalted : next.execution.progress.halted = true :=
          (congrArg Progress.halted hprogress).trans hlast.halted
        rw [if_pos (by simp [hhalted])]
        exact .stopped hstops

theorem leads_runTo (hs : s.Going) (patience : Nat) (target : Int) :
    ∃ x, x.machine = s.machine ∧
      Leads h x (s.runTo h patience target).1 (s.runTo h patience target).2 := by
  have hecho := hs.of_idle (Idle.echo h s ("Stepping to " ++ Text.padded 2 target))
  refine ⟨(s.echo h ("Stepping to " ++ Text.padded 2 target)).execution, rfl, ?_⟩
  have hsteps := leads_stepsTo (h := h) hecho target patience 0
  rw [runTo]
  split
  · next heq =>
    rw [heq] at hsteps
    cases hsteps with
    | going hgoing => exact .going hgoing
    | unreported hreport => exact .unreported hreport
  · next heq =>
    rw [heq] at hsteps
    cases hsteps with
    | going hgoing => exact .going (hgoing.of_idle (Idle.echo h _ _))
    | stopped hstops => exact .stopped ⟨hstops.last, hstops.halted, hstops.finished⟩

theorem leads_perform (hs : s.Going) (patience : Nat) (command : Command) :
    ∃ x, x.machine = s.machine ∧
      Leads h x (s.perform h patience command).1 (s.perform h patience command).2 := by
  cases hc : command.moves with
  | false => exact ⟨s.execution, rfl, .going (hs.of_idle (Idle.perform h s patience hc))⟩
  | true =>
    cases command with
    | step => exact ⟨s.execution, rfl, leads_stepOnce hs⟩
    | run => exact ⟨s.execution.restart, rfl, leads_runToEnd hs patience⟩
    | runTo point =>
      rw [perform, withPoint]
      split
      · exact ⟨s.execution, rfl, .going hs⟩
      · exact ⟨s.execution, rfl, .going (hs.of_idle (Idle.echo h s _))⟩
      · exact leads_runTo hs patience _
    | _ => exact absurd hc (by simp [Command.moves])

/-- What a command line makes of a session that is going. -/
theorem leads_execute (hs : s.Going) (patience : Nat) (line : String) :
    ∃ x, x.machine = s.machine ∧
      Leads h x (s.execute h patience line).1 (s.execute h patience line).2 := by
  rw [execute]
  split
  · exact leads_perform hs patience _
  · exact ⟨s.execution, rfl, .going (hs.of_idle (Idle.echo h s _))⟩

end Session

end LittleMan.Debugger
