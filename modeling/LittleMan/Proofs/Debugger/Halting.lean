/-
A session that has halted shows the word that stopped it.

The last lines of a session are made when all is over, from the box before the counter. No command
can come between the step that stopped the machine and these lines, and that step went on to the
next box, so the word they show is the one that the step fetched.

* `endedBy_of_commands`: a session that has halted was ended by the last step of its last command;
* `Stops.describe_eq`: the box that is described then is the one of that step;
* `end_told_truthfully`: so the end is told as it was, of runs and of sessions.
-/
import LittleMan.Debugger.Rehearsal
import LittleMan.Proofs.Debugger.Progress
import LittleMan.Proofs.Results
namespace LittleMan.Debugger

open Listing

namespace Session

variable {σ ε : Type} {h : Host σ ε} {s t u : Session σ} {patience turns : Nat}

/-- The session that began as `s` was ended by a command line that took the machine to `r`, where
the next step stopped it; `u` is the session after that. -/
inductive EndedBy (h : Host σ ε) (patience : Nat) (s : Session σ) (r : Execution σ)
    (u : Session σ) : Prop where
  | intro {turns : Nat} {before asked : Session σ} {line : String} {x : Execution σ}
      (hbefore : s.commands h patience turns = (.ok (), before))
      (hask : (before.echoAll h before.statusLines).ask h ">" = (some line, asked))
      (hexecute : asked.execute h patience line = (.ok (), u))
      (hstart : x.machine = asked.machine) (hstops : Stops h x r u)

theorem commands_of_finished (hs : s.finished = true) :
    s.commands h patience turns = (.ok (), s) := by
  cases turns with
  | zero => rfl
  | succ turns => rw [commands, if_pos hs]

/-- One command line, and the others. -/
theorem commands_succ_of_ok {asked : Session σ} {line : String} (hs : s.finished = false)
    (hask : (s.echoAll h s.statusLines).ask h ">" = (some line, asked))
    (hexecute : asked.execute h patience line = (.ok (), u)) :
    s.commands h patience (turns + 1) = u.commands h patience turns := by
  rw [commands, if_neg (by simp [hs]), hask]
  dsimp only
  rw [hexecute]

/-- A session that has halted was ended by the last step of its last command. -/
theorem endedBy_of_commands (hs : s.Going) (hc : s.commands h patience turns = (.ok (), t))
    (ht : t.halted = true) : ∃ r, EndedBy h patience s r t := by
  have hne : ∀ {v : Session σ}, v.Going → v ≠ t :=
    fun hv heq => absurd (hv.session.symm.trans (heq ▸ ht)) (by simp)
  induction turns generalizing s with
  | zero => exact absurd (Prod.mk.inj hc).2 (hne hs)
  | succ turns ih =>
    cases hfinished : s.finished with
    | true =>
      rw [commands_of_finished hfinished] at hc
      exact absurd (Prod.mk.inj hc).2 (hne hs)
    | false =>
      rcases hask : (s.echoAll h s.statusLines).ask h ">" with ⟨_ | line, asked⟩
      · rw [commands, if_neg (by simp [hfinished]), hask] at hc
        have hidle := (Idle.echoAll h s _).trans ((Idle.ask h _ ">").of_snd hask)
        exact absurd (Prod.mk.inj hc).2 (hne (hs.of_idle hidle))
      · have hasked := hs.of_idle
          ((Idle.echoAll h s s.statusLines).trans ((Idle.ask h _ ">").of_snd hask))
        obtain ⟨x, hx, hleads⟩ := leads_execute (h := h) hasked patience line
        rcases hexecute : asked.execute h patience line with ⟨e | _, u⟩
        · -- a command that failed has left the session going, or ended it with its error
          rw [hexecute] at hleads
          rw [commands, if_neg (by simp [hfinished]), hask] at hc
          dsimp only at hc
          rw [hexecute] at hc
          cases hleads with
          | going hgoing =>
            split at hc
            · next heq => exact absurd (Prod.mk.inj heq).1 (by simp)
            · next heq =>
              rw [← (Prod.mk.inj heq).2] at hc
              exact absurd (Prod.mk.inj hc).2 (hne hgoing)
            · exact absurd (Prod.mk.inj hc).1 (by simp)
          | unreported _ => exact absurd (Prod.mk.inj hc).1 (by simp)
        · rw [hexecute] at hleads
          rw [commands_succ_of_ok hfinished hask hexecute] at hc
          cases hleads with
          | going hgoing =>
            obtain ⟨r, hended⟩ := ih hgoing hc
            cases hended with
            | intro hbefore hask' hexecute' hstart hstops =>
              rw [← commands_succ_of_ok hfinished hask hexecute] at hbefore
              exact ⟨r, .intro hbefore hask' hexecute' hstart hstops⟩
          | stopped hstops =>
            rw [commands_of_finished hstops.finished] at hc
            obtain rfl := (Prod.mk.inj hc).2
            have hbefore : s.commands h patience 0 = (.ok (), s) := rfl
            exact ⟨_, .intro hbefore hask hexecute hx hstops⟩

/-- The box before the counter holds the word that stopped the machine. -/
theorem Stops.describe_eq {x r : Execution σ} (hstops : Stops h x r u) :
    u.describe (u.machine.pc - 1) =
      (Line.ofWord u.tags r.machine.fetched.val
        (some ((Address.wrap r.machine.pc).val : Int))).render := by
  obtain ⟨y, hlast, hmachine, -⟩ := hstops.last
  rw [describe, hmachine, hlast.machine_eq, wrap_pred_advanced]
  rfl

end Session

open Session

/-- The end is told as it was: by a run that has returned, and in the last lines of a session that
has halted. -/
theorem end_told_truthfully (m : Machine) (hpc : 0 ≤ m.pc ∧ m.pc ≤ 99) :
    (∀ {σ ε : Type} (b : Boundary σ ε) (s : Execution σ), s.machine = m →
      ∀ (patience : Nat) (budget : Option Int) {stop : Stop ε} {t : Execution σ},
        run b patience budget s = (stop, t) → Returned budget stop →
          TellsEnd b patience budget s stop t) ∧
    ∀ {σ ε : Type} (h : Host σ ε) (world : σ) (tags : TagTable) (patience : Nat) {t : Session σ},
      Session.loop h patience { execution := { machine := m, world }, tags } = (.ok (), t) →
      t.halted = true →
        ∃ r u, EndedBy h patience { execution := { machine := m, world }, tags } r u ∧
          t = u.echoAll h ["Execution halted", statusLine u.machine,
            "  on: " ++ (Line.ofWord u.tags r.machine.fetched.val
              (some ((Address.wrap r.machine.pc).val : Int))).render] := by
  refine ⟨?_, ?_⟩
  · rintro σ ε b s rfl patience budget stop t hrun hreturned
    exact tellsEnd_of_run hpc hrun hreturned
  · intro σ ε h world tags patience t hloop ht
    rw [loop] at hloop
    split at hloop
    · exact absurd (Prod.mk.inj hloop).1 (by simp)
    · next u hcommands =>
      -- the lines that are shown at the end change nothing but the world
      have hu : u.halted = true := by
        rw [← (Prod.mk.inj hloop).2] at ht
        split at ht
        · next hhalted => exact hhalted
        · exact ht
      obtain ⟨r, hended⟩ := endedBy_of_commands ⟨rfl, rfl, rfl⟩ hcommands hu
      refine ⟨r, u, hended, ?_⟩
      cases hended with
      | intro _ _ _ _ hstops =>
        rw [← (Prod.mk.inj hloop).2, if_pos hu, haltedLines, hstops.describe_eq]

/-- A word that is no instruction waits in the last box. -/
def faultInLastBox : Machine :=
  { memory := Memory.zero.set (Address.wrap 99) (Word.wrap 450), pc := 99 }

/-- A session over that machine with one command. -/
def runFromLastBox : Session Rehearsal :=
  { execution := { machine := faultInLastBox, world := { answers := ["run"] } } }

theorem end_told_in_last_box :
    (0 ≤ faultInLastBox.pc ∧ faultInLastBox.pc ≤ 99) ∧
      (∃ t, run Rehearsal.boundary 5 none runFromLastBox.execution = (.halted, t) ∧
        TellsEnd Rehearsal.boundary 5 none runFromLastBox.execution .halted t) ∧
      ∃ r u, EndedBy Rehearsal.host 5 runFromLastBox r u ∧
        (runFromLastBox.loop Rehearsal.host 5).2 =
          u.echoAll Rehearsal.host ["Execution halted", statusLine u.machine,
            "  on: " ++ (Line.ofWord u.tags r.machine.fetched.val
              (some ((Address.wrap r.machine.pc).val : Int))).render] := by
  have hpc : 0 ≤ faultInLastBox.pc ∧ faultInLastBox.pc ≤ 99 := by decide
  have htold := end_told_truthfully faultInLastBox hpc
  refine ⟨hpc, ?_, ?_⟩
  · have hstop : (run Rehearsal.boundary 5 none runFromLastBox.execution).1 = .halted := by
      decide +kernel
    exact ⟨_, Prod.ext hstop rfl,
      htold.1 Rehearsal.boundary runFromLastBox.execution rfl 5 none (Prod.ext hstop rfl)
        (.inl rfl)⟩
  · have hends : (runFromLastBox.loop Rehearsal.host 5).1 = .ok () :=
      eq_ok_of_isOk (by decide +kernel)
    have hhalted : (runFromLastBox.loop Rehearsal.host 5).2.halted = true := by decide +kernel
    exact htold.2 Rehearsal.host { answers := ["run"] } {} 5 (Prod.ext hends rfl) hhalted

end LittleMan.Debugger
