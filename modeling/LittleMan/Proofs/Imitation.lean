/-
The same machine in two worlds.

A boundary imitates another one if it gives the same answers, in worlds that correspond, as long as
the other one does not refuse. A machine cannot tell the two worlds apart then:

* `Imitates.step`: a step that succeeds in one world succeeds in the other, and the worlds still
  correspond;
* `Imitates.repeated`, `Imitates.advance`: so do several steps, and a run that is still going.
-/
import LittleMan.Proofs.Steps
namespace LittleMan

variable {σ τ ε δ : Type}

/-- What `b` answers without refusing, `b'` answers alike in every world that corresponds. -/
structure Imitates (b : Boundary σ ε) (b' : Boundary τ δ) (corr : σ → τ → Prop) : Prop where
  request : ∀ {w : σ} {w' : τ} {v : Int} {w₁ : σ}, corr w w' → b.request w = (.ok v, w₁) →
    ∃ w₁', b'.request w' = (.ok v, w₁') ∧ corr w₁ w₁'
  emit : ∀ {w : σ} {w' : τ} {v : Int} {w₁ : σ}, corr w w' → b.emit v w = (.ok (), w₁) →
    ∃ w₁', b'.emit v w' = (.ok (), w₁') ∧ corr w₁ w₁'
  report : ∀ {w : σ} {w' : τ} {f : Fault} {w₁ : σ}, corr w w' → b.report f w = (.ok (), w₁) →
    ∃ w₁', b'.report f w' = (.ok (), w₁') ∧ corr w₁ w₁'

/-- The same machine, as far as it has come, in two worlds that correspond. -/
structure Beside (corr : σ → τ → Prop) (s : Execution σ) (t : Execution τ) : Prop where
  machine : t.machine = s.machine
  progress : t.progress = s.progress
  world : corr s.world t.world

variable {b : Boundary σ ε} {b' : Boundary τ δ} {corr : σ → τ → Prop} {s s' : Execution σ}
  {t : Execution τ}

namespace Beside

theorem moved (h : Beside corr s t) (machine : Machine) {w : σ} {w' : τ} (hw : corr w w') :
    Beside corr (s.moved machine w) (t.moved machine w') :=
  ⟨rfl, by simp only [Execution.moved, h.progress], hw⟩

theorem stopped (h : Beside corr s t) (fault : Option Fault) {w : σ} {w' : τ} (hw : corr w w') :
    Beside corr (s.stopped fault w) (t.stopped fault w') :=
  ⟨by simp only [Execution.stopped, h.machine], by simp only [Execution.stopped, h.progress], hw⟩

end Beside

namespace Imitates

theorem step (hi : Imitates b b' corr) (h : Beside corr s t)
    (hs : LittleMan.step b s = (.ok (), s')) :
    ∃ t', LittleMan.step b' t = (.ok (), t') ∧ Beside corr s' t' := by
  have hr := stepped_step b s
  generalize LittleMan.step b s = r at hs hr
  obtain rfl : r.2 = s' := congrArg Prod.snd hs
  have hanswer := congrArg Prod.fst hs
  cases hr with
  | move he => exact ⟨_, step_of_move (h.machine ▸ he), h.moved _ h.world⟩
  | halt he =>
    refine ⟨_, step_of_halt (h.machine ▸ he), ?_⟩
    rw [h.progress]
    exact h.stopped _ h.world
  | @fault he hpc answer world hb =>
    rcases answer with e | _
    · exact absurd hanswer nofun
    · obtain ⟨w', hw', hcorr⟩ := hi.report h.world hb
      rw [← h.machine] at he hpc hw'
      refine ⟨_, step_of_fault he hpc hw', ?_⟩
      rw [h.machine]
      exact h.stopped _ hcorr
  | input he hb hv =>
    obtain ⟨w', hw', hcorr⟩ := hi.request h.world hb
    rw [← h.machine] at he
    refine ⟨_, (step_of_input he hw').trans (if_pos hv), ?_⟩
    rw [h.machine]
    exact h.moved _ hcorr
  | @output he answer world hb =>
    rcases answer with e | _
    · exact absurd hanswer nofun
    · obtain ⟨w', hw', hcorr⟩ := hi.emit h.world hb
      rw [← h.machine] at he hw'
      refine ⟨_, step_of_output he hw', ?_⟩
      rw [h.machine]
      exact h.moved _ hcorr
  | outOfRange => exact absurd hanswer nofun
  | refused => exact absurd hanswer nofun
  | unwritten => exact absurd hanswer nofun
  | spill => exact absurd hanswer nofun

variable {n : Nat}

theorem repeated (hi : Imitates b b' corr) (h : Beside corr s t)
    (hs : LittleMan.repeated (LittleMan.step b) n s = (.ok (), s')) :
    ∃ t', LittleMan.repeated (LittleMan.step b') n t = (.ok (), t') ∧ Beside corr s' t' :=
  repeated_along (fun hbeside hstep => hi.step hbeside hstep) h hs

/-- A run that is still going in one world is so in the other. -/
theorem advance (hi : Imitates b b' corr) (h : Beside corr s t)
    (hs : LittleMan.advance b n s = (.exhausted, s')) :
    ∃ t', LittleMan.advance b' n t = (.exhausted, t') ∧ Beside corr s' t' := by
  obtain ⟨hsteps, hgoing⟩ := advance_eq_exhausted_iff.mp hs
  obtain ⟨t', ht', hbeside⟩ := hi.repeated h hsteps
  exact ⟨t', advance_eq_exhausted_iff.mpr ⟨ht', hbeside.progress ▸ hgoing⟩, hbeside⟩

end Imitates

end LittleMan
