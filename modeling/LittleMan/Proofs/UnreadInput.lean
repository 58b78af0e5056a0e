/-
Numbers that a run has not read have no part in it.

A run takes a number off the tape for each input instruction, and nothing else looks at the tape. So
a run that has returned is the same on every tape that begins with the numbers it took, whatever
follows them, and leaves what follows.

* `fetches`: the words that a run fetches, step by step;
* `Exchange`: what was taken off the tape and what was written, counted by those words;
* `exchange_step`, `exchange_advance`: a step, and so a run that does not fail, takes and writes
  what its words say, and does so in front of any rest of the tape;
* `unread_input_inert`: a run from an image is settled by the numbers that it read.
-/
import LittleMan.Proofs.Results
import LittleMan.Proofs.Stopping
namespace LittleMan

/-! ### The words of a run -/

section Fetches

variable {σ ε : Type} {b : Boundary σ ε} {s t : Execution σ} {n : Nat}

/-- The words that at most `n` steps fetch, the word of a step that fails included. -/
def fetches (b : Boundary σ ε) : Nat → Execution σ → List Word
  | 0, _ => []
  | n + 1, s =>
    if s.progress.halted then []
    else match step b s with
      | (.ok (), next) => s.machine.fetched :: fetches b n next
      | (.error _, _) => [s.machine.fetched]

theorem fetches_of_halted (n : Nat) (h : s.progress.halted = true) : fetches b n s = [] := by
  cases n <;> simp [fetches, h]

theorem fetches_succ_of_ok (n : Nat) (hs : s.progress.halted = false)
    (h : step b s = (.ok (), t)) : fetches b (n + 1) s = s.machine.fetched :: fetches b n t := by
  rw [fetches, hs, h]
  rfl

theorem fetches_succ_of_error (n : Nat) (hs : s.progress.halted = false) {e : StepError ε}
    (h : step b s = (.error e, t)) : fetches b (n + 1) s = [s.machine.fetched] := by
  rw [fetches, hs, h]
  rfl

/-- Every step fetches one word. -/
theorem steps_advance (n : Nat) :
    (advance b n s).2.progress.steps = s.progress.steps + (fetches b n s).length := by
  induction n generalizing s with
  | zero => rfl
  | succ n ih =>
    cases hs : s.progress.halted with
    | true =>
      rw [advance_of_halted _ hs, fetches_of_halted _ hs]
      rfl
    | false =>
      have hcount := steps_step b s
      rcases hstep : step b s with ⟨e | _, r⟩ <;> rw [hstep] at hcount
      · rw [advance_succ_of_error n hs hstep, fetches_succ_of_error n hs hstep]
        exact hcount
      · rw [advance_succ_of_ok n hs hstep, fetches_succ_of_ok n hs hstep, ih, hcount,
          List.length_cons, Nat.add_assoc, Nat.add_comm 1]

end Fetches

/-! ### What goes on between a machine and its tape -/

/-- The execution in front of other numbers. -/
def Execution.onTape (s : Execution Tape) (pending : List Int) : Execution Tape :=
  { s with world := { s.world with pending } }

/-- While these words were executed, some numbers were taken off the tape, one for each input, and
some words written, one for each output. -/
structure Exchange (words : List Word) (before after : Tape) (taken written : List Int) : Prop where
  pending : before.pending = taken ++ after.pending
  outputs : after.outputs.toList = before.outputs.toList ++ written
  inputCount : taken.length = words.countP fun w => w.val = 901
  outputCount : written.length = words.countP fun w => w.val = 902
  inRange : ∀ v ∈ written, isWord v = true

namespace Exchange

variable {words words' : List Word} {before middle after : Tape}
  {taken taken' written written' : List Int}

theorem refl (before : Tape) : Exchange [] before before [] [] :=
  ⟨rfl, (List.append_nil _).symm, rfl, rfl, by simp⟩

/-- A word that neither asks nor writes leaves the numbers alone. -/
theorem silent {m : Machine} (hin : m.effect ≠ .input) (hout : m.effect ≠ .output)
    (hpending : after.pending = before.pending) (houtputs : after.outputs = before.outputs) :
    Exchange [m.fetched] before after [] [] where
  pending := hpending.symm
  outputs := by rw [houtputs, List.append_nil]
  inputCount := by
    rw [Ne, Machine.effect_eq_input_iff] at hin
    simp [hin]
  outputCount := by
    rw [Ne, Machine.effect_eq_output_iff] at hout
    simp [hout]
  inRange := by simp

theorem trans (h : Exchange words before middle taken written)
    (h' : Exchange words' middle after taken' written') :
    Exchange (words ++ words') before after (taken ++ taken') (written ++ written') where
  pending := by rw [h.pending, h'.pending, List.append_assoc]
  outputs := by rw [h'.outputs, h.outputs, List.append_assoc]
  inputCount := by rw [List.length_append, List.countP_append, h.inputCount, h'.inputCount]
  outputCount := by rw [List.length_append, List.countP_append, h.outputCount, h'.outputCount]
  inRange := by
    intro v hv
    rcases List.mem_append.mp hv with hv | hv
    · exact h.inRange v hv
    · exact h'.inRange v hv

end Exchange

variable {s t : Execution Tape} {n : Nat}

theorem Tape.request_checked_eq_ok {w w' : Tape} {v : Int}
    (h : Tape.checked.request w = (.ok v, w')) :
    w.pending = v :: w'.pending ∧ w' = { w with pending := w'.pending } ∧ isWord v = true := by
  obtain ⟨_ | ⟨x, rest⟩, outputs, faults⟩ := w
  · exact absurd (Prod.mk.inj h).1 (by simp)
  · obtain ⟨hx, rfl⟩ := Prod.mk.inj h
    split at hx
    · next hword =>
      obtain rfl := Except.ok.inj hx
      exact ⟨rfl, rfl, hword⟩
    · exact absurd hx (by simp)

theorem Tape.request_checked {w : Tape} {v : Int} {rest : List Int} (h : w.pending = v :: rest)
    (hv : isWord v = true) : Tape.checked.request w = (.ok v, { w with pending := rest }) := by
  simp only [Tape.checked, h, hv, if_true]

/-- A step takes and writes what its word says, and would do so in front of any rest of the tape. -/
theorem exchange_step (hs : s.machine.InRange) (h : step Tape.checked s = (.ok (), t)) :
    ∃ taken written, Exchange [s.machine.fetched] s.world t.world taken written ∧
      ∀ rest, step Tape.checked (s.onTape (taken ++ rest)) = (.ok (), t.onTape rest) := by
  have hr := stepped_step Tape.checked s
  generalize step Tape.checked s = r at h hr
  obtain rfl : r.2 = t := congrArg Prod.snd h
  have hanswer := congrArg Prod.fst h
  cases hr with
  | move he =>
    refine ⟨[], [], .silent (by simp [he]) (by simp [he]) rfl rfl, fun rest => ?_⟩
    exact step_of_move (s := s.onTape rest) he
  | halt he =>
    refine ⟨[], [], .silent (by simp [he]) (by simp [he]) rfl rfl, fun rest => ?_⟩
    exact step_of_halt (s := s.onTape rest) he
  | fault he hpc hb =>
    obtain ⟨rfl, rfl⟩ := Prod.mk.inj hb
    refine ⟨[], [], .silent (by simp [he]) (by simp [he]) rfl rfl, fun rest => ?_⟩
    exact step_of_fault (s := s.onTape rest) he hpc rfl
  | @input he v world hb hv =>
    obtain ⟨hpending, hworld, -⟩ := Tape.request_checked_eq_ok hb
    have hword := Machine.effect_eq_input_iff.mp he
    refine ⟨[v], [], ⟨hpending, ?_, ?_, ?_, by simp⟩, fun rest => ?_⟩
    · rw [hworld]
      exact (List.append_nil _).symm
    · simp [hword]
    · simp [hword]
    · -- the number that was taken is the only one that the tape is asked for
      have hask : Tape.checked.request (s.onTape ([v] ++ rest)).world =
          (.ok v, (s.onTape rest).world) := Tape.request_checked rfl hv
      have hstep := step_of_input (s := s.onTape ([v] ++ rest)) he hask
      rw [if_pos hv] at hstep
      rw [hstep, hworld]
      rfl
  | output he hb =>
    obtain ⟨rfl, rfl⟩ := Prod.mk.inj hb
    have hword := Machine.effect_eq_output_iff.mp he
    refine ⟨[], [s.machine.accumulator], ⟨rfl, Array.toList_push, ?_, ?_, ?_⟩, fun rest => ?_⟩
    · simp [hword]
    · simp [hword]
    · intro v hv
      rw [List.mem_singleton.mp hv, isWord_iff]
      exact hs.2
    · exact step_of_output (s := s.onTape rest) he rfl
  -- what is left fails
  | outOfRange => exact absurd hanswer nofun
  | refused => exact absurd hanswer nofun
  | unwritten => exact absurd hanswer nofun
  | spill => exact absurd hanswer nofun

/-- So does a run, unless it fails. -/
theorem exchange_advance (hs : s.machine.InRange) {stop : Stop Tape.Error}
    (h : advance Tape.checked n s = (stop, t)) (hstop : ∀ e, stop ≠ .failed e) :
    ∃ taken written, Exchange (fetches Tape.checked n s) s.world t.world taken written ∧
      ∀ rest, advance Tape.checked n (s.onTape (taken ++ rest)) = (stop, t.onTape rest) := by
  induction n generalizing s with
  | zero =>
    obtain ⟨rfl, rfl⟩ := Prod.mk.inj h
    exact ⟨[], [], .refl _, fun rest => rfl⟩
  | succ n ih =>
    cases hhalted : s.progress.halted with
    | true =>
      rw [advance_of_halted _ hhalted] at h
      obtain ⟨rfl, rfl⟩ := Prod.mk.inj h
      rw [fetches_of_halted _ hhalted]
      exact ⟨[], [], .refl _, fun rest => advance_of_halted (s := s.onTape rest) _ hhalted⟩
    | false =>
      rcases hstep : step Tape.checked s with ⟨e | _, r⟩
      · rw [advance_succ_of_error n hhalted hstep] at h
        exact absurd (Prod.mk.inj h).1.symm (hstop _)
      · rw [advance_succ_of_ok n hhalted hstep] at h
        have hr : r.machine.InRange := by
          have := inRange_step (b := Tape.checked) hs
          rwa [hstep] at this
        -- what the first step takes stands in front of what the others take
        obtain ⟨taken, written, hfirst, hagain⟩ := exchange_step hs hstep
        obtain ⟨taken', written', hlater, hrest⟩ := ih hr h
        rw [fetches_succ_of_ok n hhalted hstep]
        refine ⟨taken ++ taken', written ++ written', hfirst.trans hlater, fun rest => ?_⟩
        rw [List.append_assoc, ← hrest rest]
        exact advance_succ_of_ok (s := s.onTape (taken ++ (taken' ++ rest))) n hhalted (hagain _)

/-! ### Runs from an image -/

/-- A machine in front of a tape, before its first step. -/
def Machine.onTape (m : Machine) (pending : List Int) : Execution Tape :=
  { machine := m, world := { pending } }

variable {patience : Nat} {budget : Option Int} {stop : Stop Tape.Error}

theorem length_fetches_run {m : Machine} {xs : List Int}
    (h : run Tape.checked patience budget (m.onTape xs) = (stop, t)) :
    (fetches Tape.checked (allowance patience budget) (m.onTape xs)).length = t.progress.steps := by
  have hcount := steps_advance (b := Tape.checked) (s := m.onTape xs) (allowance patience budget)
  have hend : (advance Tape.checked (allowance patience budget) (m.onTape xs)).2 = t :=
    congrArg Prod.snd h
  rw [hend] at hcount
  exact (hcount.trans (Nat.zero_add _)).symm

/-- A run from an image that has returned took some numbers off the tape. On any tape that begins
with these it comes to the same end, in the same state, with the same words written and the same
faults reported, and leaves the rest of that tape. It took as many numbers as it executed inputs,
and wrote as many as it executed outputs, all of them words. -/
theorem unread_input_inert {image xs : List Int} {m : Machine}
    (hm : Machine.ofImage image = .ok m)
    (hrun : run Tape.checked patience budget (m.onTape xs) = (stop, t))
    (hreturned : Returned budget stop) :
    ∃ k words, k ≤ xs.length ∧ t.world.pending = xs.drop k ∧
      (∀ ys : List Int, ys.take k = xs.take k →
        run Tape.checked patience budget (m.onTape ys) = (stop, t.onTape (ys.drop k)) ∧
          (ys.drop k).length + k = ys.length) ∧
      (∀ ys : List Int, run Tape.checked patience budget (m.onTape (xs ++ ys)) =
        (stop, t.onTape (t.world.pending ++ ys))) ∧
      words = fetches Tape.checked (allowance patience budget) (m.onTape xs) ∧
      words.length = t.progress.steps ∧
      k = (words.countP fun w => w.val = 901) ∧
      t.world.outputs.size = (words.countP fun w => w.val = 902) ∧
      ∀ v ∈ t.world.outputs, 0 ≤ v ∧ v ≤ 999 := by
  have hstop : ∀ e, stop ≠ .failed e := by
    rintro e rfl
    obtain h | ⟨h, -⟩ := hreturned <;> exact absurd h (by simp)
  obtain ⟨taken, written, hexchange, hsame⟩ :=
    exchange_advance (s := m.onTape xs) (Machine.inRange_of_ofImage hm) hrun hstop
  have hxs : xs = taken ++ t.world.pending := hexchange.pending
  have houtputs : t.world.outputs.toList = written := hexchange.outputs
  have hlength : xs.length = taken.length + t.world.pending.length := by
    rw [← List.length_append, ← hxs]
  refine ⟨taken.length, _, by omega, ?_, fun ys hys => ?_, fun ys => ?_, rfl,
    length_fetches_run hrun, hexchange.inputCount, ?_, fun v hv => ?_⟩
  · rw [hxs, List.drop_left]
  · have htaken : ys.take taken.length = taken := by rw [hys, hxs, List.take_left]
    have hys : taken ++ ys.drop taken.length = ys := by
      rw [← List.take_append_drop taken.length ys, htaken, List.drop_left]
    refine ⟨?_, by rw [Nat.add_comm, ← List.length_append, hys]⟩
    have hrest := hsame (ys.drop taken.length)
    rw [hys] at hrest
    exact hrest
  · rw [hxs, List.append_assoc]
    exact hsame (t.world.pending ++ ys)
  · rw [← Array.length_toList, houtputs, hexchange.outputCount]
  · rw [← isWord_iff]
    exact hexchange.inRange v (houtputs ▸ Array.mem_toList_iff.mpr hv)

/-- Reads a number, writes it and halts. -/
def echoMachine : Machine := { memory := .ofWords [Word.wrap 901, Word.wrap 902] }

/-- That machine after a 4, with this left on the tape. -/
def echoedFour (pending : List Int) : Execution Tape :=
  { machine := { echoMachine with pc := 3, accumulator := 4 }
    progress := { halted := true, steps := 3 }
    world := { pending, outputs := #[4] } }

/-- What stands behind the 4 is no word, and may be something else that is none. -/
theorem unread_input_inert_echo :
    Machine.ofImage [901, 902] = .ok echoMachine ∧
      run Tape.checked 9 none (echoMachine.onTape [4, 1000]) = (.halted, echoedFour [1000]) ∧
      run Tape.checked 9 none (echoMachine.onTape [4, -1, 7]) = (.halted, echoedFour [-1, 7]) := by
  have hm : Machine.ofImage [901, 902] = .ok echoMachine := eq_ok_of_toOption (by decide +kernel)
  have hrun : run Tape.checked 9 none (echoMachine.onTape [4, 1000]) =
      (.halted, echoedFour [1000]) := by
    decide +kernel
  obtain ⟨k, words, hle, hdrop, hsame, -⟩ := unread_input_inert hm hrun (.inl rfl)
  have hk : k = 1 := by
    have hlength := congrArg List.length hdrop
    simp only [echoedFour, List.length_drop, List.length_cons, List.length_nil] at hlength hle
    omega
  subst hk
  exact ⟨hm, hrun, (hsame [4, -1, 7] rfl).1⟩

end LittleMan
