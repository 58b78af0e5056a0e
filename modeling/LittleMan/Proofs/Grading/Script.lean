/-
A script grades exactly.

What a program does by itself is told by `Dialogue`, a world that expects nothing: it hands over
numbers and keeps what was said. The grades are those of the dialogue:

* `Follows`: the machine halts in its `n`-th step, and the dialogue is the script;
* `Crashes`: the machine asks in its `n`-th step for a number, the dialogue so far is that of the
  script, and what the script has next is no word;
* `ExpectsUnwritten`, `OutlastsUnwritten`: where the grade would have to name an expected number or
  the budget, this number has no text;
* `gradeScript_exact`: the machine passes if it follows the script within the budget, it crashes as
  just said, and it fails otherwise.

A run under the script and the run by itself go in step until the program departs from the script
(`Pace`), and from then on the dialogue is no beginning of the script any more.
-/
import LittleMan.Proofs.Grading.Grade
import LittleMan.Proofs.Text.Decimal
namespace LittleMan

/-! ### A program by itself -/

/-- The number that the program is given in a turn. -/
def Turn.given? : Turn → Option Int
  | input v => some v
  | output _ => none

/-- A world that expects nothing: the numbers it has to give, and what was said so far. -/
structure Dialogue where
  pending : List Int
  turns : List Turn := []
deriving DecidableEq, Repr

/-- It refuses only to give a number when it has none left. -/
def Dialogue.boundary : Boundary Dialogue Unit where
  request d := match d.pending with
    | [] => (.error (), d)
    | v :: rest => (.ok v, { pending := rest, turns := d.turns ++ [.input v] })
  emit v d := (.ok (), { d with turns := d.turns ++ [.output v] })
  report _ d := (.ok (), d)

/-- A program before its first step, with the numbers of a script to be given. -/
def Dialogue.start (base : Machine) (turns : List Turn) : Execution Dialogue :=
  base.start { pending := turns.filterMap Turn.given? }

/-- In its `n`-th step the machine fetches a halt, and what was said is the script. -/
def Follows (base : Machine) (turns : List Turn) (n : Nat) : Prop :=
  ∃ k d, n = k + 1 ∧ advance Dialogue.boundary k (Dialogue.start base turns) = (.exhausted, d) ∧
    d.machine.fetched.val < 100 ∧ d.world.turns = turns

/-- In its `n`-th step the machine asks for a number, where the script, which was followed so far,
has one that is no word. -/
def Crashes (base : Machine) (turns : List Turn) (n : Nat) : Prop :=
  ∃ k d v rest, n = k + 1 ∧
    advance Dialogue.boundary k (Dialogue.start base turns) = (.exhausted, d) ∧
    d.machine.fetched.val = 901 ∧ d.world.turns ++ .input v :: rest = turns ∧ (v < 0 ∨ 999 < v)

/-- In its `n`-th step the machine writes a number, where the script, which was followed so far,
expects one that has no text. -/
def ExpectsUnwritten (base : Machine) (turns : List Turn) (n : Nat) : Prop :=
  ∃ k d v rest, n = k + 1 ∧
    advance Dialogue.boundary k (Dialogue.start base turns) = (.exhausted, d) ∧
    d.machine.fetched.val = 902 ∧ d.world.turns ++ .output v :: rest = turns ∧ ¬Text.HasText v

/-- The budget has no text, and as long as it lasts the machine goes on and follows the script. -/
def OutlastsUnwritten (base : Machine) (turns : List Turn) (budget : Option Int) : Prop :=
  ∃ limit d, limit ∈ budget ∧ ¬Text.HasText limit ∧
    advance Dialogue.boundary limit.toNat (Dialogue.start base turns) = (.exhausted, d) ∧
    d.world.turns <+: turns

/-- What was said stays said. -/
theorem Dialogue.turns_step (d : Execution Dialogue) :
    d.world.turns <+: (step boundary d).2.world.turns := by
  refine world_step (p := fun w : Dialogue => d.world.turns <+: w.turns) ⟨[], List.append_nil _⟩ ?_
    (fun v => ⟨_, rfl⟩) (fun f => ⟨[], List.append_nil _⟩)
  rcases h : d.world.pending with _ | ⟨v, rest⟩
  · simp [boundary, h]
  · simp [boundary, h]

theorem Dialogue.turns_of_input {d d' : Execution Dialogue} (h : d.machine.effect = .input)
    (hd' : step boundary d = (.ok (), d')) : ∃ v, d'.world.turns = d.world.turns ++ [.input v] := by
  rcases hp : d.world.pending with _ | ⟨v, rest⟩
  · have hb : boundary.request d.world = (.error (), d.world) := by simp only [boundary, hp]
    rw [step_of_input_refused h hb] at hd'
    exact absurd (Prod.mk.inj hd').1 (by simp)
  · refine ⟨v, ?_⟩
    have hb : boundary.request d.world =
        (.ok v, { pending := rest, turns := d.world.turns ++ [.input v] }) := by
      simp only [boundary, hp]
    rw [step_of_input h hb] at hd'
    split at hd'
    · rw [← (Prod.mk.inj hd').2]
      rfl
    · exact absurd (Prod.mk.inj hd').1 (by simp)

/-! ### What a script answers -/

theorem Script.request_of_input {w : Script} {v : Int} {rest : List Turn}
    (h : w.pending = .input v :: rest) :
    boundary.request w = (.ok v, { w with pending := rest, consumed := w.consumed + 1 }) := by
  simp only [boundary, request, next, h]

theorem Script.request_of_ne {w : Script} (h : ∀ v, w.pending.head? ≠ some (.input v)) :
    ∃ w', boundary.request w = (.error .unexpectedInput, w') := by
  rcases hp : w.pending with _ | ⟨v | e, rest⟩
  · exact ⟨_, by simp only [boundary, request, next, hp]; rfl⟩
  · exact absurd (by rw [hp]; rfl) (h v)
  · exact ⟨_, by simp only [boundary, request, next, hp]; rfl⟩

theorem Script.pending_of_request {w : Script} {v : Int} (h : (boundary.request w).1 = .ok v) :
    ∃ rest, w.pending = .input v :: rest := by
  by_cases hnext : ∃ v, w.pending.head? = some (.input v)
  · obtain ⟨v', hv'⟩ := hnext
    obtain ⟨rest, hrest⟩ := List.head?_eq_some_iff.mp hv'
    rw [request_of_input hrest] at h
    exact ⟨rest, Except.ok.inj h ▸ hrest⟩
  · obtain ⟨w', hw'⟩ := request_of_ne fun v hv => hnext ⟨v, hv⟩
    rw [hw'] at h
    exact absurd h (by simp)

theorem Script.emit_of_output {w : Script} {v : Int} {rest : List Turn}
    (h : w.pending = .output v :: rest) :
    boundary.emit v w = (.ok (), { w with pending := rest, consumed := w.consumed + 1 }) := by
  simp only [boundary, emit, next, h, if_true]

theorem Script.emit_of_ne {w : Script} {v : Int} (h : w.pending.head? ≠ some (.output v)) :
    ∃ e w', boundary.emit v w = (.error e, w') := by
  rcases hp : w.pending with _ | ⟨e | e, rest⟩
  · exact ⟨_, _, by simp only [boundary, emit, next, hp]; rfl⟩
  · exact ⟨_, _, by simp only [boundary, emit, next, hp]; rfl⟩
  · have hne : e ≠ v := fun he => h (by rw [hp, he]; rfl)
    exact ⟨_, _, by simp only [boundary, emit, next, hp, if_neg hne]; rfl⟩

theorem Departure.ofOutput_eq_unwritten_iff {v e : Int} {n : Text.NumberTooLong} :
    ofOutput v e = .unwritten n ↔ ¬(Text.HasText v ∧ Text.HasText e) := by
  rw [ofOutput]
  by_cases hv : Text.HasText v
  · by_cases he : Text.HasText e
    · simp [Text.written_of_hasText, hv, he]
    · simp [Text.written_of_hasText hv, Text.written_of_not_hasText he, he]
  · simp [Text.written_of_not_hasText hv, hv]

/-- A script has no words for the number that it expects instead, or for the one it is given. -/
theorem Script.emit_eq_unwritten_iff {w : Script} {v : Int} {n : Text.NumberTooLong} :
    (boundary.emit v w).1 = .error (.unwritten n) ↔
      ∃ e rest, w.pending = .output e :: rest ∧ e ≠ v ∧ ¬(Text.HasText v ∧ Text.HasText e) := by
  rcases hp : w.pending with _ | ⟨e | e, rest⟩
  · simp [boundary, emit, next, hp]
  · simp [boundary, emit, next, hp]
  · by_cases hev : e = v
    · simp [boundary, emit, next, hp, hev]
    · simp [boundary, emit, next, hp, hev, Departure.ofOutput_eq_unwritten_iff]

theorem Script.finish_eq_ok_iff {w : Script} : (finish w).1 = .ok () ↔ w.pending = [] := by
  rcases h : w.pending with _ | ⟨turn, rest⟩ <;> simp [finish, next, h]

/-! ### In step -/

/-- The same machine under a script and by itself, the program having kept to the script so far. -/
structure InStep (turns : List Turn) (s : Execution Script) (d : Execution Dialogue) : Prop where
  machine : d.machine = s.machine
  progress : d.progress = s.progress
  said : d.world.turns ++ s.world.pending = turns
  numbers : d.world.pending = s.world.pending.filterMap Turn.given?

variable {turns : List Turn} {s : Execution Script} {d : Execution Dialogue}

/-- What one step does to two machines in step. -/
inductive Pace (turns : List Turn) (s : Execution Script) (d : Execution Dialogue) : Prop where
  | together {s' : Execution Script} {d' : Execution Dialogue}
      (hs : step Script.boundary s = (.ok (), s')) (hd : step Dialogue.boundary d = (.ok (), d'))
      (h : InStep turns s' d')
  /-- The script refuses, and the program by itself, if it goes on, says something else. -/
  | parted {e : StepError Departure} (hs : (step Script.boundary s).1 = .error e)
      (hd : ∀ d', step Dialogue.boundary d = (.ok (), d') → ¬ d'.world.turns <+: turns)

namespace InStep

theorem not_prefix (h : InStep turns s d) {said : List Turn} {turn : Turn}
    (hsaid : said = d.world.turns ++ [turn]) (hne : s.world.pending.head? ≠ some turn) :
    ¬ said <+: turns := by
  rw [hsaid, ← h.said, List.prefix_append_right_inj]
  intro hbegins
  obtain ⟨rest, hrest⟩ := hbegins
  exact hne (by rw [← hrest]; rfl)

theorem moved (h : InStep turns s d) (machine : Machine) {w : Script} {w' : Dialogue}
    (hsaid : w'.turns ++ w.pending = turns)
    (hnumbers : w'.pending = w.pending.filterMap Turn.given?) :
    InStep turns (s.moved machine w) (d.moved machine w') :=
  ⟨rfl, by simp only [Execution.moved, h.progress], hsaid, hnumbers⟩

theorem pace_of_input (h : InStep turns s d) (hs : s.machine.effect = .input) : Pace turns s d := by
  have hd : d.machine.effect = .input := h.machine ▸ hs
  by_cases hnext : ∃ v, s.world.pending.head? = some (.input v)
  · obtain ⟨v, hv⟩ := hnext
    obtain ⟨rest, hrest⟩ := List.head?_eq_some_iff.mp hv
    have hnumbers : d.world.pending = v :: rest.filterMap Turn.given? := by
      rw [h.numbers, hrest]
      rfl
    have hstep := step_of_input hs (Script.request_of_input hrest)
    have hstep' := step_of_input (b := Dialogue.boundary) hd (v := v)
      (by simp only [Dialogue.boundary, hnumbers]; rfl)
    cases hword : isWord v with
    | true =>
      rw [if_pos hword] at hstep hstep'
      rw [h.machine] at hstep'
      refine .together hstep hstep' (h.moved _ ?_ rfl)
      rw [← h.said, hrest, List.append_assoc]
      rfl
    | false =>
      rw [if_neg (by simp [hword])] at hstep hstep'
      exact .parted (by rw [hstep]) fun d' hd' => absurd (hstep'.symm.trans hd') (by simp)
  · obtain ⟨w, hw⟩ := Script.request_of_ne fun v hv => hnext ⟨v, hv⟩
    refine .parted (by rw [step_of_input_refused hs hw]) fun d' hd' => ?_
    obtain ⟨v, hv⟩ := Dialogue.turns_of_input hd hd'
    exact h.not_prefix hv fun hhead => hnext ⟨v, hhead⟩

theorem pace_of_output (h : InStep turns s d) (hs : s.machine.effect = .output) :
    Pace turns s d := by
  have hd : d.machine.effect = .output := h.machine ▸ hs
  have hstep' := step_of_output (b := Dialogue.boundary) hd rfl
  rw [h.machine] at hstep'
  by_cases hnext : s.world.pending.head? = some (.output s.machine.accumulator)
  · obtain ⟨rest, hrest⟩ := List.head?_eq_some_iff.mp hnext
    refine .together (step_of_output hs (Script.emit_of_output hrest)) hstep' (h.moved _ ?_ ?_)
    · rw [← h.said, hrest]
      exact List.append_assoc _ _ _
    · exact h.numbers.trans (by rw [hrest]; rfl)
  · obtain ⟨e, w, hw⟩ := Script.emit_of_ne hnext
    refine .parted (by rw [step_of_output hs hw]; rfl) fun d' hd' => ?_
    rw [← (Prod.mk.inj (hstep'.symm.trans hd')).2]
    exact h.not_prefix rfl hnext

/-- The two stay in step, or the script refuses. -/
theorem pace (h : InStep turns s d) : Pace turns s d := by
  cases hs : s.machine.effect with
  | move next =>
    have hd : d.machine.effect = .move next := h.machine ▸ hs
    exact .together (step_of_move hs) (step_of_move hd) (h.moved _ h.said h.numbers)
  | halt =>
    have hd : d.machine.effect = .halt := h.machine ▸ hs
    refine .together (step_of_halt hs) (step_of_halt hd) ⟨?_, ?_, h.said, h.numbers⟩
    · simp only [Execution.stopped, h.machine]
    · simp only [Execution.stopped, h.progress]
  | fault =>
    have hd : d.machine.effect = .fault := h.machine ▸ hs
    by_cases hpc : Text.HasText s.machine.pc
    · have hpc' : Text.HasText d.machine.pc := h.machine ▸ hpc
      refine .together (step_of_fault hs hpc rfl) (step_of_fault hd hpc' rfl)
        ⟨?_, ?_, h.said, h.numbers⟩
      · simp only [Execution.stopped, h.machine]
      · simp only [Execution.stopped, h.machine, h.progress]
    · have hpc' : ¬Text.HasText d.machine.pc := h.machine ▸ hpc
      refine .parted (congrArg Prod.fst (step_of_fault_unwritten hs hpc)) fun d' hd' => ?_
      exact absurd ((step_of_fault_unwritten hd hpc').symm.trans hd') (by simp)
  | input => exact h.pace_of_input hs
  | output => exact h.pace_of_output hs
  | spill e =>
    have hd : d.machine.effect = .spill e := h.machine ▸ hs
    exact .parted (by rw [step, hs]) fun d' hd' => absurd hd' (by simp [step, hd])

end InStep

theorem inStep_start (base : Machine) (turns : List Turn) :
    InStep turns (base.start { pending := turns }) (Dialogue.start base turns) :=
  ⟨rfl, rfl, rfl, rfl⟩

variable {base : Machine} {k : Nat}

/-- What the script lets happen, happens by itself. -/
theorem inStep_of_script
    (h : advance Script.boundary k (base.start { pending := turns }) = (.exhausted, s)) :
    ∃ d, advance Dialogue.boundary k (Dialogue.start base turns) = (.exhausted, d) ∧
      InStep turns s d := by
  -- the last step is the one that `InStep.pace` is about
  induction k generalizing s with
  | zero =>
    rw [advance_zero_of_exhausted h]
    exact ⟨_, advance_zero rfl, inStep_start base turns⟩
  | succ k ih =>
    obtain ⟨r, hr, hstep, hs⟩ := advance_succ_eq_exhausted_iff.mp h
    obtain ⟨d, hd, hin⟩ := ih hr
    cases hin.pace with
    | together hstep' hd' hin' =>
      obtain rfl := (Prod.mk.inj (hstep'.symm.trans hstep)).2
      exact ⟨_, advance_succ_eq_exhausted_iff.mpr ⟨d, hd, hd', hin'.progress ▸ hs⟩, hin'⟩
    | parted he => exact absurd (he.symm.trans (congrArg Prod.fst hstep)) (by simp)

/-- What happens by itself, the script lets happen as long as what is said begins the script. -/
theorem inStep_of_prefix
    (h : advance Dialogue.boundary k (Dialogue.start base turns) = (.exhausted, d))
    (hbegins : d.world.turns <+: turns) :
    ∃ s, advance Script.boundary k (base.start { pending := turns }) = (.exhausted, s) ∧
      InStep turns s d := by
  induction k generalizing d with
  | zero =>
    rw [advance_zero_of_exhausted h]
    exact ⟨_, advance_zero rfl, inStep_start base turns⟩
  | succ k ih =>
    obtain ⟨r, hr, hstep, hd⟩ := advance_succ_eq_exhausted_iff.mp h
    -- what was said before the last step begins the script all the more
    have hbefore : r.world.turns <+: d.world.turns := by
      have := Dialogue.turns_step r
      rwa [hstep] at this
    obtain ⟨s, hs, hin⟩ := ih hr (hbefore.trans hbegins)
    cases hin.pace with
    | together hs' hstep' hin' =>
      obtain rfl := (Prod.mk.inj (hstep'.symm.trans hstep)).2
      exact ⟨_, advance_succ_eq_exhausted_iff.mpr ⟨s, hs, hs', hin'.progress ▸ hd⟩, hin'⟩
    | parted _ hne => exact absurd hbegins (hne d hstep)

/-! ### The grades -/

section Grades

variable {patience : Nat} {budget : Option Int}

theorem gradeScript_pass_iff {n : Nat}
    (hends : budget = none → (advance Script.boundary (allowance patience budget)
      (base.start { pending := turns })).1 ≠ .exhausted) :
    ((gradeScript patience budget base turns).outcome.verdict = .pass ∧
        (gradeScript patience budget base turns).outcome.steps = n) ↔
      Within budget n ∧ Follows base turns n := by
  rw [gradeScript, grade_pass_iff]
  constructor
  · rintro ⟨k, s, rfl, hk, hs, he, hfinish⟩
    obtain ⟨d, hd, hin⟩ := inStep_of_script hs
    refine ⟨(lt_allowance_iff hs hends).mp hk, k, d, rfl, hd, ?_, ?_⟩
    · rw [hin.machine]
      exact Machine.effect_eq_halt_iff.mp he
    · rw [← hin.said, Script.finish_eq_ok_iff.mp hfinish, List.append_nil]
  · rintro ⟨hk, k, d, rfl, hd, hhalt, hsaid⟩
    obtain ⟨s, hs, hin⟩ := inStep_of_prefix hd (hsaid ▸ List.prefix_rfl)
    refine ⟨k, s, rfl, (lt_allowance_iff hs hends).mpr hk, hs, ?_, ?_⟩
    · rw [← hin.machine]
      exact Machine.effect_eq_halt_iff.mpr hhalt
    · exact Script.finish_eq_ok_iff.mpr (List.append_right_eq_self.mp (hin.said.trans hsaid.symm))

section Crashes

variable (hends : budget = none → (advance Script.boundary (allowance patience budget)
  (base.start { pending := turns })).1 ≠ .exhausted)
include hends

/-- The script hands over what is no word. -/
theorem handsOverNoWord_iff :
    HandsOverNoWord Script.grader patience budget base { pending := turns } ↔
      ∃ n, Within budget n ∧ Crashes base turns n := by
  constructor
  · rintro ⟨k, s, v, hk, hs, he, hrequest, hword⟩
    obtain ⟨d, hd, hin⟩ := inStep_of_script hs
    obtain ⟨rest, hrest⟩ := Script.pending_of_request hrequest
    refine ⟨k + 1, (lt_allowance_iff hs hends).mp hk, k, d, v, rest, rfl, hd, ?_, ?_,
      isWord_eq_false_iff.mp hword⟩
    · rw [hin.machine]
      exact Machine.effect_eq_input_iff.mp he
    · rw [← hrest, hin.said]
  · rintro ⟨_, hk, k, d, v, rest, rfl, hd, hinput, hsaid, hv⟩
    obtain ⟨s, hs, hin⟩ := inStep_of_prefix hd ⟨_, hsaid⟩
    have hrest : s.world.pending = .input v :: rest :=
      List.append_cancel_left (hin.said.trans hsaid.symm)
    refine ⟨k, s, v, (lt_allowance_iff hs hends).mpr hk, hs, ?_,
      congrArg Prod.fst (Script.request_of_input hrest), isWord_eq_false_iff.mpr hv⟩
    rw [← hin.machine]
    exact Machine.effect_eq_input_iff.mpr hinput

/-- The script expects a number that it cannot name. What the machine writes always has a text. -/
theorem departsUnwritten_iff :
    DepartsUnwritten Script.grader patience budget base { pending := turns } ↔
      ∃ n, Within budget n ∧ ExpectsUnwritten base turns n := by
  have hwritten : ∀ {k s},
      advance Script.boundary k (base.start { pending := turns }) = (.exhausted, s) →
        Text.HasText s.machine.accumulator :=
    fun hs => (Machine.InRange.hasText (inRange_of_advance hs)).2
  constructor
  · rintro ⟨k, s, n, hk, hs, hstep⟩
    obtain ⟨d, hd, hin⟩ := inStep_of_script hs
    rcases step_eq_refused_iff.mp hstep with ⟨-, hrequest⟩ | ⟨he, hemit⟩ | ⟨-, -, hreport⟩
    · -- a script that hands over no number says so
      by_cases hnext : ∃ v, s.world.pending.head? = some (.input v)
      · obtain ⟨v, hv⟩ := hnext
        obtain ⟨rest, hrest⟩ := List.head?_eq_some_iff.mp hv
        exact absurd ((congrArg Prod.fst (Script.request_of_input hrest)).symm.trans hrequest) nofun
      · obtain ⟨w, hw⟩ := Script.request_of_ne fun v hv => hnext ⟨v, hv⟩
        exact absurd ((congrArg Prod.fst hw).symm.trans hrequest) nofun
    · obtain ⟨e, rest, hrest, -, htext⟩ := Script.emit_eq_unwritten_iff.mp hemit
      refine ⟨k + 1, (lt_allowance_iff hs hends).mp hk, k, d, e, rest, rfl, hd, ?_, ?_,
        fun h => htext ⟨hwritten hs, h⟩⟩
      · rw [hin.machine]
        exact Machine.effect_eq_output_iff.mp he
      · rw [← hrest, hin.said]
    · exact absurd hreport nofun
  · rintro ⟨_, hk, k, d, v, rest, rfl, hd, houtput, hsaid, htext⟩
    obtain ⟨s, hs, hin⟩ := inStep_of_prefix hd ⟨_, hsaid⟩
    have hrest : s.world.pending = .output v :: rest :=
      List.append_cancel_left (hin.said.trans hsaid.symm)
    have he : s.machine.effect = .output := by
      rw [← hin.machine]
      exact Machine.effect_eq_output_iff.mpr houtput
    have hne : v ≠ s.machine.accumulator := fun h => htext (h ▸ hwritten hs)
    refine ⟨k, s, {}, (lt_allowance_iff hs hends).mpr hk, hs, step_eq_refused_iff.mpr ?_⟩
    exact .inr (.inl ⟨he, Script.emit_eq_unwritten_iff.mpr
      ⟨v, rest, hrest, hne, fun h => htext h.2⟩⟩)

omit hends in
/-- The budget is used up and cannot be named. -/
theorem endsUnwritten_iff :
    EndsUnwritten Script.grader patience budget base { pending := turns } ↔
      OutlastsUnwritten base turns budget := by
  constructor
  · rintro ⟨limit, rfl, htext, hend⟩
    obtain ⟨d, hd, hin⟩ := inStep_of_script (k := limit.toNat) (Prod.ext hend rfl)
    exact ⟨limit, d, rfl, htext, hd, _, hin.said⟩
  · rintro ⟨limit, d, rfl, htext, hd, hbegins⟩
    obtain ⟨s, hs, -⟩ := inStep_of_prefix hd hbegins
    exact ⟨limit, rfl, htext, congrArg Prod.fst hs⟩

theorem gradeScript_crash_iff :
    (gradeScript patience budget base turns).outcome.verdict = .crash ↔
      (∃ n, Within budget n ∧ Crashes base turns n) ∨
        (∃ n, Within budget n ∧ ExpectsUnwritten base turns n) ∨
          OutlastsUnwritten base turns budget := by
  rw [gradeScript, grade_crash_iff, handsOverNoWord_iff hends, departsUnwritten_iff hends,
    endsUnwritten_iff]

end Crashes

/-- A program is graded by what it says by itself, if its run ends: it passes if that is the script,
it crashes at a number of the script that is no word, and where a number of the script or the budget
would have to be named and has no text, and it fails in all other cases. Nothing of the machine but
its memory has a part in it. -/
theorem gradeScript_exact
    (hends : budget = none → (run Script.boundary patience budget
      { machine := base.reset, world := { pending := turns } }).1 ≠ .exhausted) :
    (∀ n, ((gradeScript patience budget base turns).outcome.verdict = .pass ∧
        (gradeScript patience budget base turns).outcome.steps = n) ↔
      Within budget n ∧ Follows base turns n) ∧
    ((gradeScript patience budget base turns).outcome.verdict = .crash ↔
      (∃ n, Within budget n ∧ Crashes base turns n) ∨
        (∃ n, Within budget n ∧ ExpectsUnwritten base turns n) ∨
          OutlastsUnwritten base turns budget) ∧
    ((gradeScript patience budget base turns).outcome.verdict = .fail ↔
      (¬ ∃ n, Within budget n ∧ Follows base turns n) ∧
        (¬ ∃ n, Within budget n ∧ Crashes base turns n) ∧
          (¬ ∃ n, Within budget n ∧ ExpectsUnwritten base turns n) ∧
            ¬ OutlastsUnwritten base turns budget) ∧
    ∀ other : Machine, other.memory = base.memory →
      (gradeScript patience budget other turns).outcome =
        (gradeScript patience budget base turns).outcome := by
  have hpass := fun n => gradeScript_pass_iff (n := n) hends
  have hcrash := gradeScript_crash_iff hends
  have hfollows : (∃ n, Within budget n ∧ Follows base turns n) ↔
      (gradeScript patience budget base turns).outcome.verdict = .pass :=
    ⟨fun ⟨n, h⟩ => ((hpass n).mpr h).1, fun h => ⟨_, (hpass _).mp ⟨h, rfl⟩⟩⟩
  refine ⟨hpass, hcrash, ?_, fun other hmemory => ?_⟩
  · -- there is no fourth grade
    rw [hfollows, ← not_or, ← not_or, ← hcrash]
    cases (gradeScript patience budget base turns).outcome.verdict <;> simp
  · exact outcome_eq_of_memory_eq hmemory

/-- A program that writes the number it is given. -/
def echoProgram : Machine :=
  { memory := .ofWords [Word.wrap 901, Word.wrap 902], pc := 7, accumulator := 5 }

theorem gradeScript_echo :
    (gradeScript 10 none echoProgram [.input 4, .output 4]).outcome.verdict = .pass ∧
      (gradeScript 10 none echoProgram [.input 4, .output 4]).outcome.steps = 3 ∧
      Follows echoProgram [.input 4, .output 4] 3 := by
  have hends : (run Script.boundary 10 none { machine := echoProgram.reset
                                              world := { pending := [.input 4, .output 4] } }).1 ≠
      .exhausted := by
    decide +kernel
  have hpass : (gradeScript 10 none echoProgram [.input 4, .output 4]).outcome.verdict = .pass ∧
      (gradeScript 10 none echoProgram [.input 4, .output 4]).outcome.steps = 3 := by
    decide +kernel
  exact ⟨hpass.1, hpass.2, (((gradeScript_exact fun _ => hends).1 3).mp hpass).2⟩

/-- A program that writes the accumulator. -/
def writingProgram : Machine := { memory := .ofWords [Word.wrap 902] }

/-- A program crashes although nothing is handed over to it: it writes another number than the one
that is expected, which has no text. -/
theorem gradeScript_of_leastUnwritten :
    (run Script.boundary 1 none
        { machine := writingProgram.reset, world := { pending := [.output Text.leastUnwritten] } }).1 ≠
          .exhausted ∧
      (gradeScript 1 none writingProgram [.output Text.leastUnwritten]).outcome.verdict = .crash ∧
      ¬∃ n, Within none n ∧ Crashes writingProgram [.output Text.leastUnwritten] n := by
  refine ⟨by decide +kernel, by decide +kernel, ?_⟩
  rintro ⟨n, -, k, d, v, rest, -, -, -, hsaid, -⟩
  have hturn : Turn.input v ∈ d.world.turns ++ .input v :: rest := by simp
  rw [hsaid] at hturn
  simp at hturn

end Grades

end LittleMan
