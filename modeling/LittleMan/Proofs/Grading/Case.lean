/-
A case and a script agree.

A case says what a program is given and what it should write, a script also how the two are mixed
(`Mixes`). A program that passes a case has chosen a mixture, and passes it as a script:

* `imitates_script`: a case answers like any script that mixes it, so a program that passes the
  script passes the case;
* `imitates_dialogue`: a program by itself says what it says to the case, so what was said when it
  passed is a script that it passes;
* `Follows.unique`: a program follows no two scripts that give it the same numbers;
* `Case.inBounds_of_parseFrom`: what is read from a file are words, and a limit that can be named;
* `Case.run_agrees`: a case is passed if and only if a script that mixes it is passed, in as many
  steps, and there is one such script. A case that was read from a file never crashes a program.
-/
import LittleMan.Grading.Case
import LittleMan.Proofs.Grading.Script
import LittleMan.Proofs.Imitation
import LittleMan.Proofs.Results
import LittleMan.Proofs.Text.Decimal
namespace LittleMan

open Text

/-! ### Mixtures -/

/-- The number that the program is expected to write in a turn. -/
def Turn.expected? : Turn → Option Int
  | input _ => none
  | output v => some v

/-- A script that mixes inputs and outputs, each kept in order. -/
inductive Mixes : List Turn → List Int → List Int → Prop where
  | nil : Mixes [] [] []
  | input (v : Int) {turns : List Turn} {inputs outputs : List Int}
      (h : Mixes turns inputs outputs) : Mixes (.input v :: turns) (v :: inputs) outputs
  | output (v : Int) {turns : List Turn} {inputs outputs : List Int}
      (h : Mixes turns inputs outputs) : Mixes (.output v :: turns) inputs (v :: outputs)

variable {turns : List Turn} {inputs outputs : List Int}

theorem mixes_iff : Mixes turns inputs outputs ↔
    turns.filterMap Turn.given? = inputs ∧ turns.filterMap Turn.expected? = outputs := by
  constructor
  · intro h
    induction h with
    | nil => exact ⟨rfl, rfl⟩
    | input v _ ih => exact ⟨congrArg (v :: ·) ih.1, ih.2⟩
    | output v _ ih => exact ⟨ih.1, congrArg (v :: ·) ih.2⟩
  · rintro ⟨rfl, rfl⟩
    induction turns with
    | nil => exact .nil
    | cons turn turns ih =>
      cases turn with
      | input v => exact .input v ih
      | output v => exact .output v ih

/-! ### A case beside a script -/

theorem Script.pending_of_emit {w : Script} {v : Int} (h : (boundary.emit v w).1 = .ok ()) :
    ∃ rest, w.pending = .output v :: rest := by
  by_cases hnext : w.pending.head? = some (.output v)
  · exact List.head?_eq_some_iff.mp hnext
  · obtain ⟨e, w', hw'⟩ := emit_of_ne hnext
    rw [hw'] at h
    exact absurd h (by simp)

namespace Case

theorem Play.finish_eq_ok_iff {p : Play} :
    (Play.finish p).1 = .ok () ↔ p.inputs = [] ∧ p.outputs = [] := by
  rw [Play.finish]
  by_cases ho : p.outputs = []
  · by_cases hi : p.inputs = [] <;> simp [ho, hi]
  · simp [ho]

/-- What a script answers, a case that it mixes answers too. -/
theorem imitates_script : Imitates Script.boundary grader.boundary
    fun (w : Script) (p : Play) => Mixes w.pending p.inputs p.outputs where
  request := by
    intro w p v w₁ hmix hrequest
    obtain ⟨rest, hrest⟩ := Script.pending_of_request (congrArg Prod.fst hrequest)
    obtain rfl := (Prod.mk.inj ((Script.request_of_input hrest).symm.trans hrequest)).2
    rw [hrest] at hmix
    obtain ⟨_ | ⟨i, is⟩, os, faults⟩ := p
    · cases hmix
    · cases hmix with
      | input _ h => exact ⟨⟨is, os, faults⟩, rfl, h⟩
  emit := by
    intro w p v w₁ hmix hemit
    obtain ⟨rest, hrest⟩ := Script.pending_of_emit (congrArg Prod.fst hemit)
    obtain rfl := (Prod.mk.inj ((Script.emit_of_output hrest).symm.trans hemit)).2
    rw [hrest] at hmix
    obtain ⟨is, _ | ⟨o, os⟩, faults⟩ := p
    · cases hmix
    · cases hmix with
      | output _ h => exact ⟨⟨is, os, faults⟩, by simp [grader, Play.emit], h⟩
  report := by
    intro w p f w₁ hmix hreport
    obtain rfl := (Prod.mk.inj hreport).2
    exact ⟨_, rfl, hmix⟩

/-! ### A case beside the program by itself -/

/-- The dialogue so far and what is left of the case make up the case. -/
structure Accounts (inputs outputs : List Int) (p : Play) (d : Dialogue) : Prop where
  pending : d.pending = p.inputs
  given : d.turns.filterMap Turn.given? ++ p.inputs = inputs
  written : d.turns.filterMap Turn.expected? ++ p.outputs = outputs

/-- What a program says to a case, it says by itself. -/
theorem imitates_dialogue :
    Imitates grader.boundary Dialogue.boundary (Accounts inputs outputs) where
  request := by
    rintro ⟨_ | ⟨i, is⟩, os, faults⟩ ⟨pending, turns⟩ v w₁ ⟨hpending, hgiven, hwritten⟩ hrequest
    · exact absurd (Prod.mk.inj hrequest).1 (by simp)
    · obtain ⟨hv, rfl⟩ := Prod.mk.inj hrequest
      obtain rfl := Except.ok.inj hv
      dsimp only at hpending
      subst hpending
      refine ⟨{ pending := is, turns := turns ++ [.input i] }, rfl, rfl, ?_, ?_⟩
      · rw [← hgiven, List.filterMap_append, List.append_assoc]
        rfl
      · rw [← hwritten, List.filterMap_append]
        simp [Turn.expected?]
  emit := by
    rintro ⟨is, _ | ⟨o, os⟩, faults⟩ ⟨pending, turns⟩ v w₁ ⟨hpending, hgiven, hwritten⟩ hemit
    · exact absurd (Prod.mk.inj hemit).1 (by simp)
    · obtain ⟨hv, rfl⟩ := Prod.mk.inj hemit
      -- a number that is not the expected one would have been refused
      split at hv
      · next heq =>
        subst heq
        refine ⟨{ pending, turns := turns ++ [.output v] }, rfl, hpending, ?_, ?_⟩
        · rw [← hgiven, List.filterMap_append]
          simp [Turn.given?]
        · rw [← hwritten, List.filterMap_append, List.append_assoc]
          rfl
      · exact absurd hv (by simp)
  report := by
    rintro p d f w₁ h hreport
    obtain rfl := (Prod.mk.inj hreport).2
    exact ⟨d, rfl, h.pending, h.given, h.written⟩

theorem accounts_start (base : Machine) (inputs outputs : List Int) :
    Beside (Accounts inputs outputs) (base.start { inputs, outputs })
      (base.start { pending := inputs }) := ⟨rfl, rfl, rfl, rfl, rfl⟩

end Case

/-! ### The script that is followed -/

variable {base : Machine} {n : Nat}

theorem advance_of_follows {k j : Nat} {d d' : Execution Dialogue}
    (hd : advance Dialogue.boundary k (Dialogue.start base turns) = (.exhausted, d))
    (hhalt : d.machine.fetched.val < 100)
    (hd' : advance Dialogue.boundary j (Dialogue.start base turns) = (.exhausted, d')) : j ≤ k := by
  refine Nat.le_of_not_lt fun hlt => ?_
  obtain ⟨r, hr⟩ := exhausted_of_le (Nat.succ_le_of_lt hlt) hd'
  obtain ⟨q, hq, hstep, hgoing⟩ := advance_succ_eq_exhausted_iff.mp hr
  obtain rfl := (Prod.mk.inj (hd.symm.trans hq)).2
  obtain rfl := (Prod.mk.inj ((step_of_halt (Machine.effect_eq_halt_iff.mpr hhalt)).symm.trans
    hstep)).2
  exact absurd hgoing (by simp [Execution.stopped])

/-- A program follows no two scripts that give it the same numbers. -/
theorem Follows.unique {turns' : List Turn} {n' : Nat} (h : Follows base turns n)
    (h' : Follows base turns' n')
    (hgiven : turns.filterMap Turn.given? = turns'.filterMap Turn.given?) : turns = turns' := by
  obtain ⟨k, d, -, hd, hhalt, rfl⟩ := h
  obtain ⟨k', d', -, hd', hhalt', rfl⟩ := h'
  have hstart : Dialogue.start base d'.world.turns = Dialogue.start base d.world.turns := by
    rw [Dialogue.start, Dialogue.start, hgiven]
  rw [hstart] at hd'
  obtain rfl : k = k' :=
    Nat.le_antisymm (advance_of_follows hd' hhalt' hd) (advance_of_follows hd hhalt hd')
  rw [(Prod.mk.inj (hd.symm.trans hd')).2]

/-- The program passes the script in its `n`-th step, if it is left to run long enough. -/
def PassesScript (base : Machine) (budget : Option Int) (turns : List Turn) (n : Nat) : Prop :=
  ∃ patience, (gradeScript patience budget base turns).outcome.verdict = .pass ∧
    (gradeScript patience budget base turns).outcome.steps = n

theorem PassesScript.follows {budget : Option Int} (h : PassesScript base budget turns n) :
    Within budget n ∧ Follows base turns n := by
  obtain ⟨patience, h⟩ := h
  have hend : (advance Script.boundary (allowance patience budget)
      (base.start { pending := turns })).1 = .halted := halted_of_pass h.1
  exact (gradeScript_pass_iff fun _ => by rw [hend]; simp).mp h

namespace Case

variable {c : Case} {patience : Nat}

/-- What was said when a case was passed is a script that is passed. -/
theorem exists_script_of_pass (hpass : (c.run patience base).outcome.verdict = .pass)
    (hsteps : (c.run patience base).outcome.steps = n) :
    ∃ turns, Mixes turns c.inputs c.outputs ∧ PassesScript base c.maxSteps turns n := by
  obtain ⟨k, r, rfl, hk, hr, he, hfinish⟩ := grade_pass_iff.mp ⟨hpass, hsteps⟩
  obtain ⟨hin, hout⟩ := Play.finish_eq_ok_iff.mp hfinish
  obtain ⟨d, hd, hbeside⟩ :=
    imitates_dialogue.advance (accounts_start base c.inputs c.outputs) hr
  have hgiven : d.world.turns.filterMap Turn.given? = c.inputs := by
    rw [← hbeside.world.given, hin, List.append_nil]
  have hwritten : d.world.turns.filterMap Turn.expected? = c.outputs := by
    rw [← hbeside.world.written, hout, List.append_nil]
  have hself : advance Dialogue.boundary k (Dialogue.start base d.world.turns) =
      (.exhausted, d) := by
    rw [Dialogue.start, hgiven]
    exact hd
  obtain ⟨s, hs, hstep⟩ := inStep_of_prefix hself List.prefix_rfl
  refine ⟨d.world.turns, mixes_iff.mpr ⟨hgiven, hwritten⟩, patience,
    grade_pass_iff.mpr ⟨k, s, rfl, hk, hs, ?_, ?_⟩⟩
  · rw [← hstep.machine, hbeside.machine]
    exact he
  · exact Script.finish_eq_ok_iff.mpr (List.append_right_eq_self.mp hstep.said)

/-- A program that passes a script passes every case that the script mixes, if its run ends. -/
theorem pass_of_script
    (hends : c.maxSteps = none → (advance grader.boundary (allowance patience c.maxSteps)
      (base.start { inputs := c.inputs, outputs := c.outputs })).1 ≠ .exhausted)
    (hmix : Mixes turns c.inputs c.outputs) (h : PassesScript base c.maxSteps turns n) :
    (c.run patience base).outcome.verdict = .pass ∧
      (c.run patience base).outcome.steps = n := by
  obtain ⟨hwithin, -⟩ := h.follows
  obtain ⟨_, h⟩ := h
  obtain ⟨k, r, rfl, -, hr, he, hfinish⟩ := grade_pass_iff.mp h
  have hstart : Beside (fun (w : Script) (p : Play) => Mixes w.pending p.inputs p.outputs)
      (base.start { pending := turns })
      (base.start { inputs := c.inputs, outputs := c.outputs }) := ⟨rfl, rfl, hmix⟩
  obtain ⟨r', hr', hbeside⟩ := imitates_script.advance hstart hr
  refine grade_pass_iff.mpr ⟨k, r', rfl, (lt_allowance_iff hr' hends).mpr hwithin, hr', ?_, ?_⟩
  · rw [hbeside.machine]
    exact he
  · -- nothing is left of the script, so nothing of the case
    have hleft := hbeside.world
    rw [Script.finish_eq_ok_iff.mp hfinish] at hleft
    obtain ⟨hin, hout⟩ := mixes_iff.mp hleft
    exact Play.finish_eq_ok_iff.mpr ⟨hin.symm, hout.symm⟩

/-! ### Cases from a file -/

/-- A case whose numbers are words, with a limit that can be named. -/
structure InBounds (c : Case) : Prop where
  inputs : ∀ v ∈ c.inputs, isWord v = true
  outputs : ∀ v ∈ c.outputs, isWord v = true
  limit : ∀ n ∈ c.maxSteps, HasText n

/-- A case has no words for the number that it expects instead, or for the one it is given. -/
theorem Play.emit_eq_unwritten {p : Play} {v : Int} {n : NumberTooLong}
    (h : (grader.boundary.emit v p).1 = .error (.unwritten n)) :
    ∃ e ∈ p.outputs, ¬(HasText v ∧ HasText e) := by
  rcases ho : p.outputs with _ | ⟨e, rest⟩
  · simp [grader, Play.emit, ho] at h
  · refine ⟨e, List.mem_cons_self, ?_⟩
    by_cases hev : v = e
    · simp [grader, Play.emit, ho, hev] at h
    · simpa [grader, Play.emit, ho, hev, Departure.ofOutput_eq_unwritten_iff] using h

/-- What a case gives to a program is among its inputs, and what it expects among its outputs. -/
theorem ne_crash_of_inBounds (h : c.InBounds) : (c.run patience base).outcome.verdict ≠ .crash := by
  intro hcrash
  rcases grade_crash_iff.mp hcrash with ⟨k, r, v, -, hr, -, hrequest, hword⟩ |
    ⟨k, r, n, -, hr, hstep⟩ | ⟨limit, hlimit, htext, -⟩
  · obtain ⟨d, -, hbeside⟩ :=
      imitates_dialogue.advance (accounts_start base c.inputs c.outputs) hr
    have hmem : v ∈ r.world.inputs := by
      rcases hi : r.world.inputs with _ | ⟨i, rest⟩
      · simp [grader, Play.request, hi] at hrequest
      · simp only [grader, Play.request, hi, Except.ok.injEq] at hrequest
        exact hrequest ▸ List.mem_cons_self
    have hv := h.inputs v (hbeside.world.given ▸ List.mem_append_right _ hmem)
    exact absurd (hv.symm.trans hword) (by simp)
  · obtain ⟨d, -, hbeside⟩ :=
      imitates_dialogue.advance (accounts_start base c.inputs c.outputs) hr
    rcases step_eq_refused_iff.mp hstep with ⟨-, hrequest⟩ | ⟨-, hemit⟩ | ⟨-, -, hreport⟩
    · rcases hi : r.world.inputs with _ | ⟨i, rest⟩ <;> simp [grader, Play.request, hi] at hrequest
    · obtain ⟨e, he, htext⟩ := Play.emit_eq_unwritten hemit
      have hword := h.outputs e (hbeside.world.written ▸ List.mem_append_right _ he)
      exact htext ⟨(Machine.InRange.hasText (inRange_of_advance hr)).2, hasText_of_isWord hword⟩
    · exact absurd hreport nofun
  · exact htext (h.limit limit hlimit)

theorem isWord_of_parseValue {what : String} {line v : Int} {item : List Char}
    (h : parseValue what line item = .ok v) : isWord v = true := by
  obtain ⟨value, -, h⟩ := bind_eq_ok_iff.mp h
  obtain ⟨hle, h⟩ := check_eq_ok_iff.mp h
  rw [← Except.ok.inj h, isWord_iff]
  omega

theorem isWord_of_parseValues {what : String} {line : Int} {cs : List Char} {values : List Int}
    (h : parseValues what line cs = .ok values) : ∀ v ∈ values, isWord v = true := by
  rw [parseValues] at h
  split at h
  · rw [← Except.ok.inj h]
    simp
  · have hread := (mapM_eq_ok_iff.mp h).flip
    exact ((List.forall₂_and_left _ _).mp (hread.imp fun _ _ h => ⟨isWord_of_parseValue h, h⟩)).1

theorem hasText_of_parseLimit {line : Int} {cs : List Char} {limit : Option Int}
    (h : parseLimit line cs = .ok limit) : ∀ n ∈ limit, HasText n := by
  rw [parseLimit] at h
  split at h
  · rw [← Except.ok.inj h]
    simp
  · obtain ⟨n, hread, h⟩ := bind_eq_ok_iff.mp h
    obtain ⟨-, h⟩ := check_eq_ok_iff.mp h
    obtain rfl := Except.ok.inj h
    rw [readNumber] at hread
    split at hread
    · next hnumeral =>
      intro m hm
      obtain rfl := Option.some_inj.mp hm
      exact hasText_of_readNumeral hnumeral (mapError_eq_ok_iff.mp hread)
    · exact absurd hread (by simp)

theorem inBounds_of_parse {text : String} {line : Int} (h : parse text line = .ok c) : c.InBounds := by
  rw [parse] at h
  split at h
  · obtain ⟨-, h⟩ := check_eq_ok_iff.mp h
    obtain ⟨limit, hlimit, h⟩ := bind_eq_ok_iff.mp h
    obtain ⟨inputs, hinputs, h⟩ := bind_eq_ok_iff.mp h
    obtain ⟨outputs, houtputs, h⟩ := bind_eq_ok_iff.mp h
    rw [← Except.ok.inj h]
    exact ⟨isWord_of_parseValues hinputs, isWord_of_parseValues houtputs,
      hasText_of_parseLimit hlimit⟩
  · exact absurd h (by simp)

theorem inBounds_of_parseFrom {number : Nat} {lines : List String} {cases : List Case}
    (h : parseFrom number lines = .ok cases) : ∀ c ∈ cases, c.InBounds := by
  induction lines generalizing number cases with
  | nil =>
    rw [← Except.ok.inj h]
    simp
  | cons raw rest ih =>
    rw [parseFrom] at h
    split at h
    · exact ih h
    · obtain ⟨first, hfirst, h⟩ := bind_eq_ok_iff.mp h
      obtain ⟨later, hlater, h⟩ := bind_eq_ok_iff.mp h
      rw [← Except.ok.inj h]
      intro c hc
      rcases List.mem_cons.mp hc with rfl | hc
      · exact inBounds_of_parse hfirst
      · exact ih hlater c hc

/-- A case is passed just like the one script that it makes with what the program says. -/
theorem run_agrees
    (hends : c.maxSteps = none → (LittleMan.run grader.boundary patience c.maxSteps
      { machine := base.reset
        world := { inputs := c.inputs, outputs := c.outputs } }).1 ≠ .exhausted) :
    (∀ n, ((c.run patience base).outcome.verdict = .pass ∧
        (c.run patience base).outcome.steps = n) ↔
      ∃ turns, Mixes turns c.inputs c.outputs ∧ PassesScript base c.maxSteps turns n) ∧
    (∀ turns turns' n n', Mixes turns c.inputs c.outputs → Mixes turns' c.inputs c.outputs →
      PassesScript base c.maxSteps turns n → PassesScript base c.maxSteps turns' n' →
      turns = turns') ∧
    ∀ lines cases, parseFile lines = .ok cases → ∀ c' ∈ cases, ∀ patience' base',
      (c'.run patience' base').outcome.verdict = .pass ∨
        (c'.run patience' base').outcome.verdict = .fail := by
  refine ⟨fun n => ⟨fun ⟨hpass, hsteps⟩ => exists_script_of_pass hpass hsteps,
    fun ⟨turns, hmix, h⟩ => pass_of_script hends hmix h⟩, ?_, ?_⟩
  · intro turns turns' n n' hmix hmix' h h'
    refine h.follows.2.unique h'.follows.2 ?_
    rw [(mixes_iff.mp hmix).1, (mixes_iff.mp hmix').1]
  · intro lines cases hparse c' hc' patience' base'
    have hcrash : (c'.run patience' base').outcome.verdict ≠ .crash :=
      ne_crash_of_inBounds (inBounds_of_parseFrom hparse c' hc')
    cases hverdict : (c'.run patience' base').outcome.verdict with
    | pass => exact .inl rfl
    | fail => exact .inr rfl
    | crash => exact absurd hverdict hcrash

/-- Reads a number, writes it, reads another one and halts. -/
def writesFirst : Machine :=
  { memory := .ofWords [Word.wrap 901, Word.wrap 902, Word.wrap 901], accumulator := 7 }

/-- The case of that program, which leaves open when the second number is read. -/
def firstOfTwo : Case := { name := "first of two", inputs := [4, 5], outputs := [4] }

theorem run_agrees_first_of_two :
    (firstOfTwo.run 9 writesFirst).outcome.verdict = .pass ∧
      (firstOfTwo.run 9 writesFirst).outcome.steps = 4 ∧
      ∃ turns, Mixes turns [4, 5] [4] ∧ PassesScript writesFirst none turns 4 := by
  have hends : (LittleMan.run grader.boundary 9 none
      { machine := writesFirst.reset
        world := { inputs := firstOfTwo.inputs, outputs := firstOfTwo.outputs } }).1 ≠
      .exhausted := by
    decide +kernel
  have hpass : (firstOfTwo.run 9 writesFirst).outcome.verdict = .pass ∧
      (firstOfTwo.run 9 writesFirst).outcome.steps = 4 := by
    decide +kernel
  exact ⟨hpass.1, hpass.2, ((run_agrees fun _ => hends).1 4).mp hpass⟩

end Case

end LittleMan
