/-
The polynomial test on a pool of workers.

The test is a queue of slices, one for each argument. A worker takes up the next slice, tries its
combinations one by one and keeps a report of its own; when there are none left it merges this
report into the common one, and nobody else does so at that time. When each of this happens is up to
the schedule (`Pool.Step`).

* `sound_of_reaches`: at any time the common report is that on the slices merged so far;
* `exists_step`, `remaining_of_step`: every schedule ends, and only when all slices are merged;
* `Pool.result_eq`: the report is given back if all that the notes name has a text;
* `polynomialTest_on_pool`: so the totals are the same for every schedule, and if the slices are
  merged in the order of the arguments, the report is that of the test with one slice after another.

A slice is merged before the note on it is taken. So the common report covers all slices even where
an argument has no text, but then it is not given back.
-/
import LittleMan.Proofs.Grading.Report
import LittleMan.Proofs.Text.Decimal
import Mathlib.Algebra.Ring.Nat
import Mathlib.Logic.Relation
namespace LittleMan

open Relation (ReflTransGen)

/-- A slice that a worker is busy with: what it has still to try, and its own report so far. -/
structure Task where
  argument : Int
  todo : List Combination
  part : Report := {}

/-- The pool: arguments whose slices wait, the slices that are worked on, the arguments whose slices
are merged, in that order, and the common report. -/
structure Pool where
  waiting : List Int
  active : List Task := []
  merged : List Int := []
  report : Report := {}

namespace Pool

/-- The pool before anything was done. -/
def start (arguments : List Int) : Pool := { waiting := arguments }

/-- What can happen next. -/
inductive Step (outcome : Combination → Outcome) (coefficients : List Int) (workers : Int) :
    Pool → Pool → Prop where
  /-- A worker that has nothing to do takes up the next slice. There is always one worker. -/
  | take {x : Int} {rest : List Int} {active : List Task} {merged : List Int} {report : Report}
      (hfree : active.length < max 1 workers) :
      Step outcome coefficients workers ⟨x :: rest, active, merged, report⟩
        ⟨rest, active ++ [⟨x, combinationsAt coefficients x, {}⟩], merged, report⟩
  /-- A worker tries a combination, for its own report. -/
  | grade {waiting : List Int} (before : List Task) {x : Int} {q : Combination}
      {todo : List Combination} {part : Report} {after : List Task} {merged : List Int}
      {report : Report} :
      Step outcome coefficients workers
        ⟨waiting, before ++ ⟨x, q :: todo, part⟩ :: after, merged, report⟩
        ⟨waiting, before ++ ⟨x, todo, part.record q (outcome q)⟩ :: after, merged, report⟩
  /-- A worker that is through merges its report. -/
  | merge {waiting : List Int} (before : List Task) {x : Int} {part : Report} {after : List Task}
      {merged : List Int} {report : Report} :
      Step outcome coefficients workers ⟨waiting, before ++ ⟨x, [], part⟩ :: after, merged, report⟩
        ⟨waiting, before ++ after, merged ++ [x], report.merge part⟩

section Schedules

variable {outcome : Combination → Outcome} {coefficients arguments : List Int} {workers : Int}
  {p p' : Pool}

/-! ### What every schedule keeps -/

/-- The report of a worker is that on what it has tried. -/
def Task.Sound (outcome : Combination → Outcome) (coefficients : List Int) (t : Task) : Prop :=
  ∃ done, combinationsAt coefficients t.argument = done ++ t.todo ∧
    t.part = .ofTried (tryAll outcome done)

/-- The common report is that on the slices merged, and no slice is lost or done twice. -/
structure Sound (outcome : Combination → Outcome) (coefficients arguments : List Int) (p : Pool) :
    Prop where
  tasks : ∀ t ∈ p.active, Task.Sound outcome coefficients t
  report : p.report = .ofTried (tryAll outcome (combinations coefficients p.merged))
  slices : (p.merged ++ p.active.map Task.argument ++ p.waiting).Perm arguments

theorem sound_start : Sound outcome coefficients arguments (start arguments) :=
  ⟨by simp [start], rfl, .refl _⟩

theorem sound_of_step (h : Step outcome coefficients workers p p')
    (hp : Sound outcome coefficients arguments p) : Sound outcome coefficients arguments p' := by
  obtain ⟨htasks, hreport, hslices⟩ := hp
  cases h with
  | @take x rest active merged report hfree =>
    refine ⟨fun t ht => ?_, hreport, ?_⟩
    · rcases List.mem_append.mp ht with ht | ht
      · exact htasks t ht
      · rw [List.mem_singleton.mp ht]
        exact ⟨[], rfl, rfl⟩
    · simpa using hslices
  | @grade waiting before x q todo part after merged report =>
    refine ⟨fun t ht => ?_, hreport, ?_⟩
    · rcases List.mem_append.mp ht with ht | ht
      · exact htasks t (List.mem_append_left _ ht)
      rcases List.mem_cons.mp ht with rfl | ht
      · obtain ⟨done, hdone, hpart⟩ := htasks ⟨x, q :: todo, part⟩ (by simp)
        dsimp only at hdone hpart
        refine ⟨done ++ [q], by simpa using hdone, ?_⟩
        rw [hpart, Report.record_ofTried, tryAll, tryAll, List.map_append, List.map_singleton]
      · exact htasks t (List.mem_append_right _ (List.mem_cons_of_mem _ ht))
    · simpa using hslices
  | @merge waiting before x part after merged report =>
    refine ⟨fun t ht => ?_, ?_, ?_⟩
    · refine htasks t (List.mem_append.mpr ((List.mem_append.mp ht).imp_right fun h => ?_))
      exact List.mem_cons_of_mem _ h
    · -- the worker is through, so its report is that on the whole slice
      obtain ⟨done, hdone, hpart⟩ := htasks ⟨x, [], part⟩ (by simp)
      dsimp only at hdone hpart hreport ⊢
      rw [List.append_nil] at hdone
      rw [hreport, hpart, Report.merge_ofTried, ← hdone, combinations, combinations,
        List.flatMap_append, List.flatMap_singleton, tryAll, tryAll, tryAll, List.map_append]
    · refine List.Perm.trans ?_ hslices
      simp only [List.map_append, List.map_cons, List.append_assoc, List.cons_append,
        List.nil_append]
      exact List.perm_middle.symm.append_left merged

theorem sound_of_reaches
    (h : ReflTransGen (Step outcome coefficients workers) (start arguments) p) :
    Sound outcome coefficients arguments p := by
  induction h with
  | refl => exact sound_start
  | tail _ hstep ih => exact sound_of_step hstep ih

/-! ### Every schedule ends -/

variable (outcome coefficients workers) in
/-- As long as there are slices, something can happen. -/
theorem exists_step (h : p.waiting ≠ [] ∨ p.active ≠ []) :
    ∃ p', Step outcome coefficients workers p p' := by
  obtain ⟨waiting, active, merged, report⟩ := p
  rcases active with _ | ⟨⟨x, _ | ⟨q, todo⟩, part⟩, after⟩
  · obtain ⟨x, rest, rfl⟩ := List.exists_cons_of_ne_nil (h.resolve_right (by simp))
    exact ⟨_, .take (by rw [List.length_nil]; omega)⟩
  · exact ⟨_, .merge []⟩
  · exact ⟨_, .grade []⟩

/-- Nothing happens any more just when all slices are merged. -/
theorem stuck_iff :
    (∀ p', ¬ Step outcome coefficients workers p p') ↔ p.waiting = [] ∧ p.active = [] := by
  constructor
  · intro h
    by_contra hne
    obtain ⟨p', hp'⟩ := exists_step outcome coefficients workers (not_and_or.mp hne)
    exact h p' hp'
  · rintro ⟨hwaiting, hactive⟩ p' h
    cases h <;> simp at hwaiting hactive

/-- How much is left to do: each slice has to be taken up, to be worked through and to be merged. -/
def remaining (coefficients : List Int) (p : Pool) : Nat :=
  (p.waiting.map fun x => (combinationsAt coefficients x).length + 2).sum +
    (p.active.map fun t => t.todo.length + 1).sum

theorem remaining_of_step (h : Step outcome coefficients workers p p') :
    remaining coefficients p = remaining coefficients p' + 1 := by
  cases h <;>
    simp only [remaining, List.map_append, List.map_cons, List.map_nil, List.sum_append,
      List.sum_cons, List.sum_nil, List.length_cons, List.length_nil] <;>
    omega

/-- Nobody can go on for ever. -/
theorem exists_not_step (f : Nat → Pool) :
    ∃ n, ¬ Step outcome coefficients workers (f n) (f (n + 1)) := by
  by_contra hall
  simp only [not_exists, not_not] at hall
  have hleft : ∀ n, remaining coefficients (f 0) = remaining coefficients (f n) + n := by
    intro n
    induction n with
    | zero => rfl
    | succ n ih =>
      have := remaining_of_step (hall n)
      omega
  have := hleft (remaining coefficients (f 0) + 1)
  omega

/-- A schedule has led to this pool, and nothing can happen any more. -/
structure Ends (outcome : Combination → Outcome) (coefficients arguments : List Int) (workers : Int)
    (p : Pool) : Prop where
  reached : ReflTransGen (Step outcome coefficients workers) (start arguments) p
  stuck : ∀ p', ¬ Step outcome coefficients workers p p'

theorem Ends.merged (h : Ends outcome coefficients arguments workers p) :
    p.merged.Perm arguments ∧
      p.report = .ofTried (tryAll outcome (combinations coefficients p.merged)) := by
  obtain ⟨-, hreport, hslices⟩ := sound_of_reaches h.reached
  obtain ⟨hwaiting, hactive⟩ := stuck_iff.mp h.stuck
  rw [hwaiting, hactive, List.map_nil, List.append_nil, List.append_nil] at hslices
  exact ⟨hslices, hreport⟩

/-- What the test comes to when nothing can happen any more: the report, if the note on the test, in
which the workers are counted, and the notes on the slices could be taken. -/
def result (arguments : List Int) (workers : Int) (p : Pool) :
    Except Text.NumberTooLong Report := do
  let _ ← Text.written toString (max 1 workers)
  let _ ← arguments.mapM (Text.written toString)
  return p.report

theorem result_eq (arguments : List Int) (workers : Int) (p : Pool) :
    p.result arguments workers =
      if Text.HasText (max 1 workers) ∧ ∀ x ∈ arguments, Text.HasText x then .ok p.report
      else .error {} := by
  rw [result]
  by_cases htexts : Text.HasText (max 1 workers) ∧ ∀ x ∈ arguments, Text.HasText x
  · rw [if_pos htexts, Text.written_of_hasText htexts.1, Text.mapM_written, if_pos htexts.2]
    rfl
  rw [if_neg htexts]
  by_cases hworkers : Text.HasText (max 1 workers)
  · rw [Text.written_of_hasText hworkers, Text.mapM_written,
      if_neg fun harguments => htexts ⟨hworkers, harguments⟩]
    rfl
  · rw [Text.written_of_not_hasText hworkers]
    rfl

/-! ### Orders that there are schedules for -/

section Orders

variable (outcome coefficients workers)

/-- A worker gets through its slice. -/
theorem reaches_graded (waiting merged : List Int) (before after : List Task) (report : Report)
    (x : Int) (todo : List Combination) (part : Report) :
    ∃ part', ReflTransGen (Step outcome coefficients workers)
      ⟨waiting, before ++ ⟨x, todo, part⟩ :: after, merged, report⟩
      ⟨waiting, before ++ ⟨x, [], part'⟩ :: after, merged, report⟩ := by
  induction todo generalizing part with
  | nil => exact ⟨part, .refl⟩
  | cons q todo ih =>
    obtain ⟨part', h⟩ := ih (part.record q (outcome q))
    exact ⟨part', .head (.grade before) h⟩

/-- A worker gets through its slice and merges it. -/
theorem reaches_merged (waiting merged : List Int) (before after : List Task) (t : Task)
    (report : Report) :
    ∃ report', ReflTransGen (Step outcome coefficients workers)
      ⟨waiting, before ++ t :: after, merged, report⟩
      ⟨waiting, before ++ after, merged ++ [t.argument], report'⟩ := by
  obtain ⟨part, h⟩ := reaches_graded outcome coefficients workers waiting merged before after report
    t.argument t.todo t.part
  exact ⟨report.merge part, .tail h (.merge before)⟩

/-- One worker is enough to merge the slices in the order in which they wait. -/
theorem reaches_in_order (waiting merged : List Int) (report : Report) :
    ∃ report', ReflTransGen (Step outcome coefficients workers) ⟨waiting, [], merged, report⟩
      ⟨[], [], merged ++ waiting, report'⟩ := by
  induction waiting generalizing merged report with
  | nil => exact ⟨report, by rw [List.append_nil]⟩
  | cons x rest ih =>
    obtain ⟨between, hmerged⟩ := reaches_merged outcome coefficients workers rest merged [] []
      ⟨x, combinationsAt coefficients x, {}⟩ report
    obtain ⟨report', h⟩ := ih (merged ++ [x]) between
    rw [List.append_assoc, List.singleton_append] at h
    exact ⟨report', .head (.take (by rw [List.length_nil]; omega)) (hmerged.trans h)⟩

/-- Workers that have nothing to do take up the slices that wait. -/
theorem reaches_taken (waiting merged : List Int) (active : List Task) (report : Report)
    (hfree : (active.length + waiting.length : Int) ≤ max 1 workers) :
    ∃ taken, taken.map Task.argument = waiting ∧
      ReflTransGen (Step outcome coefficients workers) ⟨waiting, active, merged, report⟩
        ⟨[], active ++ taken, merged, report⟩ := by
  induction waiting generalizing active with
  | nil => exact ⟨[], rfl, by rw [List.append_nil]⟩
  | cons x rest ih =>
    rw [List.length_cons] at hfree
    obtain ⟨taken, htaken, h⟩ := ih (active ++ [⟨x, combinationsAt coefficients x, {}⟩])
      (by rw [List.length_append, List.length_singleton]; omega)
    rw [List.append_assoc, List.singleton_append] at h
    refine ⟨⟨x, combinationsAt coefficients x, {}⟩ :: taken, ?_, .head (.take (by omega)) h⟩
    rw [List.map_cons, htaken]

/-- Slices that are all worked on can be merged in any order. -/
theorem reaches_any_order (order merged : List Int) (active : List Task) (report : Report)
    (horder : order.Perm (active.map Task.argument)) :
    ∃ report', ReflTransGen (Step outcome coefficients workers) ⟨[], active, merged, report⟩
      ⟨[], [], merged ++ order, report'⟩ := by
  induction order generalizing merged active report with
  | nil =>
    obtain rfl := List.map_eq_nil_iff.mp horder.symm.eq_nil
    exact ⟨report, by rw [List.append_nil]⟩
  | cons x rest ih =>
    obtain ⟨t, ht, rfl⟩ := List.mem_map.mp (horder.mem_iff.mp List.mem_cons_self)
    obtain ⟨before, after, rfl⟩ := List.append_of_mem ht
    obtain ⟨between, hmerged⟩ := reaches_merged outcome coefficients workers [] merged before after
      t report
    rw [List.map_append, List.map_cons] at horder
    obtain ⟨report', h⟩ := ih (merged ++ [t.argument]) (before ++ after) between
      (by rw [List.map_append]; exact (horder.trans List.perm_middle).cons_inv)
    rw [List.append_assoc, List.singleton_append] at h
    exact ⟨report', hmerged.trans h⟩

end Orders

theorem exists_ends_in_order :
    ∃ p, Ends outcome coefficients arguments workers p ∧ p.merged = arguments := by
  obtain ⟨report, h⟩ := reaches_in_order outcome coefficients workers arguments [] {}
  exact ⟨_, ⟨h, stuck_iff.mpr ⟨rfl, rfl⟩⟩, rfl⟩

theorem exists_ends_of_perm {order : List Int} (hworkers : (arguments.length : Int) ≤ workers)
    (horder : order.Perm arguments) :
    ∃ p, Ends outcome coefficients arguments workers p ∧ p.merged = order := by
  obtain ⟨taken, htaken, h⟩ := reaches_taken outcome coefficients workers arguments [] [] {}
    (by rw [List.length_nil]; omega)
  obtain ⟨report, h'⟩ := reaches_any_order outcome coefficients workers order [] taken {}
    (htaken ▸ horder)
  exact ⟨_, ⟨h.trans h', stuck_iff.mpr ⟨rfl, rfl⟩⟩, rfl⟩

end Schedules

end Pool

/-- Whatever the schedule, the polynomial test on a pool of workers comes to an end, and then its
report is right about all combinations: as many as the third power of the number of coefficients
times the number of arguments, each as often as its parts stand in the lists. If the slices were
merged in the order of the arguments, the failures that are named are the first ten, argument by
argument. The report is given back just if the number of workers and all arguments have texts, and
then it is, for the order of the arguments, that of the test that does one slice after another.
There is a schedule for that order, and for any other one too if there are enough workers. -/
theorem polynomialTest_on_pool (patience : Nat) (budget : Int) (base : Machine)
    (coefficients arguments : List Int) (workers : Int) :
    (∃ qs, Covers coefficients arguments qs ∧ Enumerates coefficients arguments qs) ∧
    (∀ f : Nat → Pool, ∃ n, ¬ Pool.Step (Combination.outcome patience budget base) coefficients
      workers (f n) (f (n + 1))) ∧
    (∀ p, Pool.Ends (Combination.outcome patience budget base) coefficients arguments workers p →
      p.merged.Perm arguments ∧
      (∀ qs, Covers coefficients arguments qs →
        p.report.Accounts (Combination.outcome patience budget base) qs) ∧
      p.report.total = coefficients.length ^ 3 * arguments.length ∧
      (p.merged = arguments → ∀ qs, Enumerates coefficients arguments qs →
        p.report.failures =
          (flawed (tryAll (Combination.outcome patience budget base) qs)).take 10) ∧
      (p.result arguments workers = .ok p.report ↔
        Text.HasText (max 1 workers) ∧ ∀ x ∈ arguments, Text.HasText x) ∧
      (p.merged = arguments → p.result arguments workers =
        (polynomialTest patience (some budget) base coefficients arguments workers).1)) ∧
    (∃ p, Pool.Ends (Combination.outcome patience budget base) coefficients arguments workers p ∧
      p.merged = arguments) ∧
    ∀ order, (arguments.length : Int) ≤ workers → order.Perm arguments →
      ∃ p, Pool.Ends (Combination.outcome patience budget base) coefficients arguments workers p ∧
        p.merged = order := by
  have hcovers := covers_combinations coefficients arguments
  have henumerates := enumerates_combinations coefficients arguments
  refine ⟨⟨_, hcovers, henumerates⟩, Pool.exists_not_step, fun p hends => ?_,
    Pool.exists_ends_in_order, fun order => Pool.exists_ends_of_perm⟩
  obtain ⟨hmerged, hreport⟩ := hends.merged
  have haccounts : ∀ qs, Covers coefficients arguments qs →
      p.report.Accounts (Combination.outcome patience budget base) qs := by
    intro qs hqs
    rw [hreport]
    exact accounts_ofTried ((hmerged.flatMap_right _).trans (hcovers.perm hqs))
  refine ⟨hmerged, haccounts, ?_, fun hordered qs hqs => ?_, ?_, fun hordered => ?_⟩
  · rw [(haccounts _ hcovers).total, henumerates.length]
  · rw [hreport, hordered, henumerates.unique hqs]
    rfl
  · rw [Pool.result_eq]
    refine ⟨fun h => ?_, fun htexts => if_pos htexts⟩
    by_contra htexts
    rw [if_neg htexts] at h
    exact absurd h (by simp)
  · rw [Pool.result_eq, polynomialTest_eq, hreport, hordered]

/-- Two slices of one combination each, tried on a machine that halts at once. The slice of 1 was
merged before that of 0. -/
def overtaken : Pool :=
  { waiting := []
    merged := [1, 0]
    report :=
      { failed := 2
        failures := [(⟨5, 5, 5, 1⟩, ⟨some (.departed .endedEarly), 1⟩),
          (⟨5, 5, 5, 0⟩, ⟨some (.departed .endedEarly), 1⟩)] } }

theorem polynomialTest_on_pool_overtaken :
    Pool.Ends (Combination.outcome 0 3 {}) [5] [0, 1] 2 overtaken ∧
      [1, 0].Perm [(0 : Int), 1] ∧
      overtaken.report.Accounts (Combination.outcome 0 3 {}) [⟨5, 5, 5, 0⟩, ⟨5, 5, 5, 1⟩] ∧
      overtaken.result [0, 1] 2 = .ok overtaken.report := by
  have hreached : ReflTransGen (Pool.Step (Combination.outcome 0 3 {}) [5] 2) (.start [0, 1])
      ⟨[], [], [1, 0],
        (Report.merge {} (.record {} ⟨5, 5, 5, 1⟩ (Combination.outcome 0 3 {} ⟨5, 5, 5, 1⟩))).merge
          (.record {} ⟨5, 5, 5, 0⟩ (Combination.outcome 0 3 {} ⟨5, 5, 5, 0⟩))⟩ := by
    refine .head (.take (by decide)) (.head (.take (by decide)) ?_)
    -- the slice of 0 is left alone until that of 1 is merged
    refine .head (.grade [⟨0, [⟨5, 5, 5, 0⟩], {}⟩]) (.head (.merge [⟨0, [⟨5, 5, 5, 0⟩], {}⟩]) ?_)
    exact .head (.grade []) (.head (.merge []) .refl)
  have hreport : (Report.merge {}
      (.record {} ⟨5, 5, 5, 1⟩ (Combination.outcome 0 3 {} ⟨5, 5, 5, 1⟩))).merge
        (.record {} ⟨5, 5, 5, 0⟩ (Combination.outcome 0 3 {} ⟨5, 5, 5, 0⟩)) = overtaken.report := by
    decide +kernel
  rw [hreport] at hreached
  have hends : Pool.Ends (Combination.outcome 0 3 {}) [5] [0, 1] 2 overtaken :=
    ⟨hreached, Pool.stuck_iff.mpr ⟨rfl, rfl⟩⟩
  have hcovers : Covers [5] [0, 1] [⟨5, 5, 5, 0⟩, ⟨5, 5, 5, 1⟩] := covers_combinations [5] [0, 1]
  have htexts : Text.HasText (max 1 2) ∧ ∀ x ∈ [(0 : Int), 1], Text.HasText x := by decide +kernel
  obtain ⟨hmerged, haccounts, -, -, hresult, -⟩ :=
    (polynomialTest_on_pool 0 3 {} [5] [0, 1] 2).2.2.1 _ hends
  exact ⟨hends, hmerged, haccounts _ hcovers, hresult.mpr htexts⟩

/-- One slice of one combination, whose argument has no text. It is merged by any schedule, and
there is no report all the same. -/
theorem polynomialTest_of_leastUnwritten :
    (∀ p, Pool.Ends (Combination.outcome 0 3 {}) [5] [Text.leastUnwritten] 4 p →
      p.report.total = 1 ∧ p.result [Text.leastUnwritten] 4 = .error {}) ∧
    (polynomialTest 0 (some 3) {} [5] [Text.leastUnwritten] 4).1 = .error {} := by
  have htexts : ¬(Text.HasText (max 1 4) ∧ ∀ x ∈ [Text.leastUnwritten], Text.HasText x) :=
    fun h => Text.not_hasText_leastUnwritten (h.2 _ List.mem_cons_self)
  refine ⟨fun p hends => ⟨?_, ?_⟩, ?_⟩
  · obtain ⟨hmerged, hreport⟩ := hends.merged
    rw [hreport, (accounts_ofTried (.refl _)).total, length_combinations, hmerged.length_eq]
    rfl
  · rw [Pool.result_eq, if_neg htexts]
  · rw [polynomialTest_eq, if_neg htexts]

end LittleMan
