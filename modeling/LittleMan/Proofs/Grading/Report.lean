/-
What a report says of the combinations that were tried.

A report is put together outcome by outcome, and from other reports. Either way it comes out as the
report on one list of outcomes (`Report.ofTried`), which is read off the list:

* `record_ofTried`, `merge_ofTried`: one outcome more, or the report on further outcomes;
* `polynomialTest_eq`: the polynomial test reports on all combinations, argument by argument, if all
  that it has to name has a text;
* `accounts_ofTried`: of the order in which combinations are tried the report keeps no more than
  which failures it names.
-/
import LittleMan.Proofs.Grading.Combinations
import Mathlib.Data.List.Perm.Subperm
namespace LittleMan

/-- Combinations with their outcomes. -/
def tryAll (outcome : Combination → Outcome) (qs : List Combination) :
    List (Combination × Outcome) :=
  qs.map fun q => (q, outcome q)

/-- The combinations that did not pass. -/
def flawed (tried : List (Combination × Outcome)) : List (Combination × Outcome) :=
  tried.filter fun t => t.2.verdict ≠ .pass

namespace Report

/-- The report on some outcomes. -/
def ofTried (tried : List (Combination × Outcome)) : Report :=
  { passed := tried.countP fun t => t.2.verdict = .pass
    failed := tried.countP fun t => t.2.verdict = .fail
    crashed := tried.countP fun t => t.2.verdict = .crash
    failures := (flawed tried).take maxRecorded }

variable {tried more : List (Combination × Outcome)}

/-- There is room for what the report on all outcomes would name. -/
theorem keep_ofTried (failures : List (Combination × Outcome)) :
    (ofTried tried).keep failures = (flawed tried ++ failures).take maxRecorded := by
  have hroom : maxRecorded - ((flawed tried).take maxRecorded).length =
      maxRecorded - (flawed tried).length := by
    rw [List.length_take]
    omega
  rw [keep, ofTried, hroom, List.take_append]

theorem record_ofTried (q : Combination) (o : Outcome) :
    (ofTried tried).record q o = ofTried (tried ++ [(q, o)]) := by
  rw [record]
  cases h : o.verdict <;> simp only [keep_ofTried] <;> simp [ofTried, flawed, h]

theorem merge_ofTried : (ofTried tried).merge (ofTried more) = ofTried (tried ++ more) := by
  have hfailures : ((flawed tried) ++ (flawed more).take maxRecorded).take maxRecorded =
      (flawed (tried ++ more)).take maxRecorded := by
    rw [flawed, flawed, flawed, List.filter_append, List.take_append, List.take_append,
      List.take_take, Nat.min_eq_left (Nat.sub_le _ _)]
  rw [merge, keep_ofTried]
  simp only [ofTried, hfailures, List.countP_append]

theorem foldl_record_ofTried (tried : List (Combination × Outcome))
    (runs : List (Combination × Graded Script)) :
    runs.foldl (fun r t => r.record t.1 t.2.outcome) (ofTried tried) =
      ofTried (tried ++ runs.map fun t => (t.1, t.2.outcome)) := by
  induction runs generalizing tried with
  | nil => rw [List.foldl_nil, List.map_nil, List.append_nil]
  | cons t runs ih =>
    rw [List.foldl_cons, record_ofTried, ih, List.map_cons, List.append_assoc,
      List.singleton_append]

end Report

/-! ### The polynomial test -/

/-- The outcome of a combination, within a budget: that of a run in which the machine is given the
coefficients and the argument and has to write the value of the polynomial, brought into the range
of a word. -/
def Combination.outcome (patience : Nat) (budget : Int) (base : Machine) (q : Combination) :
    Outcome :=
  (gradeScript patience (some budget) base [.input q.a, .input q.b, .input q.c, .input q.x,
    .output (max 0 (min 999 (q.a + q.b * q.x + q.c * q.x * q.x)))]).outcome

section Test

variable (patience : Nat) (budget : Int) (base : Machine) (coefficients : List Int)

theorem report_slice (x : Int) :
    (slice patience (some budget) base coefficients x).1 =
      .ofTried (tryAll (Combination.outcome patience budget base)
        (combinationsAt coefficients x)) := by
  refine (Report.foldl_record_ofTried [] (gradeCombinations patience (some budget) base
    (combinationsAt coefficients x))).trans ?_
  rw [List.nil_append, gradeCombinations, List.map_map]
  rfl

/-- The slices are merged into the report on all combinations, which is given back if the arguments
have texts. -/
theorem mergeSlices_eq (arguments : List Int) (tried : List (Combination × Outcome)) :
    (mergeSlices patience (some budget) base coefficients arguments (.ofTried tried)).1 =
      if ∀ x ∈ arguments, Text.HasText x then
        .ok (.ofTried (tried ++ tryAll (Combination.outcome patience budget base)
          (combinations coefficients arguments)))
      else .error {} := by
  induction arguments generalizing tried with
  | nil =>
    rw [if_pos (by simp), combinations, List.flatMap_nil, tryAll, List.map_nil, List.append_nil]
    rfl
  | cons x rest ih =>
    have hmerged : (Report.ofTried tried).merge
        (slice patience (some budget) base coefficients x).1 =
          .ofTried (tried ++ tryAll (Combination.outcome patience budget base)
            (combinationsAt coefficients x)) := by
      rw [report_slice, Report.merge_ofTried]
    have hlist : tryAll (Combination.outcome patience budget base)
        (combinations coefficients (x :: rest)) =
          tryAll (Combination.outcome patience budget base) (combinationsAt coefficients x) ++
            tryAll (Combination.outcome patience budget base) (combinations coefficients rest) := by
      rw [combinations, List.flatMap_cons, tryAll, List.map_append]
      rfl
    simp only [mergeSlices, hmerged, hlist]
    by_cases hx : Text.HasText x
    · rw [Text.written_of_hasText hx, ih, List.append_assoc]
      simp only [List.forall_mem_cons, hx, true_and]
    · rw [Text.written_of_not_hasText hx, if_neg fun h => hx (h x List.mem_cons_self)]

/-- The test reports on all combinations, if the number of workers and the arguments have texts. -/
theorem polynomialTest_eq (arguments : List Int) (workers : Int) :
    (polynomialTest patience (some budget) base coefficients arguments workers).1 =
      if Text.HasText (max 1 workers) ∧ ∀ x ∈ arguments, Text.HasText x then
        .ok (.ofTried (tryAll (Combination.outcome patience budget base)
          (combinations coefficients arguments)))
      else .error {} := by
  rw [polynomialTest]
  by_cases hworkers : Text.HasText (max 1 workers)
  · rw [Text.written_of_hasText hworkers]
    simp only [hworkers, true_and]
    exact mergeSlices_eq patience budget base coefficients arguments []
  · rw [Text.written_of_not_hasText hworkers, if_neg fun h => hworkers h.1]

end Test

/-! ### What a report tells of combinations in any order -/

/-- A report is right about combinations with these outcomes: its counts are theirs, and the
failures that it names are among theirs, ten of them unless there are fewer. -/
structure Report.Accounts (outcome : Combination → Outcome) (qs : List Combination)
    (r : Report) : Prop where
  passed : r.passed = qs.countP fun q => (outcome q).verdict = .pass
  failed : r.failed = qs.countP fun q => (outcome q).verdict = .fail
  crashed : r.crashed = qs.countP fun q => (outcome q).verdict = .crash
  total : r.total = qs.length
  ok : r.ok = true ↔ ∀ q ∈ qs, (outcome q).verdict = .pass
  count : r.failures.length = min 10 (r.failed + r.crashed)
  failures : r.failures.Subperm (flawed (tryAll outcome qs))

section Accounts

variable {outcome : Combination → Outcome} {qs done : List Combination}

variable (outcome) in
/-- Every outcome is of one of the three kinds. -/
theorem countP_verdicts (qs : List Combination) :
    (qs.countP fun q => (outcome q).verdict = .pass) +
        (qs.countP fun q => (outcome q).verdict = .fail) +
        (qs.countP fun q => (outcome q).verdict = .crash) = qs.length := by
  induction qs with
  | nil => rfl
  | cons q qs ih =>
    simp only [List.countP_cons, List.length_cons]
    cases (outcome q).verdict <;> simp <;> omega

theorem length_flawed (qs : List Combination) :
    (flawed (tryAll outcome qs)).length =
      (qs.countP fun q => (outcome q).verdict = .fail) +
        (qs.countP fun q => (outcome q).verdict = .crash) := by
  have hall := countP_verdicts outcome qs
  have hsplit := qs.length_eq_countP_add_countP fun q => (outcome q).verdict = .pass
  rw [flawed, tryAll, ← List.countP_eq_length_filter, List.countP_map]
  simp only [Function.comp_def, ne_eq, decide_not, Bool.not_eq_true, decide_eq_false_iff_not] at *
  omega

theorem accounts_ofTried (h : done.Perm qs) :
    (Report.ofTried (tryAll outcome done)).Accounts outcome qs := by
  have hcount : ∀ v, ((tryAll outcome done).countP fun t => t.2.verdict = v) =
      qs.countP fun q => (outcome q).verdict = v := by
    intro v
    rw [← h.countP_eq, tryAll, List.countP_map]
    rfl
  have hpassed : (Report.ofTried (tryAll outcome done)).passed = _ := hcount .pass
  have hfailed : (Report.ofTried (tryAll outcome done)).failed = _ := hcount .fail
  have hcrashed : (Report.ofTried (tryAll outcome done)).crashed = _ := hcount .crash
  have hlength := countP_verdicts outcome qs
  refine ⟨hpassed, hfailed, hcrashed, ?_, ?_, ?_, ?_⟩
  · rw [Report.total, hpassed, hfailed, hcrashed, hlength]
  · -- all pass if as many pass as there are
    have hall : (qs.countP fun q => (outcome q).verdict = .pass) = qs.length ↔
        ∀ q ∈ qs, (outcome q).verdict = .pass := by
      rw [List.countP_eq_length]
      simp only [decide_eq_true_eq]
    rw [← hall, Report.ok, hfailed, hcrashed, Bool.and_eq_true, decide_eq_true_eq,
      decide_eq_true_eq]
    omega
  · rw [hfailed, hcrashed, Report.ofTried, List.length_take, length_flawed, h.countP_eq,
      h.countP_eq, maxRecorded]
  · exact (List.take_sublist _ _).subperm.trans ((h.map _).filter _).subperm

end Accounts

end LittleMan
