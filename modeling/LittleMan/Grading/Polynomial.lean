/-
The test of programs that evaluate a quadratic polynomial: all combinations of coefficients and
arguments within a range.

* `polynomialValue`: what such a program should write;
* `slice`: all combinations with one argument;
* `polynomialTest`: the slices, merged one after the other into a report.

The counts cover every combination; of the combinations that did not pass the report keeps ten.
-/
import LittleMan.Grading.Grade
namespace LittleMan

/-- Three coefficients and an argument. -/
structure Combination where
  a : Int
  b : Int
  c : Int
  x : Int
deriving DecidableEq, Repr, Inhabited

/-- `a + b x + c x²`, brought into the range of a word. -/
def polynomialValue (q : Combination) : Int :=
  max 0 (min 999 (q.a + q.b * q.x + q.c * q.x * q.x))

/-- The dialogue that is expected. -/
def polynomialScript (q : Combination) : List Turn :=
  [.input q.a, .input q.b, .input q.c, .input q.x, .output (polynomialValue q)]

/-- All combinations with one argument, `c` the fastest and `a` the slowest. -/
def combinationsAt (coefficients : List Int) (x : Int) : List Combination :=
  coefficients.flatMap fun a => coefficients.flatMap fun b => coefficients.map fun c => ⟨a, b, c, x⟩

/-- How many combinations that did not pass a report keeps. -/
def maxRecorded : Nat := 10

/-- Counts of outcomes, and the first combinations that did not pass. -/
structure Report where
  passed : Nat := 0
  failed : Nat := 0
  crashed : Nat := 0
  failures : List (Combination × Outcome) := []
deriving DecidableEq, Repr

namespace Report

/-- How many combinations were tried. -/
def total (r : Report) : Nat := r.passed + r.failed + r.crashed

/-- Whether all of them passed. -/
def ok (r : Report) : Bool := r.failed = 0 && r.crashed = 0

/-- The counts in words. -/
def render (r : Report) : String :=
  "Pass: " ++ toString r.passed ++ ", Fail: " ++ toString r.failed ++
    ", Crash: " ++ toString r.crashed

/-- Adds failures as long as there is room. -/
def keep (r : Report) (failures : List (Combination × Outcome)) : List (Combination × Outcome) :=
  r.failures ++ failures.take (maxRecorded - r.failures.length)

/-- Adds one outcome. -/
def record (r : Report) (q : Combination) (o : Outcome) : Report :=
  match o.verdict with
  | .pass => { r with passed := r.passed + 1 }
  | .fail => { r with failed := r.failed + 1, failures := r.keep [(q, o)] }
  | .crash => { r with crashed := r.crashed + 1, failures := r.keep [(q, o)] }

/-- Adds the report of a slice. -/
def merge (r s : Report) : Report :=
  { passed := r.passed + s.passed
    failed := r.failed + s.failed
    crashed := r.crashed + s.crashed
    failures := r.keep s.failures }

end Report

/-- The graded runs of some combinations. -/
def gradeCombinations (patience : Nat) (budget : Option Int) (base : Machine)
    (combinations : List Combination) : List (Combination × Graded Script) :=
  combinations.map fun q => (q, gradeScript patience budget base (polynomialScript q))

/-- The report on graded runs. -/
def tally (runs : List (Combination × Graded Script)) : Report :=
  runs.foldl (fun r (q, graded) => r.record q graded.outcome) {}

/-- The report on all combinations with one argument, and the notes of their runs. -/
def slice (patience : Nat) (budget : Option Int) (base : Machine) (coefficients : List Int)
    (x : Int) : Report × Journal :=
  let runs := gradeCombinations patience budget base (combinationsAt coefficients x)
  (tally runs, runs.flatMap fun (_, graded) => graded.notes)

/-- How many combinations there are. -/
def combinationCount (coefficients arguments : List Int) : Nat :=
  coefficients.length * coefficients.length * coefficients.length * arguments.length

/-- Merges the slices of some arguments into a report, with a note on each. The note on a slice
names its argument; it is taken once the slice is merged, and if the argument has no text, the other
slices are merged all the same. Gives the first argument's error, if there is one. -/
def mergeSlices (patience : Nat) (budget : Option Int) (base : Machine) (coefficients : List Int) :
    List Int → Report → Except Text.NumberTooLong Report × Journal
  | [], r => (.ok r, [])
  | x :: rest, r =>
    let (part, notes) := slice patience budget base coefficients x
    let merged := r.merge part
    let (final, later) := mergeSlices patience budget base coefficients rest merged
    match Text.written toString x with
    | .error e => (.error e, notes ++ later)
    | .ok x =>
      let done : Entry := ⟨.info, "x=" ++ x ++ " done. Done: " ++ toString merged.total ++
        ", Pass: " ++ toString merged.passed⟩
      (final, notes ++ done :: later)

/-- Tries every combination. There is a report if everything that the notes name has a text. -/
def polynomialTest (patience : Nat) (budget : Option Int) (base : Machine)
    (coefficients arguments : List Int) (workers : Int) :
    Except Text.NumberTooLong Report × Journal :=
  match Text.written toString (max 1 workers) with
  | .error e => (.error e, [])
  | .ok count =>
    let start : Entry := ⟨.info, "Testing " ++
      toString (combinationCount coefficients arguments) ++ " combinations on " ++ count ++
      " workers"⟩
    let (result, notes) := mergeSlices patience budget base coefficients arguments {}
    let summary := match result with
      | .ok report => [⟨.info, report.render⟩]
      | .error _ => []
    (result, start :: notes ++ summary)

end LittleMan
