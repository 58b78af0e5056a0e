/-
Grading a program by its dialogue with a world that knows what to expect.

* `grade`: runs a copy of a machine, from box 0 on, and says how it went;
* `Outcome.verdict`: a run without a flaw passes; a number that no program can take crashes it, and
  so does one that has no text where it has to be named; everything else fails.
-/
import LittleMan.Grading.Script
import LittleMan.Run
import LittleMan.Text.Quoted
namespace LittleMan

/-- A world that grades: a boundary, and a last question once the program has halted. -/
structure Grader (σ : Type) where
  boundary : Boundary σ Departure
  finish : σ → Except Departure Unit × σ

/-- Why a run did not pass. -/
inductive Flaw where
  | fault (fault : Fault)
  | unfinished (limit : Int)
  | departed (departure : Departure)
  | crashed (error : StepError Departure)
deriving DecidableEq, Repr

/-- The grades. -/
inductive Verdict where
  | pass | fail | crash
deriving DecidableEq, Repr

/-- How a grade is written. -/
def Verdict.name : Verdict → String
  | pass => "PASS" | fail => "FAIL" | crash => "CRASH"

/-- The result of a graded run. -/
structure Outcome where
  flaw : Option Flaw
  steps : Nat
deriving DecidableEq, Repr

/-- The kind of an error that crashes a run. -/
def StepError.kind {ε : Type} : StepError ε → String
  | .store _ | .unwritten _ => "ValueError"
  | _ => "BoundaryContractError"

/-- The flaw of a run that ended with an error. A departure that there are no words for crashes the
run instead. -/
def Flaw.ofError : StepError Departure → Flaw
  | .refused (.unwritten e) => .crashed (.unwritten e)
  | .refused d => .departed d
  | e => .crashed e

/-- Why a run did not pass, in words. -/
def Flaw.reason : Flaw → String
  | fault f => f.message
  | unfinished limit => "Did not halt within " ++ toString limit ++ " steps"
  | departed d => d.message
  | crashed e => e.kind ++ ": " ++ e.message Departure.message

namespace Outcome

/-- The grade. -/
def verdict (o : Outcome) : Verdict :=
  match o.flaw with
  | none => .pass
  | some (.crashed _) => .crash
  | some _ => .fail

/-- The reason, empty if the run passed. -/
def reason (o : Outcome) : String := o.flaw.elim "" Flaw.reason

/-- Whether the run passed. -/
def passed (o : Outcome) : Bool := o.verdict = .pass

/-- Grade and reason. -/
def render (o : Outcome) : String :=
  if o.reason = "" then o.verdict.name else o.verdict.name ++ ": " ++ o.reason

end Outcome

/-- A graded run: the outcome, the world after it, and the notes it leaves. -/
structure Graded (σ : Type) where
  outcome : Outcome
  world : σ
  notes : Journal

variable {σ : Type}

/-- The flaw of a run that came to its end, and the world once it was asked its last question. -/
def Grader.judge (g : Grader σ) (limit : Int) : Stop Departure → Execution σ → Option Flaw × σ
  | .failed e, s => (some (.ofError e), s.world)
  | .exhausted, s => (some (.unfinished limit), s.world)
  | .halted, s =>
    match s.progress.fault with
    | some f => (some (.fault f), s.world)
    | none => match g.finish s.world with
      | (.ok (), world) => (none, world)
      | (.error d, world) => (some (.departed d), world)

/-- The note on a run that crashed. -/
def crashNote : Option Flaw → Journal
  | some (.crashed e) =>
    [⟨.debug, "Run crashed: " ++ e.kind ++ "(" ++ Text.quote (e.message Departure.message) ++ ")"⟩]
  | _ => []

/-- Runs a copy of a machine with its registers set back. Without a budget it may take `patience`
steps. -/
def grade (g : Grader σ) (patience : Nat) (budget : Option Int) (base : Machine) (world : σ) :
    Graded σ :=
  let (stop, s) := run g.boundary patience budget { machine := base.reset, world }
  let notes := runNotes budget stop s
  let (flaw, after) := match notes with
    | .ok _ => g.judge (budget.getD patience) stop s
    -- the run is not over before its last note is taken
    | .error e => (some (.crashed (.unwritten e)), s.world)
  { outcome := { flaw, steps := s.progress.steps }
    world := after
    notes := s.progress.fault.toList.map Fault.note ++ notes.toOption.getD [] ++ crashNote flaw }

/-- The grader that plays a script. -/
def Script.grader : Grader Script := ⟨Script.boundary, Script.finish⟩

/-- Grades a program by a script. -/
def gradeScript (patience : Nat) (budget : Option Int) (base : Machine) (turns : List Turn) :
    Graded Script :=
  grade Script.grader patience budget base { pending := turns }

end LittleMan
