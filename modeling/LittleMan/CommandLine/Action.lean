/-
What the commands do, on a console.

* `Request.perform`: carries out a request;
* `polynomialReport`: the report that the polynomial test shows and that decides how it ends.

A command ends when it has done everything or at the first failure. The console keeps what was shown
up to then, and the files that were written.
-/
import LittleMan.CommandLine.Command
import LittleMan.CommandLine.Console
import LittleMan.CommandLine.Failure
import LittleMan.Grading.Case
import LittleMan.Grading.Polynomial
import LittleMan.Packing
import LittleMan.Settings
import LittleMan.Text.Lines
import LittleMan.Text.Utf8
namespace LittleMan.CommandLine

open Text

/-- How a command ended: by itself, or by an error that nothing reports. -/
inductive Ending where
  | finished (code : ExitCode)
  | uncaught (kind message : String)
deriving DecidableEq, Repr

/-- Something done on a console that may end the command. -/
abbrev Action := ExceptT Ending (StateM Console)

namespace Action

/-- Shows a line. -/
def print (line : String) : Action Unit := modify (·.print line)

/-- Shows lines. -/
def printAll (lines : List String) : Action Unit := modify (·.printAll lines)

/-- Shows a note. -/
def log (entry : Entry) : Action Unit := modify (·.log entry)

/-- Shows notes. -/
def logAll (journal : Journal) : Action Unit := modify (·.logAll journal)

/-- What stands for the trace of an unexpected failure. -/
def traceMark : String := "<traceback>"

/-- Ends the command. -/
def exit {α : Type} (code : ExitCode) : Action α := throw (.finished code)

/-- Reports a failure and ends the command. -/
def fail {α : Type} (stage : Option String) (failure : Failure) : Action α := do
  modify (·.complain (failure.describe stage))
  if failure.exitCode = .internal ∧ (← get).verbose then modify (·.complain traceMark)
  exit failure.exitCode

/-- Ends the command because the input has ended. Nothing is said while there may be more of it. -/
def abort {α : Type} : Action α := do
  unless (← get).waiting do modify (·.complain "Aborted!")
  exit .failure

/-- The text in a file, every line end a line feed. -/
def readText (stage : Option String) (path : Path) : Action (List Char) := do
  match (← get).files.read path.render with
  | .error e => fail stage (.file e)
  | .ok bytes => match Utf8.decode bytes with
    | .error e => fail stage (.unexpected "UnicodeDecodeError" e.message)
    | .ok cs => return unifyNewlines cs

/-- The lines in a file. -/
def readLines (stage : Option String) (path : Path) : Action (List String) := do
  return (splitLines (← readText stage path)).map String.ofList

/-- The failure of an assembly. -/
def assemblyFailure : AssemblyError → Failure
  | .source e => .source e.diagnostic
  | .numeral e => .unexpected "ValueError" e.message

/-- Assembles the source in a file. -/
def assembleFile (stage : Option String) (source : String) : Action Program := do
  let path := Path.parse source
  log ⟨.debug, "Assembling " ++ path.render ++ "..."⟩
  let lines ← readLines stage path
  logAll (assemblyNotes false lines path.render)
  match assemble lines path.render with
  | .ok program => return program
  | .error e => fail stage (assemblyFailure e)

/-- What commands about a single program call their work. -/
def assembly : Option String := some "Assembly"

/-- The machine with a program in it. -/
def machineOf (program : Program) : Machine := { memory := program.image }

/-- The words of an image. -/
def wordsOf (program : Program) : List Int := program.image.toList.map fun w => (w.val : Int)

/-! ### One program -/

/-- Assembles a program and counts its boxes. -/
def validate (source : String) : Action Unit := do
  let program ← assembleFile assembly source
  print "Assembled successfully."
  print (toString program.size ++ " boxes, " ++ toString program.tags.size ++ " tags, " ++
    toString program.nonzeroCount ++ " non-zero cells")

/-- Ends the command after an error of the machine. -/
def endWith {α : Type} : StepError InputEnd → Action α
  | .refused .inputEnd => abort
  | e => throw (.uncaught e.kind (e.message fun _ => ""))

/-- Runs a program. -/
def runProgram (patience : Nat) (settings : Settings) (source : String) (budget : Option Int) :
    Action Unit := do
  let program ← assembleFile assembly source
  let budget := budget.or settings.maxSteps
  let (stop, s) :=
    run Console.boundary patience budget { machine := machineOf program, world := ← get }
  set s.world
  match runNotes budget stop s with
  | .ok notes => logAll notes
  | .error e => throw (.uncaught "ValueError" e.message)
  let steps := toString s.progress.steps ++ " steps"
  match stop with
  | .failed e => endWith e
  | .halted => print ("Finished in " ++ steps)
  | .exhausted => print ("Stopped after " ++ steps ++ " (step limit reached)")

/-- Debugs a program, or an empty machine. -/
def debug (patience : Nat) (source : Option String) : Action Unit := do
  let program? ← source.mapM (assembleFile assembly)
  let session : Debugger.Session Console :=
    { execution := { machine := program?.elim {} machineOf, world := ← get }
      tags := program?.elim {} Program.tags }
  let (result, session) := session.loop Console.host patience
  set session.execution.world
  match result with
  | .ok () | .error .noAnswer => return
  | .error (.step e) => endWith e
  | .error .stillRunning => throw (.uncaught "TimeoutError" "still running")
  | .error (.numeral e) => throw (.uncaught "ValueError" e.message)
  | .error (.unencodable e) =>
    throw (.uncaught "ValueError" ("register " ++ toString e.value ++ " does not fit in two bytes"))
  | .error (.unwritten e) => throw (.uncaught "ValueError" e.message)
  | .error .nullInName => throw (.uncaught "ValueError" "embedded null byte")

/-- Packs a program into another file. -/
def optimise (settings : Settings) (source : String) (target : Option String)
    (notice : Option Bool) : Action Unit := do
  let path := Path.parse source
  let written ← match target with
    | some target => pure (Path.parse target).render
    | none => match path.packed settings.packedSuffix with
      | .ok packed => pure packed
      | .error e => fail assembly (.unexpected "ValueError" e.message)
  let lines ← readLines assembly path
  logAll (packNotes lines path.render)
  match pack lines path.render (notice.getD settings.notice) with
  | .error e => fail assembly (assemblyFailure e)
  | .ok packed => match (← get).files.write written (Utf8.encode packed.text) with
    | .error e => fail assembly (.file e)
    | .ok files =>
      modify fun c => { c with files }
      log ⟨.info, "Written to " ++ written⟩
      print ("Optimised out " ++ toString packed.saved ++ " boxes")
      print ("Written to " ++ written)

/-- Lists the boxes of a program, or all boxes. -/
def disassemble (source : String) (everyBox : Bool) : Action Unit := do
  let program ← assembleFile assembly source
  let count := if everyBox then none else some (program.size : Int)
  let lines := (listing program.tags (wordsOf program) 0 count).toOption.getD []
  unless lines.isEmpty do print (renderListing lines)

/-! ### Tests -/

/-- The name of the polynomial test. -/
def polynomialName : String := "polynomial"

/-- What the polynomial test asks of a program. -/
def polynomialSummary : String := "reads a, b, c, x and outputs a + b*x + c*x*x clamped to 0-999"

/-- Lists the tests by name. -/
def listTests : Action Unit := do
  print "Builtin tests:"
  print ("  " ++ polynomialName ++ " - " ++ polynomialSummary)

/-- The exit code of tests. -/
def testCode (passed : Bool) : ExitCode := if passed then .success else .failure

end Action

/-- The settings with the extent that was asked for. -/
def TestExtent.apply (e : TestExtent) (s : Settings) : Settings :=
  { s with
    coefficients := e.coefficients.getD s.coefficients
    arguments := e.arguments.getD s.arguments
    workers := e.workers.getD s.workers }

/-- The integers from zero up to a bound. -/
def below (n : Int) : List Int := (List.range n.toNat).map Int.ofNat

/-- The polynomial test to the extent of the settings. -/
def polynomialReport (patience : Nat) (s : Settings) (m : Machine) :
    Except NumberTooLong Report × Journal :=
  polynomialTest patience (some s.testMaxSteps) m (below s.coefficients) (below s.arguments)
    s.workers

namespace Action

/-- A combination that did not pass, and why. -/
def failureLine (q : Combination) (o : Outcome) : String :=
  "  a=" ++ toString q.a ++ " b=" ++ toString q.b ++ " c=" ++ toString q.c ++
    " x=" ++ toString q.x ++ ": " ++ o.render

/-- Fails because an argument makes no sense. -/
def misuse {α : Type} (message : String) : Action α :=
  fail none (.usage (Failure.invalidValue message))

/-- Tests a program by a name from the list. -/
def test (patience : Nat) (settings : Settings) (name : String) (source : Option String)
    (extent : TestExtent) : Action Unit := do
  if name = "list" then listTests
  else if lower name ≠ polynomialName then
    misuse ("No such test " ++ name ++ ". Use 'lmc test list'.")
  else match source with
    | none => misuse ("test " ++ name ++ " requires a SOURCE file")
    | some source =>
      let program ← assembleFile assembly source
      let (result, notes) := polynomialReport patience (extent.apply settings) (machineOf program)
      logAll notes
      match result with
      | .error e => throw (.uncaught "ValueError" e.message)
      | .ok report =>
        print report.render
        printAll (report.failures.map fun (q, o) => failureLine q o)
        exit (testCode report.ok)

/-- The failure of reading test cases. -/
def caseFailure : CaseError → Failure
  | .numeral e => .unexpected "ValueError" e.message
  | e => .caseFile e.message

/-- How a case went. -/
def caseLine (case : Case) (o : Outcome) : String :=
  case.name ++ ": " ++ o.render ++ " (" ++ toString o.steps ++ " steps)"

/-- Tests a program by the cases in a file. -/
def testFile (patience : Nat) (source cases : String) : Action Unit := do
  let program ← assembleFile none source
  let lines ← readLines none (Path.parse cases)
  match Case.parseFile lines with
  | .error e => fail none (caseFailure e)
  | .ok cases =>
    let results := runCases patience (machineOf program) cases
    logAll (caseNotes results)
    printAll (results.map fun (case, graded) => caseLine case graded.outcome)
    let passed := passedCount results
    print (toString passed ++ "/" ++ toString results.length ++ " passed")
    exit (testCode (passed = results.length))

end Action

/-- Carries out a request. -/
def Request.perform (patience : Nat) (settings : Settings) : Request → Action Unit
  | .validate source => Action.validate source
  | .run source budget => Action.runProgram patience settings source budget
  | .debug source => Action.debug patience source
  | .optimise source target notice => Action.optimise settings source target notice
  | .disassemble source everyBox => Action.disassemble source everyBox
  | .test name source extent => Action.test patience settings name source extent
  | .testFile source cases => Action.testFile patience source cases

end LittleMan.CommandLine
