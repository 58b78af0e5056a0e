/-
Test cases: what a program is given and what it should write, each in order, however the two are
mixed. A file holds one case on a line:

    name;inputs;outputs;limit

* `Case.parse`, `Case.parseFile`: reading cases;
* `Case.grader`, `runCases`: grading a program by them.

Inputs and outputs are numbers between commas; both may be missing, and so may the limit. Blank
lines and lines that start with `#` hold no case.
-/
import LittleMan.Grading.Grade
import LittleMan.Text.Blank
import LittleMan.Text.Lines
namespace LittleMan

open Text

/-- A test case. -/
structure Case where
  name : String
  inputs : List Int := []
  outputs : List Int := []
  maxSteps : Option Int := none
  line : Int := 0
deriving DecidableEq, Repr, Inhabited

/-- What is wrong with the record of a case. -/
inductive CaseDefect where
  | fieldCount (count : Nat)
  | noName
  | limitNotANumber (text : String)
  | limitNotPositive (limit : Nat)
  | valueNotANumber (what text : String)
  | valueOutOfRange (what : String) (value : Nat)
deriving DecidableEq, Repr

def CaseDefect.message : CaseDefect → String
  | fieldCount n => "expected 4 ';'-separated fields, found " ++ toString n
  | noName => "test case has no name"
  | limitNotANumber text => "instruction limit " ++ quote text ++ " is not a decimal number"
  | limitNotPositive n => "instruction limit must be positive, got " ++ toString n
  | valueNotANumber what text => what ++ " value " ++ quote text ++ " is not a decimal number"
  | valueOutOfRange what v => what ++ " value " ++ toString v ++ " out of range 0..999"

/-- Why a test file is refused. -/
inductive CaseError where
  | record (defect : CaseDefect) (line : Int)
  | numeral (error : NumeralTooLong)
deriving DecidableEq, Repr

/-- A complaint about a test file, with the line if it is known. -/
def describeCaseError (message : String) (line : Option Int) : String :=
  match line with
  | some n => "line " ++ toString n ++ ": " ++ message
  | none => message

def CaseError.message : CaseError → String
  | record defect line => describeCaseError defect.message (some line)
  | numeral e => e.message

namespace Case

/-- The value of a numeral, or the defect of a text that is none. -/
def readNumber (defect : String → CaseDefect) (line : Int) (cs : List Char) :
    Except CaseError Nat :=
  if isNumeral cs then (readNumeral cs).mapError CaseError.numeral
  else .error (.record (defect (String.ofList cs)) line)

/-- One number of a list. -/
def parseValue (what : String) (line : Int) (item : List Char) : Except CaseError Int := do
  let value ← readNumber (.valueNotANumber what) line (trim item)
  if value > 999 then throw (.record (.valueOutOfRange what value) line)
  return value

/-- The numbers of a list; `what` says what they are. -/
def parseValues (what : String) (line : Int) (cs : List Char) : Except CaseError (List Int) :=
  if (trim cs).isEmpty then .ok [] else (splitOn ',' (trim cs)).mapM (parseValue what line)

/-- The limit of a case. -/
def parseLimit (line : Int) (cs : List Char) : Except CaseError (Option Int) :=
  if cs.isEmpty then .ok none
  else do
    let limit ← readNumber .limitNotANumber line cs
    if limit = 0 then throw (.record (.limitNotPositive limit) line)
    return some (limit : Int)

/-- Reads the record of a case. -/
def parse (text : String) (line : Int) : Except CaseError Case :=
  match splitOn ';' text.toList with
  | [name, inputs, outputs, limit] => do
    let name := trim name
    if name.isEmpty then throw (.record .noName line)
    let maxSteps ← parseLimit line (trim limit)
    let inputs ← parseValues "input" line inputs
    let outputs ← parseValues "output" line outputs
    return { name := String.ofList name, inputs, outputs, maxSteps, line }
  | fields => .error (.record (.fieldCount fields.length) line)

/-- Reads the cases on lines from a given number on. -/
def parseFrom : (number : Nat) → List String → Except CaseError (List Case)
  | _, [] => .ok []
  | number, raw :: rest =>
    let text := trim raw.toList
    if text.isEmpty || text.head? == some '#' then parseFrom (number + 1) rest
    else do
      let case ← parse (String.ofList text) number
      let later ← parseFrom (number + 1) rest
      return case :: later

/-- Reads the lines of a test file. -/
def parseFile (lines : List String) : Except CaseError (List Case) := parseFrom 1 lines

/-- A case being played: the inputs and outputs to come. -/
structure Play where
  inputs : List Int
  outputs : List Int
  faults : Array Fault := #[]
deriving DecidableEq, Repr

namespace Play

/-- The program asks for a number. -/
def request (p : Play) : Except Departure Int × Play :=
  match p.inputs with
  | [] => (.error .unexpectedInput, p)
  | v :: rest => (.ok v, { p with inputs := rest })

/-- The program writes a number. -/
def emit (v : Int) (p : Play) : Except Departure Unit × Play :=
  match p.outputs with
  | [] => (.error .unexpectedOutput, p)
  | e :: rest => (if v = e then .ok () else .error (.ofOutput v e), { p with outputs := rest })

/-- The program has ended; nothing may be left. -/
def finish (p : Play) : Except Departure Unit × Play :=
  let verdict :=
    if p.outputs ≠ [] then .error (.outputsMissing p.outputs.length)
    else if p.inputs ≠ [] then .error (.inputsUnused p.inputs.length)
    else .ok ()
  (verdict, p)

end Play

/-- The grader that plays a case. -/
def grader : Grader Play where
  boundary :=
    { request := Play.request
      emit := Play.emit
      report := fun f p => (.ok (), { p with faults := p.faults.push f }) }
  finish := Play.finish

/-- Grades a program by a case. -/
def run (patience : Nat) (base : Machine) (c : Case) : Graded Play :=
  grade grader patience c.maxSteps base { inputs := c.inputs, outputs := c.outputs }

end Case

/-- Grades a program by each case in turn. -/
def runCases (patience : Nat) (base : Machine) (cases : List Case) :
    List (Case × Graded Case.Play) :=
  cases.map fun c => (c, c.run patience base)

/-- How many cases passed. -/
def passedCount (results : List (Case × Graded Case.Play)) : Nat :=
  results.countP fun (_, graded) => graded.outcome.passed

/-- What graded cases leave in the journal. -/
def caseNotes (results : List (Case × Graded Case.Play)) : Journal :=
  let counts := toString (passedCount results) ++ "/" ++ toString results.length
  results.flatMap (fun (c, graded) =>
    graded.notes ++ [⟨.info, c.name ++ ": " ++ graded.outcome.render⟩]) ++
  [⟨.info, counts ++ " test cases passed"⟩]

end LittleMan
