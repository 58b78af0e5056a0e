/-
Scripts of a dialogue: which numbers a program should ask for and which it should write, in order.

* `Script.boundary`: plays a script and refuses as soon as the program departs from it;
* `Script.finish`: asks whether the script was played to its end.
-/
import LittleMan.Boundary
namespace LittleMan

/-- One turn of a dialogue. -/
inductive Turn where
  /-- The program asks for a number and gets this one. -/
  | input (value : Int)
  /-- The program writes this number. -/
  | output (value : Int)
deriving DecidableEq, Repr, Inhabited

/-- How a turn is written, if its number has a text. -/
def Turn.render : Turn → Except Text.NumberTooLong String
  | input v => (Text.written toString v).map ("IN " ++ ·)
  | output v => (Text.written toString v).map ("OUT " ++ ·)

/-- How a program departs from what was expected of it. -/
inductive Departure where
  | unexpectedInput
  | unexpectedOutput
  | wrongOutput (value expected : Int)
  | endedEarly
  | outputsMissing (count : Nat)
  | inputsUnused (count : Nat)
  /-- A number that was written or expected has no text, so there are no words for the departure. -/
  | unwritten (error : Text.NumberTooLong)
deriving DecidableEq, Repr

def Departure.message : Departure → String
  | unexpectedInput => "Unexpected input request."
  | unexpectedOutput => "Unexpected output"
  | wrongOutput v e => "Output " ++ toString v ++ " != expected " ++ toString e
  | endedEarly => "Unexpected end of program."
  | outputsMissing n => "Unexpected end of program: " ++ toString n ++ " output(s) missing"
  | inputsUnused n => "Unexpected end of program: " ++ toString n ++ " input(s) unused"
  | unwritten e => e.message

/-- The departure of a program that wrote `value` instead of `expected`. It names both. -/
def Departure.ofOutput (value expected : Int) : Departure :=
  match Text.written toString value, Text.written toString expected with
  | .ok _, .ok _ => wrongOutput value expected
  | .error e, _ | _, .error e => unwritten e

/-- A script being played: the turns to come, and how many are used up. -/
structure Script where
  pending : List Turn := []
  consumed : Nat := 0
  faults : Array Fault := #[]
deriving DecidableEq, Repr

namespace Script

/-- Takes the next turn. -/
def next (s : Script) : Option Turn × Script :=
  match s.pending with
  | [] => (none, s)
  | turn :: rest => (some turn, { s with pending := rest, consumed := s.consumed + 1 })

/-- The program asks for a number. -/
def request (s : Script) : Except Departure Int × Script :=
  match s.next with
  | (some (.input v), rest) => (.ok v, rest)
  | (_, rest) => (.error .unexpectedInput, rest)

/-- The program writes a number. -/
def emit (v : Int) (s : Script) : Except Departure Unit × Script :=
  match s.next with
  | (some (.output e), rest) => (if e = v then .ok () else .error (.ofOutput v e), rest)
  | (_, rest) => (.error .unexpectedOutput, rest)

/-- The script as a boundary. -/
def boundary : Boundary Script Departure where
  request := request
  emit := emit
  report f s := (.ok (), { s with faults := s.faults.push f })

/-- The program has ended; no turn may be left. -/
def finish (s : Script) : Except Departure Unit × Script :=
  match s.next with
  | (none, rest) => (.ok (), rest)
  | (some _, rest) => (.error .endedEarly, rest)

end Script

end LittleMan
