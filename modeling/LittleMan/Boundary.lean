/-
The boundary between the machine and the world outside it, and the plainest world: a tape of numbers
to read and a strip that collects what is written.

* `Boundary`: three questions to the world, each of which may be refused;
* `Tape.checked`: hands over only words and refuses at the end of the tape;
* `Tape.unchecked`: hands over whatever stands on the tape.
-/
import LittleMan.Machine
import LittleMan.Text.Decimal
namespace LittleMan

/-- What a running program asks of a world in state `σ`; the world may refuse with an `ε`. Also a
refusal may leave the world changed. -/
structure Boundary (σ ε : Type) where
  /-- The next number for an input instruction. -/
  request : σ → Except ε Int × σ
  /-- Takes a number from an output instruction. -/
  emit : Int → σ → Except ε Unit × σ
  /-- Is told of a word that is no instruction. -/
  report : Fault → σ → Except ε Unit × σ

def Fault.message (f : Fault) : String :=
  "Unknown instruction " ++ Text.padded 3 f.word ++ " in box " ++ Text.padded 2 f.address

/-- The fault of a word that is no instruction. It is told with the number of its box, which has to
have a text. -/
def Fault.ofWord (address : Int) (word : Word) : Except Text.NumberTooLong Fault :=
  (Text.written (Text.padded 2) address).map fun _ => ⟨address, word.val⟩

/-- Numbers still to be read, numbers written so far, and the faults reported. -/
structure Tape where
  pending : List Int := []
  outputs : Array Int := #[]
  faults : Array Fault := #[]
deriving DecidableEq, Repr

namespace Tape

/-- Why a tape hands over no number. -/
inductive Error where
  | ended
  | outOfRange (value : Int)
  | unwritten (error : Text.NumberTooLong)
deriving DecidableEq, Repr

def Error.message : Error → String
  | .ended => "no scripted input left"
  | .outOfRange v => "scripted input " ++ toString v ++ " out of range 0..999"
  | .unwritten e => e.message

/-- The error of a number that is no word. It names the number. -/
def Error.ofInput (v : Int) : Error :=
  match Text.written toString v with
  | .ok _ => .outOfRange v
  | .error e => .unwritten e

/-- Writes a number. -/
def emit {ε : Type} (v : Int) (t : Tape) : Except ε Unit × Tape :=
  (.ok (), { t with outputs := t.outputs.push v })

/-- Keeps a fault. -/
def report {ε : Type} (f : Fault) (t : Tape) : Except ε Unit × Tape :=
  (.ok (), { t with faults := t.faults.push f })

/-- A tape that refuses to hand over what is no word. The number is used up all the same. -/
def checked : Boundary Tape Error where
  request t := match t.pending with
    | [] => (.error .ended, t)
    | v :: rest => (if isWord v then .ok v else .error (.ofInput v), { t with pending := rest })
  emit := emit
  report := report

/-- A tape that hands over every number as it stands. -/
def unchecked : Boundary Tape Error where
  request t := match t.pending with
    | [] => (.error .ended, t)
    | v :: rest => (.ok v, { t with pending := rest })
  emit := emit
  report := report

end Tape

end LittleMan
