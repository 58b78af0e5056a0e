/-
Why a snapshot is refused: the token at fault, the reason, and where it stands if that is known.
-/
import LittleMan.Text.Decimal
import LittleMan.Text.Quoted
namespace LittleMan.Snapshot

open Text

/-- What is wrong with a snapshot. -/
inductive Defect where
  | missingStart
  | badFlag
  | missingSpace
  | notANumber
  | tooFew
  | tooMany
  | malformedNumber
  | missingEnd
  | counterOutOfRange
  | wrongLength
  | badFlagByte
  | accumulatorOutOfRange
  | boxOutOfRange (box : Nat)
deriving DecidableEq, Repr

def Defect.reason : Defect → String
  | missingStart => "expected 'LMC['"
  | badFlag => "flag must be 'P' or 'N'"
  | missingSpace => "expected a space"
  | notANumber => "expected a 1-3 digit number"
  | tooFew => "too few values"
  | tooMany => "too many values"
  | malformedNumber => "malformed number"
  | missingEnd => "expected ']' to end the state"
  | counterOutOfRange => "program counter out of range 0..99"
  | wrongLength => "expected exactly 205 bytes"
  | badFlagByte => "flag byte must be 0 or 1"
  | accumulatorOutOfRange => "accumulator out of range 0..999"
  | boxOutOfRange box => "value in box " ++ padded 2 box ++ " out of range 0..999"

/-- A refusal. -/
structure Error where
  token : String
  defect : Defect
  position : Option Nat := none
deriving DecidableEq, Repr

/-- The wording of a refusal, whatever its reason. -/
def describe (token reason : String) (position : Option Int) : String :=
  let place := match position with
    | some p => " at offset " ++ toString p
    | none => ""
  "malformed state" ++ place ++ ": " ++ reason ++ " (got " ++ quote token ++ ")"

def Error.message (e : Error) : String :=
  describe e.token e.defect.reason (e.position.map Int.ofNat)

end LittleMan.Snapshot
