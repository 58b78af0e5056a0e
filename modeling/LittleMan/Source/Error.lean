/-
Why a source text is refused: one constructor for each cause, and the wording of all of them.
-/
import LittleMan.Opcode
import LittleMan.Source.Diagnostic
import LittleMan.Text.Decimal
namespace LittleMan

/-- What is wrong with a statement. -/
inductive SourceFault where
  /-- More than three fields. -/
  | tooManyFields (count : Nat)
  /-- Three fields on a line that starts with a blank, where no tag can stand. -/
  | indentedTag
  | unknownOpcode (mnemonic : String)
  | duplicateTag (tag : String) (first : Option Location)
  | undefinedTag (tag : String) (similar : List String)
  | missingOperand (mnemonic : String)
  | literalOutOfRange (literal : String)
deriving DecidableEq, Repr

namespace SourceFault

/-- The layout of a statement, the hint for lines that do not fit it. -/
def layoutHint : String := "expected '[tag] MNEMONIC [operand]'"

/-- The list of mnemonics, the hint for a word that is none. -/
def opcodesHint : String := "valid opcodes: " ++ ", ".intercalate (Opcode.all.map Opcode.name)

/-- What is wrong, in words. -/
def message : SourceFault → String
  | tooManyFields n => "too many fields (" ++ toString n ++ ")"
  | indentedTag => "indented line cannot carry a tag"
  | unknownOpcode m => "unknown opcode '" ++ m ++ "'"
  | duplicateTag t _ => "duplicate tag '" ++ t ++ "'"
  | undefinedTag t _ => "undefined tag '" ++ t ++ "'"
  | missingOperand m => "'" ++ m ++ "' requires an operand but none is provided"
  | literalOutOfRange l => "DAT value '" ++ l ++ "' is out of range"

/-- What might help. At most three similar tags are suggested. -/
def hint : SourceFault → Option String
  | tooManyFields _ | indentedTag => some layoutHint
  | unknownOpcode _ => some opcodesHint
  | duplicateTag t first => first.map fun l => "'" ++ t ++ "' was first defined at " ++ l.render
  | undefinedTag _ [] => none
  | undefinedTag _ similar =>
    let names := (similar.take 3).map fun s => "'" ++ s ++ "'"
    some ("did you mean " ++ ", ".intercalate names ++ "?")
  | missingOperand _ => none
  | literalOutOfRange _ => some "DAT takes a decimal literal between 0 and 999"

end SourceFault

/-- A fault, where it is, and the line it is on. -/
structure SourceError where
  fault : SourceFault
  place : Option Location := none
  quoted : Option String := none
deriving DecidableEq, Repr

/-- A source error as a diagnostic. -/
def SourceError.diagnostic (e : SourceError) : Diagnostic :=
  { message := e.fault.message, place := e.place, hint := e.fault.hint, quoted := e.quoted }

/-- What can stop an assembly. A literal of too many digits is not even read, so it is no statement
about the source text. -/
inductive AssemblyError where
  | source (error : SourceError)
  | numeral (error : Text.NumeralTooLong)
deriving DecidableEq, Repr

def AssemblyError.message : AssemblyError → String
  | .source e => e.diagnostic.render
  | .numeral e => e.message

end LittleMan
