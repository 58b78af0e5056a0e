/-
Statements of the assembly language, one to a line:

    [tag] MNEMONIC [operand]   # comment

* `Statement.parse`: reads a line; a line of blanks and comment holds no statement;
* `Statement.parseAll`: the statements of many lines;
* `Statement.stream`: the same line by line, up to the first that cannot be read.

A line that starts with a blank carries no tag. Otherwise three fields are tag, mnemonic and
operand, and two fields are tag and mnemonic if only the second is a mnemonic; a leading mnemonic is
never a tag. Mnemonics may be in any case, tags are taken as they stand.
-/
import LittleMan.Source.Error
import LittleMan.Text.Blank
import LittleMan.Text.Lines
namespace LittleMan

open Text

/-- One line of a program. -/
structure Statement where
  /-- Where the mnemonic stands. -/
  location : Location
  /-- The whole line, comment included. -/
  text : String
  tag : Option String
  opcode : Opcode
  operand : Option Field
deriving DecidableEq, Repr, Inhabited

namespace Statement

/-- Where the operand stands; the mnemonic's place if there is none. -/
def operandLocation (s : Statement) : Location :=
  match s.operand with
  | some field => { s.location with column := field.column }
  | none => s.location

/-- The column of the operand; 0 if there is none. -/
def operandColumn (s : Statement) : Nat := (s.operand.map Field.column).getD 0

/-- The line up to its comment. -/
def codePart (text : List Char) : List Char := text.takeWhile (· ≠ '#')

/-- Whether a line holds anything besides blanks and a comment. -/
def isCode (text : String) : Bool := !(codePart text.toList).all isBlank

/-- The line without its comment. -/
def stripComment (text : String) : String := String.ofList (codePart text.toList)

/-- The line without the carriage returns and line feeds at its end. -/
def stripNewline (line : String) : String :=
  String.ofList (dropEndWhile (fun c => c = '\r' || c = '\n') line.toList)

/-- A word that writes a mnemonic. -/
def isMnemonic (text : String) : Bool := (Opcode.ofText? text).isSome

/-- What the fields of a line are: tag, mnemonic and operand. -/
def assign (indented : Bool) (fields : List Field) :
    Except SourceFault (Option (Option Field × Field × Option Field)) :=
  match fields with
  | [] => .ok none
  | [mnemonic] => .ok (some (none, mnemonic, none))
  | [first, second] =>
    -- a leading mnemonic is never a tag
    if !indented && !isMnemonic first.text && isMnemonic second.text then
      .ok (some (some first, second, none))
    else .ok (some (none, first, some second))
  | [tag, mnemonic, operand] =>
    if indented then .error .indentedTag else .ok (some (some tag, mnemonic, some operand))
  | _ => .error (.tooManyFields fields.length)

/-- Reads one line, given without its terminator. -/
def parse (text : String) (line : Int) (filename : String) :
    Except SourceError (Option Statement) :=
  let code := codePart text.toList
  match assign (code.head?.any isBlank) (fields code) with
  | .error fault => .error ⟨fault, some ⟨filename, line, 0⟩, some text⟩
  | .ok none => .ok none
  | .ok (some (tag, mnemonic, operand)) =>
    let location : Location := ⟨filename, line, mnemonic.column⟩
    match Opcode.ofText? mnemonic.text with
    | none => .error ⟨.unknownOpcode mnemonic.text, some location, some text⟩
    | some opcode =>
      .ok (some { location, text, tag := tag.map Field.text, opcode, operand })

/-- Reads lines from a given number on and keeps the statements. -/
def parseFrom (filename : String) :
    (number : Nat) → List String → Except SourceError (List Statement)
  | _, [] => .ok []
  | number, raw :: rest => do
    let here ← parse (stripNewline raw) number filename
    let later ← parseFrom filename (number + 1) rest
    return here.toList ++ later

/-- The statements of a source text, without any limit. -/
def parseAll (lines : List String) (filename : String) : Except SourceError (List Statement) :=
  parseFrom filename 1 lines

/-- Reads lines from a given number on one by one: the statements that come before the first line
that cannot be read, and the error of that line, if there is one. -/
def streamFrom (filename : String) :
    (number : Nat) → List String → List Statement × Option SourceError
  | _, [] => ([], none)
  | number, raw :: rest => match parse (stripNewline raw) number filename with
    | .error e => ([], some e)
    | .ok here => match streamFrom filename (number + 1) rest with
      | (later, stop) => (here.toList ++ later, stop)

/-- The statements of a source text as they come, for those who do not want all of them. -/
def stream (lines : List String) (filename : String) : List Statement × Option SourceError :=
  streamFrom filename 1 lines

end Statement

end LittleMan
