/-
Assembling: from lines to the hundred words of memory and a tag table.

* `Draft.survey`: the first pass gives every line of code the next address and registers its tag;
* `Statement.encode`: the second pass turns a statement into a word;
* `assemble`: both passes; any error stops the whole assembly.

After a hundred lines of code memory is full. The first further line of code is remembered, and
neither it nor what follows is read: not even its errors count.
-/
import LittleMan.Journal
import LittleMan.Machine
import LittleMan.Source.Statement
import LittleMan.TagTable
namespace LittleMan

open Text

/-- What the first pass finds. A statement's index is its address. -/
structure Draft where
  statements : List Statement := []
  tags : TagTable := {}
  /-- The number of the first line of code that found memory full. -/
  dropped : Option Nat := none
deriving DecidableEq, Repr, Inhabited

/-- An assembled program. -/
structure Program where
  image : Memory
  tags : TagTable
  statements : List Statement
  dropped : Option Nat
  filename : String
deriving DecidableEq, Repr, Inhabited

namespace Draft

/-- Gives a statement the next address and registers its tag there. -/
def add (d : Draft) (s : Statement) : Except SourceError Draft :=
  let statements := d.statements ++ [s]
  match s.tag with
  | none => .ok { d with statements }
  | some tag =>
    match d.tags.address? tag with
    | some a =>
      let first := (d.statements[a.toNat]?).map Statement.location
      .error ⟨.duplicateTag tag first, some s.location, some s.text⟩
    | none => .ok { d with statements, tags := d.tags.insert tag d.statements.length }

/-- The first pass over lines, from a given line number on. -/
def surveyFrom (filename : String) : (number : Nat) → List String → Draft → Except SourceError Draft
  | _, [], d => .ok d
  | number, raw :: rest, d =>
    let line := Statement.stripNewline raw
    if !Statement.isCode line then surveyFrom filename (number + 1) rest d
    -- memory is full: from here on nothing is read
    else if d.statements.length ≥ 100 then .ok { d with dropped := some number }
    else match Statement.parse line number filename with
      | .error e => .error e
      | .ok none => surveyFrom filename (number + 1) rest d
      | .ok (some s) => match d.add s with
        | .error e => .error e
        | .ok next => surveyFrom filename (number + 1) rest next

/-- The first pass over a whole source. -/
def survey (filename : String) (lines : List String) : Except SourceError Draft :=
  surveyFrom filename 1 lines {}

end Draft

namespace Statement

/-- The error of this statement at a place. -/
def errorAt (s : Statement) (place : Location) (fault : SourceFault) : AssemblyError :=
  .source ⟨fault, some place, some s.text⟩

/-- The word of a literal: ASCII digits, at most 999. -/
def encodeLiteral (s : Statement) (operand : Field) : Except AssemblyError Word :=
  let refused := s.errorAt s.operandLocation (.literalOutOfRange operand.text)
  let cs := operand.text.toList
  if !isNumeral cs then .error refused
  else match readNumeral cs with
    | .error e => .error (.numeral e)
    | .ok n => match Word.ofInt? n with
      | some w => .ok w
      | none => .error refused

/-- The word of a statement. Input and output ignore an operand; a halt with an operand is a data
word. -/
def encode (tags : TagTable) (s : Statement) : Except AssemblyError Word :=
  if s.opcode.isTransfer then .ok (s.opcode.wordAt 0)
  else match s.operand with
    | none =>
      if s.opcode = .hlt then .ok (Word.wrap 0)
      else .error (s.errorAt s.location (.missingOperand s.opcode.name))
    | some operand =>
      if s.opcode.takesTag then
        match tags.address? operand.text with
        | some a => .ok (s.opcode.wordAt (Address.wrap a))
        | none =>
          let similar := TagTable.similar operand.text tags.names
          .error (s.errorAt s.operandLocation (.undefinedTag operand.text similar))
      else s.encodeLiteral operand

end Statement

/-- The second pass. -/
def Draft.finish (filename : String) (d : Draft) : Except AssemblyError Program := do
  let words ← d.statements.mapM (Statement.encode d.tags)
  return { image := .ofWords words, tags := d.tags, statements := d.statements,
           dropped := d.dropped, filename }

/-- Assembles the lines of a source. -/
def assemble (lines : List String) (filename : String) : Except AssemblyError Program :=
  match Draft.survey filename lines with
  | .error e => .error (.source e)
  | .ok d => d.finish filename

namespace Program

/-- How many boxes the program defines. -/
def size (p : Program) : Nat := p.statements.length

/-- How many boxes are not zero. -/
def nonzeroCount (p : Program) : Nat := p.image.used

/-- The highest box that is not zero, or -1 if there is none. -/
def lastNonzero (p : Program) : Int :=
  match (List.finRange 100).reverse.find? fun a => (p.image.get a).val ≠ 0 with
  | some a => a.val
  | none => -1

/-- The address of the statement on a line. -/
def addressOf (p : Program) (line : Int) : Option Nat :=
  p.statements.findIdx? (·.location.line == line)

/-- Whether lines of code were left out. -/
def truncated (p : Program) : Bool := p.dropped.isSome

/-- The warnings about a program. -/
def warnings (p : Program) : List String :=
  p.dropped.toList.map fun line =>
    p.filename ++ ": program truncated at line " ++ toString line ++ ", over 100 boxes"

end Program

/-- The level of notes on progress. -/
def progressLevel (verbose : Bool) : Level := if verbose then .info else .debug

/-- The note on the first pass. -/
def Draft.note (verbose : Bool) (d : Draft) : Entry :=
  ⟨progressLevel verbose,
    "Pass 1: " ++ toString d.statements.length ++ " boxes, " ++ toString d.tags.size ++ " tags"⟩

/-- The notes on the second pass. -/
def Program.notes (verbose : Bool) (p : Program) : Journal :=
  ⟨progressLevel verbose, "Pass 2: " ++ toString p.nonzeroCount ++ " non-zero cells"⟩ ::
    p.warnings.map (⟨.warning, ·⟩)

/-- What an assembly leaves in the journal: a note for each pass that ended well, then the
warnings. -/
def assemblyNotes (verbose : Bool) (lines : List String) (filename : String) : Journal :=
  match Draft.survey filename lines with
  | .error _ => []
  | .ok d => d.note verbose :: match d.finish filename with
    | .error _ => []
    | .ok p => p.notes verbose

/-- An assembler at work keeps the program of its last assembly that ended well. -/
structure Assembler where
  last : Option Program := none
deriving Inhabited

namespace Assembler

/-- Assembles, and keeps the program if there is one. -/
def assemble (a : Assembler) (lines : List String) (filename : String) :
    Except AssemblyError Program × Assembler :=
  match LittleMan.assemble lines filename with
  | .ok p => (.ok p, { last := some p })
  | .error e => (.error e, a)

/-- What an assembler can be asked for. -/
inductive Call where
  | assemble (lines : List String) (filename : String)
  | loadWords (words : List Int)
  | encode (tags : TagTable) (statement : Statement)

/-- What it answers. -/
inductive Reply where
  | program (result : Except AssemblyError Program)
  | image (result : Except ImageError Memory)
  | word (result : Except AssemblyError Word)

/-- Answers a call. Only an assembly that ends well changes the assembler. -/
def perform (a : Assembler) : Call → Reply × Assembler
  | .assemble lines filename =>
    match a.assemble lines filename with
    | (result, next) => (.program result, next)
  | .loadWords words => (.image (LittleMan.loadWords words), a)
  | .encode tags statement => (.word (statement.encode tags), a)

/-- The last image; all zero before the first assembly. -/
def image (a : Assembler) : Memory := (a.last.map Program.image).getD .zero

/-- The last tag table. -/
def tags (a : Assembler) : TagTable := (a.last.map Program.tags).getD {}

/-- The last warnings. -/
def warnings (a : Assembler) : List String := (a.last.map Program.warnings).getD []

end Assembler

end LittleMan
