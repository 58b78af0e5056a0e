/-
Packing: a program edited so that it no longer declares the zeros at its end.

* `Packing.plan`: for each line, whether it is kept, patched or left out;
* `editLine`: what a line becomes;
* `pack`: the text after all edits, and what was done to it.

Memory is zero beyond the last box that is not, so data declared there costs boxes and nothing else.
A line that refers to such data becomes a data word with the very word it had, and the declarations
become comments. Lines are never removed, so line numbers stay what they were. In a program that did
not fit, what was dropped is commented out too, or it would move into the boxes that become free.
-/
import LittleMan.Program
namespace LittleMan

open Text

/-- What happens to a line of the source. -/
inductive Edit where
  | keep
  /-- The line becomes a data word; its tag stays. -/
  | patch (word : Word) (tag : Option String)
  /-- The line becomes a comment. -/
  | comment (tag : Option String)
deriving DecidableEq, Repr, Inhabited

/-- A packed program. -/
structure Packed where
  text : String
  packedTags : List String
  amendedLines : List Nat
  omittedLines : List Nat
  saved : Nat
  lastNonzero : Int
deriving DecidableEq, Repr, Inhabited

namespace Packing

/-- What stands in front of a line that was left out. -/
def omittedMark : String := "# OMITTED #"

/-- The block of comment on top of a packed program. -/
def noticeLines (saved : Nat) : List String :=
  let bar := String.ofList (List.replicate 34 '#')
  [ bar,
    "# NOTICE - File optimised by automated tool",
    "#   Uninitialised variables at the end of the program are no longer defined.",
    "#   This has decreased the size of the compiled program by " ++ toString saved ++ " boxes.",
    "#   Instructions that referred to those boxes were rewritten as DAT words",
    "#   holding the same machine code; the original instruction follows each",
    "#   one as a comment.",
    "#   Declarations that were optimised out are prefixed with \x60" ++ omittedMark ++ "\x60.",
    bar ]

/-- The tags that stand for boxes past the last one that is not zero. -/
def packableTags (p : Program) : List String :=
  (p.tags.entries.filter fun (_, address) => address > p.lastNonzero).map Prod.fst

/-- What happens to a statement at an address. -/
def editOf (p : Program) (address : Nat) (s : Statement) : Edit :=
  match s.operand with
  | none => .keep
  | some operand =>
    if s.opcode.takesTag && (packableTags p).contains operand.text then
      .patch (p.image.read address) s.tag
    else if address > p.lastNonzero then .comment s.tag
    else .keep

/-- The edits of the statements, each with its line. -/
def statementEdits (p : Program) : List (Int × Edit) :=
  p.statements.zipIdx.map fun (s, address) => (s.location.line, editOf p address s)

/-- Whether a line of code was dropped because memory was full. -/
def isDropped (p : Program) (number : Nat) (raw : String) : Bool :=
  p.truncated && Statement.isCode raw &&
    p.statements.getLast?.any fun last => (number : Int) > last.location.line

/-- The source with the edit of each line, lines numbered from a given one. -/
def planFrom (p : Program) (edits : List (Int × Edit)) :
    Nat → List String → List (Nat × String × Edit)
  | _, [] => []
  | number, raw :: rest =>
    let edit := match edits.lookup (number : Int) with
      | some edit => edit
      -- a line that was dropped would come back once boxes become free
      | none => if isDropped p number raw then .comment none else .keep
    (number, raw, edit) :: planFrom p edits (number + 1) rest

/-- The source of a program with the edit of each line. -/
def plan (p : Program) (lines : List String) : List (Nat × String × Edit) :=
  planFrom p (statementEdits p) 1 lines

/-- The statement of a patched line without its tag: what its comment says. -/
def patchBody (text : List Char) (tag : Option String) : List Char :=
  let body := trimStart text
  match tag with
  | none => body
  | some tag => trimStart (body.drop tag.length)

/-- A line after its edit. -/
def editLine (raw : String) (edit : Edit) : String :=
  let text := trimEnd raw.toList
  match edit with
  | .keep => String.ofList text
  | .patch word tag =>
    tag.getD "" ++ "\tDAT\t" ++ padded 3 word.val ++ " # " ++ String.ofList (patchBody text tag)
  | .comment _ => omittedMark ++ "\t" ++ String.ofList (trimStart text)

/-- The note on an edit. -/
def editNote (number : Nat) (raw : String) : Edit → Journal
  | .keep => []
  | .patch _ tag =>
    let body := String.ofList (patchBody (trimEnd raw.toList) tag)
    [⟨.info, "Patching instruction on line " ++ toString number ++ ": " ++ body⟩]
  | .comment (some tag) =>
    [⟨.info, "Omitting definition of \x60" ++ tag ++ "\x60 on line " ++ toString number⟩]
  | .comment none => [⟨.info, "Omitting line " ++ toString number⟩]

/-- The lines that a plan treats in a certain way. -/
def numbersOf (which : Edit → Bool) (plan : List (Nat × String × Edit)) : List Nat :=
  (plan.filter fun (_, _, edit) => which edit).map Prod.fst

/-- The lines that become data words. -/
def isPatch : Edit → Bool
  | .patch .. => true
  | _ => false

/-- The lines that become comments. -/
def isComment : Edit → Bool
  | .comment .. => true
  | _ => false

/-- How many boxes the packed program defines fewer. -/
def saved (p : Program) : Nat := (statementEdits p).countP fun (_, edit) => isComment edit

end Packing

open Packing

/-- The packed form of a program with the given source. -/
def Program.pack (p : Program) (lines : List String) (notice : Bool) : Packed :=
  let plan := plan p lines
  let top := if notice then noticeLines (saved p) ++ [""] else []
  { text := "\n".intercalate (top ++ plan.map fun (_, raw, edit) => editLine raw edit) ++ "\n"
    packedTags := packableTags p
    amendedLines := numbersOf isPatch plan
    omittedLines := numbersOf isComment plan
    saved := saved p
    lastNonzero := p.lastNonzero }

/-- Packs a source text, if it assembles. -/
def pack (lines : List String) (filename : String) (notice : Bool) : Except AssemblyError Packed :=
  (assemble lines filename).map fun p => p.pack lines notice

/-- What packing leaves in the journal. -/
def packNotes (lines : List String) (filename : String) : Journal :=
  ⟨.info, "Getting assembled info..."⟩ :: assemblyNotes false lines filename ++
    match assemble lines filename with
    | .error _ => []
    | .ok p =>
      ⟨.info, "Packing " ++ toString (packableTags p).length ++ " variables"⟩ ::
        (plan p lines).flatMap (fun (number, raw, edit) => editNote number raw edit) ++
        [⟨.info, "Optimised out " ++ toString (saved p) ++ " boxes"⟩]

end LittleMan
