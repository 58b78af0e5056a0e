/-
Listings: words of memory shown as instructions.

* `Listing.Line.ofWord`: what a word says, by subtracting its operand and looking up the base;
* `Listing.Line.render`: a line of a listing;
* `listing`: consecutive boxes.

`IN` and `OUT` are whole words. A word below 100 shows as a halt, and as data in the comment unless
it is zero. What is left names an operand with its last two digits; if the remainder is no base, the
word is unknown.
-/
import LittleMan.Opcode
import LittleMan.TagTable
namespace LittleMan.Listing

open Text

/-- A word and what it says. -/
structure Line where
  word : Int
  /-- The mnemonic, unless the word is no instruction. -/
  opcode : Option Opcode
  operand : Option Int := none
  operandText : String := ""
  address : Option Int := none
  label : Option String := none
  comment : String := ""
deriving DecidableEq, Repr, Inhabited

namespace Line

/-- Reads a word, with the box it is in if that is known. -/
def ofWord (tags : TagTable) (word : Int) (address : Option Int) : Line :=
  let line : Line := { word, opcode := none, address, label := address.bind tags.nameAt? }
  if word = 901 then { line with opcode := some .inp }
  else if word = 902 then { line with opcode := some .out }
  else if word / 100 = 0 then
    { line with
      opcode := some .hlt
      comment := if word = 0 then "" else "DAT " ++ padded 3 word }
  else
    let operand := word % 100
    match Opcode.ofBase? (word - operand) with
    | some opcode =>
      { line with
        opcode := some opcode, operand := some operand, operandText := tags.render operand }
    | none =>
      { line with
        operand := some word, operandText := padded 3 word, comment := "unknown instruction" }

/-- Whether the word is no instruction. -/
def isUnknown (l : Line) : Bool := l.opcode.isNone

/-- How the mnemonic is shown. -/
def mnemonic (l : Line) : String := l.opcode.elim "???" Opcode.name

/-- Mnemonic and operand. -/
def text (l : Line) : String :=
  if l.operandText = "" then l.mnemonic else l.mnemonic ++ " " ++ l.operandText

/-- Fills a text with spaces at the end, up to a width. -/
def padEnd (width : Nat) (text : String) : String :=
  text ++ String.ofList (List.replicate (width - text.length) ' ')

/-- The box of a line, its name in brackets. -/
def place (l : Line) : String :=
  match l.address with
  | none => ""
  | some a =>
    let label := match l.label with
      | some name => if name = "" then "" else " (" ++ name ++ ")"
      | none => ""
    padded 2 a ++ label ++ ": "

/-- A line of a listing: box, word, instruction, and the comment from column 33 on. -/
def render (l : Line) : String :=
  let shown := l.place ++ padded 3 l.word ++ "  " ++ l.text
  if l.comment = "" then shown else padEnd 32 shown ++ " # " ++ l.comment

end Line

end LittleMan.Listing

namespace LittleMan

open Listing

/-- Whether a number can count places: those of 64 bits with a sign. -/
def isIndex (n : Int) : Bool := -9223372036854775808 ≤ n && n ≤ 9223372036854775807

/-- An address outside a list of words. A list has no place for a number that counts none. -/
structure OutsideImage where
  address : Int
deriving DecidableEq, Repr

def OutsideImage.message (e : OutsideImage) : String :=
  if isIndex e.address then "list index out of range"
  else "cannot fit 'int' into an index-sized integer"

/-- The word at an address of an image; a negative address counts from the end. -/
def wordAt? (image : List Int) (address : Int) : Except OutsideImage Int :=
  let index := if address < 0 then address + image.length else address
  match if index < 0 then none else image[index.toNat]? with
  | some word => .ok word
  | none => .error ⟨address⟩

/-- The lines for the boxes of an image from an address on, as many as are asked for. -/
def linesFrom (tags : TagTable) (image : List Int) : Nat → Int → Except OutsideImage (List Line)
  | 0, _ => .ok []
  | n + 1, address => do
    let word ← wordAt? image address
    return Line.ofWord tags word (some address) :: (← linesFrom tags image n (address + 1))

/-- The address at which a listing ends: after `count` boxes or at the end of the image, and never
past box 99. -/
def listingEnd (size : Nat) (start : Int) (count : Option Int) : Int :=
  min (count.elim (size : Int) fun n => min size (start + n)) 100

/-- The lines for consecutive boxes of an image. -/
def listing (tags : TagTable) (image : List Int) (start : Int) (count : Option Int) :
    Except OutsideImage (List Line) :=
  linesFrom tags image (listingEnd image.length start count - start).toNat start

/-- A listing as text. -/
def renderListing (lines : List Line) : String := "\n".intercalate (lines.map Line.render)

end LittleMan
