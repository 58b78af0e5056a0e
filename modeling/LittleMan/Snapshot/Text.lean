/-
The text snapshot of a machine, on one line:

    LMC[P 003 042 503 902 000 ... 000]

A flag, `P` or `N`, then the program counter, the accumulator and the hundred words, each after one
space. Three digits are written; one to three are read. Blanks around the text do not count.

* `encodeText`, `decodeText`: writing and reading;
* `readFields`: reads the numbers, and says of the first that is none what is wrong with it.
-/
import LittleMan.Machine
import LittleMan.Snapshot.Error
import LittleMan.Text.Blank
namespace LittleMan.Snapshot

open Text

/-- The numbers of a snapshot in the order they are written. -/
def values (m : Machine) : List Int :=
  m.pc :: m.accumulator :: m.memory.toList.map fun w => (w.val : Int)

/-- A machine as text, if its registers have one. -/
def encodeText (m : Machine) : Except NumberTooLong String := do
  let flag := if m.negative then "N" else "P"
  let fields ← (values m).mapM (written (padded 3))
  return "LMC[" ++ flag ++ " " ++ " ".intercalate fields ++ "]"

/-- What stands at the start of a text up to the next space or bracket; the character there if that
is nothing. -/
def tokenAt (cs : List Char) : String :=
  let token := cs.takeWhile fun c => c ≠ ' ' && c ≠ ']'
  String.ofList (if token.isEmpty then cs.take 1 else token)

/-- What is wrong with a number followed by the wrong character. -/
def terminatorDefect (isLast : Bool) : Option Char → Defect
  | some ']' => .tooFew
  | some ' ' => if isLast then .tooMany else .malformedNumber
  | _ => .malformedNumber

/-- Reads `count` numbers, each after a space; the last has to stand before the bracket, the others
before a space. Gives the numbers and the rest with its position. -/
def readFields : (count position : Nat) → List Char → Except Error (List Nat × Nat × List Char)
  | 0, position, rest => .ok ([], position, rest)
  | count + 1, position, ' ' :: body =>
    let number := (body.takeWhile isDigit).take 3
    let after := body.drop number.length
    let last := count == 0
    if number.isEmpty then .error ⟨tokenAt body, .notANumber, some (position + 1)⟩
    else if after.head? ≠ some (if last then ']' else ' ') then
      .error ⟨tokenAt body, terminatorDefect last after.head?, some (position + 1)⟩
    else match readFields count (position + 1 + number.length) after with
      | .error e => .error e
      | .ok (later, rest) => .ok (digitsValue number :: later, rest)
  | _ + 1, position, rest => .error ⟨String.ofList (rest.take 1), .missingSpace, some position⟩

/-- The machine of a flag and 102 numbers. -/
def ofValues (negative : Bool) : List Nat → Except Error Machine
  | pc :: accumulator :: words =>
    if pc ≥ 100 then .error ⟨toString pc, .counterOutOfRange, none⟩
    else .ok {
      memory := .ofWords (words.map Word.wrap), pc := pc, accumulator := accumulator
      negative := negative }
  | _ => .error ⟨"", .tooFew, none⟩

/-- Reads what follows the opening bracket. -/
def decodeBody : List Char → Except Error Machine
  | flag :: body =>
    if flag ≠ 'P' ∧ flag ≠ 'N' then .error ⟨String.singleton flag, .badFlag, some 4⟩
    else match readFields 102 5 body with
      | .error e => .error e
      | .ok (numbers, position, rest) =>
        if rest ≠ [']'] then .error ⟨String.ofList rest, .missingEnd, some position⟩
        else ofValues (flag == 'N') numbers
  | [] => .error ⟨"", .badFlag, some 4⟩

/-- The machine that a text describes. -/
def decodeText (text : String) : Except Error Machine :=
  match trim text.toList with
  | 'L' :: 'M' :: 'C' :: '[' :: body => decodeBody body
  | cs => .error ⟨String.ofList (cs.take 4), .missingStart, some 0⟩

end LittleMan.Snapshot
