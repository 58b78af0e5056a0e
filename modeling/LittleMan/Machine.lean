/-
The state of the machine: memory, program counter, accumulator and negative flag.

* `Machine.InRange`: the states that programs meet, with both registers within their range;
* `Machine.setAccumulator_eq`: what is kept of an arithmetic result;
* `Machine.ofImage`: a fresh machine over given words.

The registers are integers, because a state may be set up by hand with any numbers; only memory
cannot hold what is no word.
-/
import LittleMan.Memory
import LittleMan.Text.Decimal
namespace LittleMan

/-- A machine at rest between two instructions. -/
structure Machine where
  memory : Memory := .zero
  pc : Int := 0
  accumulator : Int := 0
  negative : Bool := false
deriving DecidableEq, Repr, Inhabited

/-- An instruction word that is none, and the box it was fetched from. -/
structure Fault where
  address : Int
  word : Int
deriving DecidableEq, Repr

/-- Why a list of numbers is no image. -/
inductive ImageError where
  | tooLarge (size : Nat)
  | wordOutOfRange (word : Int) (box : Nat)
  | cell (error : Memory.Error)
deriving DecidableEq, Repr

namespace ImageError

/-- The wording for more words than there are boxes. -/
def describeSize (size capacity : Int) : String :=
  "assembled code is too long for the machine (" ++ toString size ++ " > " ++ toString capacity ++
    " words)"

def message : ImageError → String
  | tooLarge n => describeSize n 100
  | wordOutOfRange w box => match Text.written toString w with
    | .ok word => "word " ++ word ++ " at box " ++ Text.padded 2 box ++ " out of range 0..999"
    | .error e => e.message
  | cell e => e.message

end ImageError

namespace Machine

/-- The program counter names a box, and the accumulator holds a word. -/
def InRange (m : Machine) : Prop :=
  (0 ≤ m.pc ∧ m.pc ≤ 99) ∧ (0 ≤ m.accumulator ∧ m.accumulator ≤ 999)

instance (m : Machine) : Decidable m.InRange := inferInstanceAs (Decidable (_ ∧ _))

/-- Sets the program counter, the accumulator and the flag back; memory stays. -/
def reset (m : Machine) : Machine := { m with pc := 0, accumulator := 0, negative := false }

/-- Puts an arithmetic result into the accumulator and sets the flag. -/
def setAccumulator (m : Machine) (v : Int) : Machine :=
  let (value, negative) := normalize v
  { m with accumulator := value, negative := negative }

theorem setAccumulator_eq (m : Machine) (v : Int) :
    m.setAccumulator v = { m with accumulator := v % 1000, negative := decide (v < 0) } := by
  rw [setAccumulator, normalize_eq]

/-- The word that the program counter points at. -/
def fetched (m : Machine) : Word := m.memory.read m.pc

/-- A fresh machine whose memory starts with the given words. -/
def ofImage (image : List Int) : Except ImageError Machine :=
  if image.length > 100 then .error (.tooLarge image.length)
  else match Memory.zero.load 0 image with
    | (.ok (), memory) => .ok { memory := memory }
    | (.error e, _) => .error (.cell e)

end Machine

/-- The memory that a list of words makes. The number of words is looked at first. -/
def loadWords (words : List Int) : Except ImageError Memory :=
  if words.length > 100 then .error (.tooLarge words.length)
  else check 0 words []
where
  /-- Collects the words, the last one first, until one is out of range. -/
  check (box : Nat) : List Int → List Word → Except ImageError Memory
    | [], done => .ok (.ofWords done.reverse)
    | v :: rest, done => match Word.ofInt? v with
      | some w => check (box + 1) rest (w :: done)
      | none => .error (.wordOutOfRange v box)

end LittleMan
