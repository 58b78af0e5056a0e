/-
The binary snapshot of a machine: 205 bytes, the lower byte of a number first.

    accumulator (2)  program counter (2)  flag (1)  the hundred words (2 each)

* `encodeBinary`, `decodeBinary`: writing and reading. A register that does not fit into two bytes
  cannot be written; whatever is written or read has exactly 205 bytes.
-/
import LittleMan.Machine
import LittleMan.Snapshot.Error
namespace LittleMan.Snapshot

/-- A number in two bytes, the lower first. -/
def twoBytes (n : Nat) : List UInt8 := [UInt8.ofNat (n % 256), UInt8.ofNat (n / 256)]

/-- A register that does not fit into two bytes. -/
structure Unencodable where
  value : Int
deriving DecidableEq, Repr

/-- A register in two bytes, if it fits. -/
def encodeRegister (v : Int) : Except Unencodable (List UInt8) :=
  if 0 ≤ v ∧ v < 65536 then .ok (twoBytes v.toNat) else .error ⟨v⟩

/-- A machine as bytes. -/
def encodeBinary (m : Machine) : Except Unencodable (List UInt8) := do
  let accumulator ← encodeRegister m.accumulator
  let pc ← encodeRegister m.pc
  let flag : UInt8 := if m.negative then 1 else 0
  return accumulator ++ pc ++ flag :: m.memory.toList.flatMap fun w => twoBytes w.val

/-- The numbers that pairs of bytes write. -/
def readPairs : List UInt8 → List Nat
  | low :: high :: rest => (low.toNat + 256 * high.toNat) :: readPairs rest
  | _ => []

/-- The first word, with its box, that is out of range; boxes count from the given one. -/
def firstTooLarge : (box : Nat) → List Nat → Option (Nat × Nat)
  | _, [] => none
  | box, w :: rest => if w > 999 then some (box, w) else firstTooLarge (box + 1) rest

/-- A byte as it is shown: `0x` and two hexadecimal digits in upper case. -/
def showByte (b : UInt8) : String :=
  let digit (n : Nat) := (Nat.digitChar n).toUpper
  String.ofList ['0', 'x', digit (b.toNat / 16), digit (b.toNat % 16)]

/-- The machine that bytes describe. -/
def decodeBinary (bytes : List UInt8) : Except Error Machine :=
  let wrongLength : Error := ⟨toString bytes.length ++ " bytes", .wrongLength, none⟩
  if bytes.length ≠ 205 then .error wrongLength
  else match bytes with
    | a0 :: a1 :: p0 :: p1 :: flag :: rest =>
      let accumulator := a0.toNat + 256 * a1.toNat
      let pc := p0.toNat + 256 * p1.toNat
      let words := readPairs rest
      if flag > 1 then .error ⟨showByte flag, .badFlagByte, some 4⟩
      else if accumulator > 999 then .error ⟨toString accumulator, .accumulatorOutOfRange, some 0⟩
      else if pc > 99 then .error ⟨toString pc, .counterOutOfRange, some 2⟩
      else match firstTooLarge 0 words with
        | some (box, w) => .error ⟨toString w, .boxOutOfRange box, some (5 + 2 * box)⟩
        | none => .ok {
            memory := .ofWords (words.map Word.wrap), pc := pc, accumulator := accumulator
            negative := flag == 1 }
    | _ => .error wrongLength

end LittleMan.Snapshot
