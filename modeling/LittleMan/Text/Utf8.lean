/-
Bytes to text. What is not well formed is refused, with the bytes at fault and the reason.

A sequence starts with a byte that fixes its length; the second byte has a narrower range after the
leads E0, ED, F0 and F4, which keeps out long forms, surrogates and code points past the last one.
The bytes at fault run from the lead up to the last byte that still could continue it.
-/
namespace LittleMan.Text.Utf8

/-- Why bytes are no text. -/
inductive Defect where
  | invalidStart
  | invalidContinuation
  | unexpectedEnd
deriving DecidableEq, Repr

/-- Where decoding stopped: the bytes from `start` on, `length` of them. -/
structure Error where
  defect : Defect
  start : Nat
  length : Nat
  lead : UInt8
deriving DecidableEq, Repr

def Defect.message : Defect → String
  | .invalidStart => "invalid start byte"
  | .invalidContinuation => "invalid continuation byte"
  | .unexpectedEnd => "unexpected end of data"

/-- A byte as two hexadecimal digits in lower case. -/
def hexByte (b : UInt8) : String :=
  String.ofList [Nat.digitChar (b.toNat / 16), Nat.digitChar (b.toNat % 16)]

def Error.message (e : Error) : String :=
  let place :=
    if e.length = 1 then "byte 0x" ++ hexByte e.lead ++ " in position " ++ toString e.start
    else "bytes in position " ++ toString e.start ++ "-" ++ toString (e.start + e.length - 1)
  "'utf-8' codec can't decode " ++ place ++ ": " ++ e.defect.message

/-- What a lead byte announces: the ranges of the bytes that follow, and its own share of the code
point. -/
def announce? (lead : UInt8) : Option (List (Nat × Nat) × Nat) :=
  let n := lead.toNat
  let tail := (0x80, 0xBF)
  if n < 0x80 then some ([], n)
  else if 0xC2 ≤ n ∧ n ≤ 0xDF then some ([tail], n - 0xC0)
  else if n = 0xE0 then some ([(0xA0, 0xBF), tail], 0)
  else if n = 0xED then some ([(0x80, 0x9F), tail], 0xD)
  else if 0xE1 ≤ n ∧ n ≤ 0xEF then some ([tail, tail], n - 0xE0)
  else if n = 0xF0 then some ([(0x90, 0xBF), tail, tail], 0)
  else if n = 0xF4 then some ([(0x80, 0x8F), tail, tail], 4)
  else if 0xF1 ≤ n ∧ n ≤ 0xF3 then some ([tail, tail, tail], n - 0xF0)
  else none

/-- Reads continuation bytes, one for each range. Gives the code point and the rest, or the defect
and the number of bytes that fitted. -/
def continueWith : List (Nat × Nat) → (code fitted : Nat) → (bytes : List UInt8) →
    Except (Defect × Nat) (Nat × { rest : List UInt8 // rest.length ≤ bytes.length })
  | [], code, _, bytes => .ok (code, ⟨bytes, Nat.le_refl _⟩)
  | _ :: _, _, fitted, [] => .error (.unexpectedEnd, fitted)
  | (low, high) :: ranges, code, fitted, b :: bytes =>
    if low ≤ b.toNat ∧ b.toNat ≤ high then
      match continueWith ranges (code * 64 + (b.toNat - 0x80)) (fitted + 1) bytes with
      | .ok (code, ⟨rest, h⟩) => .ok (code, ⟨rest, Nat.le_succ_of_le h⟩)
      | .error e => .error e
    else .error (.invalidContinuation, fitted)

/-- The text that bytes encode, the first of them at the given position. -/
def decodeFrom (position : Nat) : List UInt8 → Except Error (List Char)
  | [] => .ok []
  | lead :: bytes =>
    match announce? lead with
    | none => .error ⟨.invalidStart, position, 1, lead⟩
    | some (ranges, share) =>
      match continueWith ranges share 1 bytes with
      | .error (defect, fitted) => .error ⟨defect, position, fitted, lead⟩
      | .ok (code, ⟨rest, _h⟩) =>
        match decodeFrom (position + 1 + ranges.length) rest with
        | .error e => .error e
        | .ok cs => .ok (Char.ofNat code :: cs)
termination_by bytes => bytes.length
decreasing_by exact Nat.lt_succ_of_le _h

/-- The text that bytes encode. -/
def decode (bytes : List UInt8) : Except Error (List Char) := decodeFrom 0 bytes

/-- The bytes of a text. -/
def encode (text : String) : List UInt8 := text.toUTF8.toList

end LittleMan.Text.Utf8
