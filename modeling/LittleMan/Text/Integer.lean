/-
Integers as people and environments write them: white space around, a sign, single underscores
between digits, and the decimal digits of any script.
-/
import LittleMan.Text.Blank
import LittleMan.Text.Decimal
import LittleMan.Text.DigitTable
namespace LittleMan.Text

/-- The value of a decimal digit of any script. -/
def anyDigitValue? (c : Char) : Option Nat :=
  digitZeros.findSome? fun first =>
    if first ≤ c.toNat ∧ c.toNat < first + 10 then some (c.toNat - first) else none

/-- A character as far as reading an integer is concerned: digits beyond ASCII count as the ASCII
digits, blanks beyond ASCII as spaces. -/
def simplify (c : Char) : Char :=
  if c.toNat < 0x7F then c
  else if isBlank c then ' '
  else match anyDigitValue? c with
    | some d => digitChar d
    | none => c

/-- The blanks that may surround an integer once it is simplified. The four ASCII separators of
files, groups, records and units are not among them. -/
def isMargin (c : Char) : Bool :=
  let n := c.toNat
  (0x09 ≤ n && n ≤ 0x0D) || n == 0x20

/-- The digits of a numeral whose digits may be grouped by single underscores. -/
def ungroup : List Char → Option (List Char)
  | [] => none
  | [c] => if isDigit c then some [c] else none
  | c :: '_' :: rest => if isDigit c then (ungroup rest).map (c :: ·) else none
  | c :: rest => if isDigit c then (ungroup rest).map (c :: ·) else none

/-- The integer that a text writes, if it writes one with few enough digits. -/
def readInteger? (text : String) : Option Int :=
  let body := dropEndWhile isMargin ((text.toList.map simplify).dropWhile isMargin)
  let (negative, numeral) := match body with
    | '-' :: rest => (true, rest)
    | '+' :: rest => (false, rest)
    | rest => (false, rest)
  match ungroup numeral with
  | none => none
  | some ds =>
    if ds.length > maxNumeralLength then none
    else some (if negative then -(digitsValue ds : Int) else digitsValue ds)

end LittleMan.Text
