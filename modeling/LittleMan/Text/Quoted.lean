/-
Quotations, as they appear in diagnostics: a text between quotes, with everything escaped that would
not print.

The delimiter is the apostrophe, unless the text holds an apostrophe and no double quote. The
delimiter, the backslash and three control characters have short escapes; any other unprintable
character is written with two, four or eight hexadecimal digits.
-/
import LittleMan.Text.Case
import LittleMan.Text.PrintTable
namespace LittleMan.Text

/-- Whether a character has a printed form of its own. -/
def isPrintable (c : Char) : Bool :=
  if c.toNat < 0x80 then 0x20 ≤ c.toNat && c.toNat < 0x7F
  else !inRanges unprintableRanges c.toNat

/-- The last `width` hexadecimal digits of a number, in lower case. -/
def hexDigits : (width : Nat) → Nat → List Char
  | 0, _ => []
  | width + 1, n => hexDigits width (n / 16) ++ [Nat.digitChar (n % 16)]

/-- A character as it is written between delimiters. -/
def quoteChar (delimiter : Char) (c : Char) : List Char :=
  if c = delimiter ∨ c = '\\' then ['\\', c]
  else if c = '\n' then ['\\', 'n']
  else if c = '\r' then ['\\', 'r']
  else if c = '\t' then ['\\', 't']
  else if isPrintable c then [c]
  else if c.toNat < 0x100 then '\\' :: 'x' :: hexDigits 2 c.toNat
  else if c.toNat < 0x10000 then '\\' :: 'u' :: hexDigits 4 c.toNat
  else '\\' :: 'U' :: hexDigits 8 c.toNat

/-- The delimiter that a text is quoted with. -/
def delimiterFor (cs : List Char) : Char :=
  if cs.contains '\'' && !cs.contains '"' then '"' else '\''

/-- A text between quotes. -/
def quote (text : String) : String :=
  let cs := text.toList
  let delimiter := delimiterFor cs
  String.ofList (delimiter :: cs.flatMap (quoteChar delimiter) ++ [delimiter])

end LittleMan.Text
