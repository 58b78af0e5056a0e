/-
Integers that are typed within bounds.

* `Bounds.read`: reads an integer, and says what is wrong with a text that is none or with an
  integer out of bounds.
-/
import LittleMan.Text.Integer
import LittleMan.Text.Quoted
namespace LittleMan.CommandLine

open Text

/-- The least and, unless there is none, the greatest integer that is taken. -/
structure Bounds where
  least : Int
  greatest : Option Int := none
deriving DecidableEq, Repr, Inhabited

/-- Why a text is not taken. -/
inductive NumberDefect where
  | notAnInteger (text : String)
  | outOfBounds (value : Int) (bounds : Bounds)
deriving DecidableEq, Repr

namespace Bounds

/-- Whether an integer lies within the bounds. -/
def contains (b : Bounds) (v : Int) : Bool := b.least ≤ v && b.greatest.all (v ≤ ·)

/-- How bounds are written. -/
def render (b : Bounds) : String :=
  match b.greatest with
  | some greatest => toString b.least ++ "<=x<=" ++ toString greatest
  | none => "x>=" ++ toString b.least

/-- Reads an integer within the bounds. -/
def read (b : Bounds) (text : String) : Except NumberDefect Int :=
  match readInteger? text with
  | none => .error (.notAnInteger text)
  | some v => if b.contains v then .ok v else .error (.outOfBounds v b)

theorem contains_of_read {b : Bounds} {text : String} {v : Int} (h : b.read text = .ok v) :
    b.contains v = true := by
  unfold read at h
  split at h
  · cases h
  · split at h
    · next hv => cases h; exact hv
    · cases h

/-- The bounds of a word of memory. -/
def word : Bounds := ⟨0, some 999⟩

/-- The bounds of a count without an upper limit. -/
def positive : Bounds := ⟨1, none⟩

/-- The bounds of a count up to a thousand. -/
def thousand : Bounds := ⟨1, some 1000⟩

end Bounds

def NumberDefect.message : NumberDefect → String
  | notAnInteger text => quote text ++ " is not a valid integer range."
  | outOfBounds v b => toString v ++ " is not in the range " ++ b.render ++ "."

end LittleMan.CommandLine
