/-
Escape sequences, by which a text sets the colours of a terminal and moves its cursor: the escape
character, a bracket, parameters and a letter.

* `plain`: a text without its escape sequences, as it is shown where no terminal would act on them.

What only starts like a sequence is not one, and nothing is joined to new sequences.
-/
import LittleMan.Text.Blank
namespace LittleMan.Text

/-- The escape character. -/
def escape : Char := '\x1b'

/-- A character between the bracket and the letter of an escape sequence. -/
def isParameter (c : Char) : Bool := c.isDigit || c = ';' || c = '?'

/-- What follows an escape sequence, from the text after its escape character. -/
def afterSequence? : List Char → Option (List Char)
  | '[' :: rest => match rest.dropWhile isParameter with
    | letter :: after => if letter.isAlpha then some after else none
    | [] => none
  | _ => none

theorem length_of_afterSequence? {cs after : List Char} (h : afterSequence? cs = some after) :
    after.length < cs.length := by
  unfold afterSequence? at h
  split at h
  · next rest =>
    have := length_dropWhile_le isParameter rest
    split at h
    · next hd =>
      split at h
      · cases h
        rw [hd, List.length_cons] at this
        rw [List.length_cons]
        omega
      · cases h
    · cases h
  · cases h

/-- Leaves the escape sequences out. -/
def dropSequences : List Char → List Char
  | [] => []
  | c :: rest =>
    if c = escape then match _h : afterSequence? rest with
      | some after => dropSequences after
      | none => c :: dropSequences rest
    else c :: dropSequences rest
termination_by cs => cs.length
decreasing_by
  · have := length_of_afterSequence? _h
    simp only [List.length_cons]
    omega
  · simp
  · simp

/-- A text without its escape sequences. -/
def plain (text : String) : String := String.ofList (dropSequences text.toList)

end LittleMan.Text
