/-
The hundred boxes. Addresses go round, so every integer names a box, and a box never holds anything
but a word.

* `read_set`: what is read after a box was set;
* `load`: copies words into consecutive boxes and stops at the first that does not fit.
-/
import LittleMan.Text.Decimal
import LittleMan.Word
namespace LittleMan

/-- One hundred words. -/
structure Memory where
  cells : Vector Word 100
deriving DecidableEq, Repr

namespace Memory

/-- Why something cannot be put into memory. -/
inductive Error where
  | outOfRange (value : Int)
  | tooMany (count : Nat)
deriving DecidableEq, Repr

/-- The wording. A number without a text is an error of the same kind in itself. -/
def Error.message : Error → String
  | .outOfRange v => match Text.written toString v with
    | .ok value => "value " ++ value ++ " out of range 0..999"
    | .error e => e.message
  | .tooMany n => toString n ++ " words do not fit in 100 cells"

/-- All boxes zero. -/
def zero : Memory := ⟨Vector.replicate 100 0⟩

instance : Inhabited Memory := ⟨zero⟩

/-- The word in a box. -/
def get (m : Memory) (a : Address) : Word := m.cells[a]

/-- Puts a word into a box. -/
def set (m : Memory) (a : Address) (w : Word) : Memory := ⟨m.cells.set a w⟩

/-- The word in the box that an integer names. -/
def read (m : Memory) (a : Int) : Word := m.get (Address.wrap a)

/-- Puts a value into the box that an integer names, if it is a word. -/
def write (m : Memory) (a : Int) (v : Int) : Except Error Memory :=
  match Word.ofInt? v with
  | some w => .ok (m.set (Address.wrap a) w)
  | none => .error (.outOfRange v)

/-- Writes values one box after the other. At a value that is no word the writing stops, and what
was written stays. -/
def writeAll (m : Memory) (start : Int) : List Int → Except Error Unit × Memory
  | [] => (.ok (), m)
  | v :: rest =>
    match m.write start v with
    | .ok m' => m'.writeAll (start + 1) rest
    | .error e => (.error e, m)

/-- Writes at most a hundred values; more are refused before anything is written. -/
def load (m : Memory) (start : Int) (values : List Int) : Except Error Unit × Memory :=
  if values.length > 100 then (.error (.tooMany values.length), m) else m.writeAll start values

/-- The words from box 0 on, the boxes after the last one zero; what goes past box 99 is dropped. -/
def ofWords (words : List Word) : Memory := ⟨Vector.ofFn fun i => words[i.val]?.getD 0⟩

/-- The words in the order of the boxes. -/
def toList (m : Memory) : List Word := m.cells.toList

/-- How many boxes are not zero. -/
def used (m : Memory) : Nat := m.toList.countP (· ≠ 0)

/-- A one-line summary. -/
def summary (m : Memory) : String := "Memory(" ++ toString m.used ++ " non-zero cells)"

theorem ext_get {m n : Memory} (h : ∀ a, m.get a = n.get a) : m = n := by
  obtain ⟨c⟩ := m
  obtain ⟨d⟩ := n
  congr 1
  apply Vector.ext
  intro i hi
  exact h ⟨i, hi⟩

theorem get_zero (a : Address) : zero.get a = 0 := by
  simp [get, zero, Fin.getElem_fin]

theorem get_set (m : Memory) (a b : Address) (w : Word) :
    (m.set a w).get b = if a = b then w else m.get b := by
  simp only [get, set, Fin.getElem_fin, Vector.getElem_set, Fin.ext_iff]

theorem read_set (m : Memory) (a : Address) (b : Int) (w : Word) :
    (m.set a w).read b = if a = Address.wrap b then w else m.read b :=
  get_set m a (Address.wrap b) w

theorem get_ofWords (words : List Word) (a : Address) :
    (ofWords words).get a = words[a.val]?.getD 0 := by
  simp [get, ofWords, Fin.getElem_fin]

theorem length_toList (m : Memory) : m.toList.length = 100 := by
  simp [toList]

theorem toList_injective {m n : Memory} (h : m.toList = n.toList) : m = n := by
  obtain ⟨c⟩ := m
  obtain ⟨d⟩ := n
  exact congrArg Memory.mk (Vector.toList_inj.mp h)

theorem toList_ofWords {words : List Word} (h : words.length = 100) :
    (ofWords words).toList = words := by
  apply List.ext_getElem
  · rw [length_toList, h]
  · intro i hi hi'
    simp [toList, ofWords, List.getElem?_eq_getElem hi']

end Memory

end LittleMan
