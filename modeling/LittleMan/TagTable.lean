/-
Tag tables: names for addresses, in the order of their definition.

* `insert`: a definition, which replaces an earlier one of the same name;
* `byBox`: the names by the boxes they stand for, with all addresses taken modulo 100;
* `nameAt?`: the name of a box.
-/
import LittleMan.Word
import LittleMan.Text.Case
import LittleMan.Text.Decimal
import LittleMan.Text.Distance
namespace LittleMan

/-- Names and the addresses they stand for. -/
structure TagTable where
  entries : List (String × Int) := []
deriving DecidableEq, Repr, Inhabited

namespace TagTable

/-- How many names there are. -/
def size (t : TagTable) : Nat := t.entries.length

/-- The names, in order. -/
def names (t : TagTable) : List String := t.entries.map Prod.fst

/-- The address that a name stands for. -/
def address? (t : TagTable) (name : String) : Option Int := t.entries.lookup name

/-- Gives a name an address. A name that is there already keeps its place. -/
def insert (t : TagTable) (name : String) (address : Int) : TagTable :=
  ⟨go t.entries⟩
where
  /-- Replaces the entry of that name, or adds one at the end. -/
  go : List (String × Int) → List (String × Int)
    | [] => [(name, address)]
    | (n, a) :: rest => if n = name then (name, address) :: rest else (n, a) :: go rest

/-- Adds definitions one after the other. -/
def insertAll (t : TagTable) (entries : List (String × Int)) : TagTable :=
  entries.foldl (fun t (name, address) => t.insert name address) t

/-- The table of some definitions. -/
def ofList (entries : List (String × Int)) : TagTable := insertAll {} entries

/-- Names the box of an entry, unless it has a name. -/
def nameBox (boxes : List (Address × String)) (entry : String × Int) : List (Address × String) :=
  let box := Address.wrap entry.2
  if (boxes.lookup box).isSome then boxes else boxes ++ [(box, entry.1)]

/-- The boxes that have a name, each with the one that is defined first; addresses count
modulo 100. -/
def byBox (t : TagTable) : List (Address × String) := t.entries.foldl nameBox []

/-- The name of the box that an integer names. -/
def nameAt? (t : TagTable) (address : Int) : Option String :=
  t.byBox.lookup (Address.wrap address)

/-- A box by its name, or by its number in two digits. -/
def render (t : TagTable) (address : Int) : String :=
  (t.nameAt? address).getD (Text.padded 2 (Address.wrap address).val)

/-- Whether two names are alike enough for one to be meant by the other: the same but for case, or
of nearly the same length and at most two edits apart. -/
def alike (name tag : String) : Bool :=
  let a := Text.lower name
  let b := Text.lower tag
  b == a || ((tag.length : Int) - name.length).natAbs ≤ 1 && Text.rowDistance a.toList b.toList ≤ 2

/-- The first three names that are like the given one. -/
def similar (name : String) (names : List String) : List String :=
  (names.filter (alike name)).take 3

end TagTable

end LittleMan
