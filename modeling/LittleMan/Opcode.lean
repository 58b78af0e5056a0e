/-
The instruction set: eleven mnemonics and the number that each adds to its operand.

* `ofName?_eq_some`: a mnemonic is found under its own name and no other;
* `wordAt_val`: the word of a mnemonic that takes a tag is its base plus the address.

`HLT` and `DAT` share the base 0. Which of the two a word came from cannot be told; the table names
`HLT` first, so that is how such a word is shown.
-/
import LittleMan.Text.Case
import LittleMan.Word
namespace LittleMan

/-- A mnemonic. -/
inductive Opcode where
  | hlt | dat | add | sub | sto | lda | br | brz | brp | inp | out
deriving DecidableEq, Repr, Inhabited

namespace Opcode

/-- The mnemonics in the order of the table. -/
def all : List Opcode := [hlt, dat, add, sub, sto, lda, br, brz, brp, inp, out]

/-- How a mnemonic is written. -/
def name : Opcode → String
  | hlt => "HLT" | dat => "DAT" | add => "ADD" | sub => "SUB" | sto => "STO" | lda => "LDA"
  | br => "BR" | brz => "BRZ" | brp => "BRP" | inp => "IN" | out => "OUT"

/-- The number that is added to the operand's address. -/
def base : Opcode → Nat
  | hlt => 0 | dat => 0 | add => 100 | sub => 200 | sto => 300 | lda => 500
  | br => 600 | brz => 700 | brp => 800 | inp => 901 | out => 902

/-- The input and output instructions: an operand beside them is ignored. -/
def isTransfer : Opcode → Bool
  | inp | out => true
  | _ => false

/-- The instructions whose operand is a tag. -/
def takesTag : Opcode → Bool
  | add | sub | sto | lda | br | brz | brp => true
  | _ => false

/-- The mnemonic of this exact name. -/
def ofName? (text : String) : Option Opcode := all.find? (·.name == text)

/-- The mnemonic that a text writes, whatever its case. -/
def ofText? (text : String) : Option Opcode := ofName? (Text.upper text)

/-- The first mnemonic of the table with this base. -/
def ofBase? (n : Int) : Option Opcode := all.find? fun o => (o.base : Int) == n

/-- The bases in the order of the table, each with the first mnemonic that has it. -/
def byBase : List (Nat × Opcode) :=
  all.filterMap fun o => if ofBase? o.base = some o then some (o.base, o) else none

/-- The word of an instruction at an address. -/
def encode (o : Opcode) (address : Int) : Int := o.base + address % 100

/-- The word of an instruction that refers to a box. For the mnemonics that take a tag it is the
base plus the address; no base but those of input and output comes near the largest word. -/
def wordAt (o : Opcode) (a : Address) : Word := Word.wrap (o.base + a.val)

theorem base_of_takesTag {o : Opcode} (h : o.takesTag = true) :
    o.base % 100 = 0 ∧ 100 ≤ o.base ∧ o.base ≤ 800 := by
  revert h
  cases o <;> decide

theorem wordAt_val {o : Opcode} (h : o.takesTag = true) (a : Address) :
    (o.wordAt a).val = o.base + a.val := by
  have ha := a.isLt
  have hb := (base_of_takesTag h).2.2
  simp only [wordAt, Word.wrap]
  omega

theorem name_injective {a b : Opcode} (h : a.name = b.name) : a = b := by
  revert h; cases a <;> cases b <;> decide

theorem ofName?_name (o : Opcode) : ofName? o.name = some o := by cases o <;> decide

theorem ofName?_eq_some {text : String} {o : Opcode} : ofName? text = some o ↔ text = o.name := by
  constructor
  · intro h
    exact (by simpa using List.find?_some h : o.name = text).symm
  · rintro rfl
    exact ofName?_name o

end Opcode

end LittleMan
