/-
Words and addresses of the machine, and the arithmetic of its accumulator.

* `Address.wrap`: every integer names a box, modulo 100;
* `normalize_eq`: the accumulator keeps a result modulo 1000 and remembers whether it was negative.
-/
namespace LittleMan

/-- What a box holds: a number from 0 to 999. -/
abbrev Word := Fin 1000

/-- The number of a box: 0 to 99. -/
abbrev Address := Fin 100

/-- The box that an integer names; the numbers go round. -/
def Address.wrap (a : Int) : Address := ⟨(a % 100).toNat, by omega⟩

/-- Whether an integer fits into a box. -/
def isWord (v : Int) : Bool := 0 ≤ v && v ≤ 999

/-- The word that an integer is, if it fits into a box. -/
def Word.ofInt? (v : Int) : Option Word :=
  if h : 0 ≤ v ∧ v ≤ 999 then some ⟨v.toNat, by omega⟩ else none

/-- The word that a number leaves when it goes round. -/
def Word.wrap (n : Nat) : Word := ⟨n % 1000, Nat.mod_lt n (by decide)⟩

/-- An instruction word as its hundreds and the rest. -/
def splitWord (w : Int) : Int × Int := (w / 100, w % 100)

/-- Adds thousands until the value is not negative. -/
def liftNegative (v : Int) : Int :=
  if v < 0 then liftNegative (v + 1000) else v
termination_by (-v).toNat

/-- An arithmetic result as the accumulator keeps it, and whether it went below zero. -/
def normalize (v : Int) : Int × Bool :=
  if v < 0 then (liftNegative v, true) else (v % 1000, false)

theorem Address.wrap_val (a : Int) : ((Address.wrap a).val : Int) = a % 100 := by
  simp only [Address.wrap]; omega

theorem Address.wrap_eq_wrap_iff {a b : Int} :
    Address.wrap a = Address.wrap b ↔ a % 100 = b % 100 := by
  rw [Fin.ext_iff, ← Int.natCast_inj, Address.wrap_val, Address.wrap_val]

theorem Address.wrap_coe (a : Address) : Address.wrap (a.val : Int) = a := by
  apply Fin.ext
  have := Address.wrap_val (a.val : Int)
  omega

theorem isWord_iff {v : Int} : isWord v = true ↔ 0 ≤ v ∧ v ≤ 999 := by
  simp [isWord]

theorem isWord_eq_false_iff {v : Int} : isWord v = false ↔ v < 0 ∨ 999 < v := by
  rw [Bool.eq_false_iff, Ne, isWord_iff]
  omega

theorem Word.isSome_ofInt? (v : Int) : (Word.ofInt? v).isSome = isWord v := by
  by_cases h : 0 ≤ v ∧ v ≤ 999
  · simp [Word.ofInt?, isWord, h]
  · simp only [Word.ofInt?, isWord, h, dite_false, Option.isSome_none]
    exact (Bool.eq_false_iff.2 fun hv => h (by simpa using hv)).symm

theorem Word.wrap_val {n : Nat} (h : n ≤ 999) : (Word.wrap n).val = n :=
  Nat.mod_eq_of_lt (Nat.lt_succ_of_le h)

theorem Word.wrap_coe (w : Word) : Word.wrap w.val = w :=
  Fin.ext (Nat.mod_eq_of_lt w.isLt)

theorem liftNegative_of_neg {v : Int} (h : v < 0) : liftNegative v = v % 1000 := by
  rw [liftNegative, if_pos h]
  by_cases h' : v + 1000 < 0
  · rw [liftNegative_of_neg h']; omega
  · rw [liftNegative, if_neg h']; omega
termination_by (-v).toNat

theorem normalize_eq (v : Int) : normalize v = (v % 1000, decide (v < 0)) := by
  by_cases h : v < 0 <;> simp [normalize, h, liftNegative_of_neg]

end LittleMan
