/-
Decimal numerals: printing them, padded or not, and reading them back.

* `readNumeral`, `written`: a numeral is read and a number is written only up to so many digits;
* `isNumeral_digits`, `value_digits`: reading the digits of a number gives the number.

Only the ten ASCII digits count here, and a numeral of more than `maxNumeralLength` digits is
refused whatever its value. The same goes for numbers that are to be put into a text.
-/
namespace LittleMan.Text

/-- The character of a digit below ten. -/
def digitChar (d : Nat) : Char := Char.ofNat (48 + d)

/-- The decimal digits of a number, the highest first. -/
def digits (n : Nat) : List Char :=
  if n < 10 then [digitChar n] else digits (n / 10) ++ [digitChar (n % 10)]

/-- One of the ten ASCII digits. -/
def isDigit (c : Char) : Bool := '0' ≤ c && c ≤ '9'

/-- The number that a run of digits writes. -/
def digitsValue (cs : List Char) : Nat := cs.foldl (fun n c => 10 * n + (c.toNat - 48)) 0

/-- A non-empty run of ASCII digits. -/
def isNumeral (cs : List Char) : Bool := !cs.isEmpty && cs.all isDigit

/-- The longest numeral that is read. -/
def maxNumeralLength : Nat := 4300

/-- A numeral of too many digits. -/
structure NumeralTooLong where
  length : Nat
deriving DecidableEq, Repr

def NumeralTooLong.message (e : NumeralTooLong) : String :=
  "Exceeds the limit (4300 digits) for integer string conversion: value has " ++
    toString e.length ++ " digits; use sys.set_int_max_str_digits() to increase the limit"

/-- The value of a run of digits that is not too long. -/
def readNumeral (cs : List Char) : Except NumeralTooLong Nat :=
  if cs.length > maxNumeralLength then .error ⟨cs.length⟩ else .ok (digitsValue cs)

/-- Fills a text with zeros in front, up to a width. -/
def zeroFill (width : Nat) (cs : List Char) : List Char :=
  List.replicate (width - cs.length) '0' ++ cs

/-- A number with at least `width` characters, zeros in front; the sign takes one of them. -/
def padded (width : Nat) (n : Int) : String :=
  let ds := digits n.natAbs
  String.ofList (if n < 0 then '-' :: zeroFill (width - 1) ds else zeroFill width ds)

/-- A number of too many digits to be written. -/
structure NumberTooLong where
deriving DecidableEq, Repr

def NumberTooLong.message (_ : NumberTooLong) : String :=
  "Exceeds the limit (4300 digits) for integer string conversion; " ++
    "use sys.set_int_max_str_digits() to increase the limit"

/-- A number has a text if it has not too many digits. The sign does not count. -/
def HasText (n : Int) : Prop := n.natAbs < Nat.pow 10 maxNumeralLength

-- not to be unfolded but by the kernel: it compares with a number of thousands of digits
@[irreducible]
instance decidableHasText (n : Int) : Decidable (HasText n) :=
  inferInstanceAs (Decidable (n.natAbs < Nat.pow 10 maxNumeralLength))

/-- A number in some form of writing, if it has a text at all. -/
def written (form : Int → String) (n : Int) : Except NumberTooLong String :=
  if HasText n then .ok (form n) else .error {}

theorem written_of_hasText {form : Int → String} {n : Int} (h : HasText n) :
    written form n = .ok (form n) := if_pos h

theorem written_of_not_hasText {form : Int → String} {n : Int} (h : ¬HasText n) :
    written form n = .error {} := if_neg h

theorem hasText_of_lt_pow {n : Int} {k : Nat} (h : n.natAbs < Nat.pow 10 k)
    (hk : k ≤ maxNumeralLength) : HasText n := by
  have hle : Nat.pow 10 k ≤ Nat.pow 10 maxNumeralLength := by
    rw [Nat.pow_eq, Nat.pow_eq]
    exact Nat.pow_le_pow_right (by decide) hk
  exact Nat.lt_of_lt_of_le h hle

/-- Numbers of up to three digits have a text. -/
theorem hasText_of_natAbs_lt {n : Int} (h : n.natAbs < 1000) : HasText n :=
  hasText_of_lt_pow (k := 3) h (by decide)

theorem toNat_digitChar {d : Nat} (h : d < 10) : (digitChar d).toNat = 48 + d := by
  have : ∀ d : Fin 10, (digitChar d).toNat = 48 + d := by decide
  exact this ⟨d, h⟩

theorem isDigit_digitChar {d : Nat} (h : d < 10) : isDigit (digitChar d) = true := by
  have : ∀ d : Fin 10, isDigit (digitChar d) = true := by decide
  exact this ⟨d, h⟩

theorem digitsValue_append_singleton (cs : List Char) (c : Char) :
    digitsValue (cs ++ [c]) = 10 * digitsValue cs + (c.toNat - 48) := by
  simp [digitsValue]

theorem value_digits (n : Nat) : digitsValue (digits n) = n := by
  induction n using Nat.strongRecOn with
  | ind n ih =>
    rw [digits]
    split
    · next h => simp [digitsValue, toNat_digitChar h]
    · next h =>
      rw [digitsValue_append_singleton, ih (n / 10) (by omega),
        toNat_digitChar (Nat.mod_lt n (by omega))]
      omega

theorem isNumeral_digits (n : Nat) : isNumeral (digits n) = true := by
  induction n using Nat.strongRecOn with
  | ind n ih =>
    rw [digits]
    split
    · next h => simp [isNumeral, isDigit_digitChar h]
    · next h =>
      have := ih (n / 10) (by omega)
      simp only [isNumeral, Bool.and_eq_true] at this ⊢
      exact ⟨by simp, by simp [this.2, isDigit_digitChar (Nat.mod_lt n (by omega : 10 > 0))]⟩

end LittleMan.Text
