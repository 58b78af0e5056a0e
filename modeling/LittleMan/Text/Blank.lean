/-
White space and what is cut by it: trimming, fields and the columns they stand in.

* `fields_eq_nil_iff`: a text has no fields exactly when all of it is blank.

A blank is a space, a separator of the Unicode character database, or one of the control characters
that separate lines, paragraphs and records.
-/
namespace LittleMan.Text

/-- White space, in every script. -/
def isBlank (c : Char) : Bool :=
  let n := c.toNat
  (0x09 ≤ n && n ≤ 0x0D) || (0x1C ≤ n && n ≤ 0x20) || n == 0x85 || n == 0xA0 || n == 0x1680 ||
    (0x2000 ≤ n && n ≤ 0x200A) || n == 0x2028 || n == 0x2029 || n == 0x202F || n == 0x205F ||
    n == 0x3000

/-- Drops the blanks in front. -/
def trimStart (cs : List Char) : List Char := cs.dropWhile isBlank

/-- Drops the characters at the end that satisfy `p`. -/
def dropEndWhile (p : Char → Bool) (cs : List Char) : List Char :=
  (cs.reverse.dropWhile p).reverse

/-- Drops the blanks at the end. -/
def trimEnd (cs : List Char) : List Char := dropEndWhile isBlank cs

/-- Drops the blanks on both sides. -/
def trim (cs : List Char) : List Char := trimEnd (trimStart cs)

/-- A run of characters without a blank, and the column of its first character, counted from 1. -/
structure Field where
  text : String
  column : Nat
deriving DecidableEq, Repr, Inhabited

theorem length_dropWhile_le {α : Type} (p : α → Bool) (l : List α) :
    (l.dropWhile p).length ≤ l.length :=
  (List.dropWhile_suffix p).length_le

/-- The fields of a text whose first character stands in the given column. -/
def fieldsFrom (column : Nat) : List Char → List Field
  | [] => []
  | c :: rest =>
    if isBlank c then fieldsFrom (column + 1) rest
    else
      let word := c :: rest.takeWhile (!isBlank ·)
      ⟨String.ofList word, column⟩ ::
        fieldsFrom (column + word.length) (rest.dropWhile (!isBlank ·))
termination_by cs => cs.length
decreasing_by
  · simp
  · exact Nat.lt_succ_of_le (length_dropWhile_le _ rest)

/-- The fields of a text, in order. -/
def fields (cs : List Char) : List Field := fieldsFrom 1 cs

theorem fieldsFrom_eq_nil_iff {column : Nat} {cs : List Char} :
    fieldsFrom column cs = [] ↔ cs.all isBlank = true := by
  induction cs generalizing column with
  | nil => simp [fieldsFrom]
  | cons c rest ih =>
    rw [fieldsFrom]
    by_cases h : isBlank c = true
    · simp [h, ih]
    · simp [h]

theorem fields_eq_nil_iff {cs : List Char} : fields cs = [] ↔ cs.all isBlank = true :=
  fieldsFrom_eq_nil_iff

/-- The pieces between the occurrences of a separator; one more piece than separators. -/
def splitOn (sep : Char) : List Char → List (List Char)
  | [] => [[]]
  | c :: rest =>
    if c = sep then [] :: splitOn sep rest
    else match splitOn sep rest with
      | [] => [[c]]
      | piece :: pieces => (c :: piece) :: pieces

end LittleMan.Text
