/-
Numerals as positional notation, and what is printed with zeros in front.

* `digitsValue_eq_decimal`: the value of a run of digits is that of its digits in base ten;
* `digitsValue_lt`: so few digits make so small a number;
* `isNumeral_padded`, `digitsValue_padded`: a padded number reads as the number;
* `toList_padded_two`: below a hundred, a number with two characters is its two digits;
* `padded_injective`: with its sign it is the text of no other number;
* `toList_toString`, `toList_toString_of_neg`: a number that is written plainly is its digits, with
  a sign in front of them if it is negative;
* `isNumeral_toString_iff`: so it is a numeral if it is not negative;
* `readNumeral_of_le`, `readNumeral_of_lt`: a numeral is read if it is not too long;
* `hasText_of_readNumeral`, `hasText_of_readInteger?`: a number that was read has a text;
* `mapM_written`: numbers are written if all of them have a text.
-/
import LittleMan.Proofs.Text.Fields
import LittleMan.Text.Integer
import Mathlib.Data.Nat.Digits.Defs
namespace LittleMan.Text

/-- The number that digits write in base ten. -/
def decimal (cs : List Char) : Nat := Nat.ofDigits 10 (cs.reverse.map fun c => c.toNat - 48)

theorem digitsValue_eq_decimal (cs : List Char) : digitsValue cs = decimal cs := by
  induction cs using List.reverseRecOn with
  | nil => rfl
  | append_singleton cs c ih =>
    rw [digitsValue_append_singleton, ih, decimal, decimal, List.reverse_append, List.map_append,
      List.reverse_singleton, List.map_singleton, List.singleton_append, Nat.ofDigits_cons]
    omega

theorem toNat_of_isDigit {c : Char} (h : isDigit c = true) : 48 ≤ c.toNat ∧ c.toNat ≤ 57 := by
  rw [isDigit, Bool.and_eq_true, decide_eq_true_eq, decide_eq_true_eq] at h
  exact ⟨h.1, h.2⟩

theorem digitsValue_lt {cs : List Char} (h : ∀ c ∈ cs, isDigit c = true) :
    digitsValue cs < 10 ^ cs.length := by
  induction cs using List.reverseRecOn with
  | nil => exact Nat.one_pos
  | append_singleton cs c ih =>
    have hc := toNat_of_isDigit (h c (by simp))
    have hcs := ih fun d hd => h d (List.mem_append_left _ hd)
    rw [digitsValue_append_singleton, List.length_append, List.length_singleton, Nat.pow_succ]
    omega

theorem isDigit_of_isNumeral {cs : List Char} (h : isNumeral cs = true) :
    ∀ c ∈ cs, isDigit c = true := by
  rw [isNumeral, Bool.and_eq_true, List.all_eq_true] at h
  exact h.2

/-- Of numerals of one length no two have the same value. -/
theorem eq_of_digitsValue_eq {cs ds : List Char} (hc : ∀ c ∈ cs, isDigit c = true)
    (hd : ∀ d ∈ ds, isDigit d = true) (hlen : cs.length = ds.length)
    (h : digitsValue cs = digitsValue ds) : cs = ds := by
  induction cs using List.reverseRecOn generalizing ds with
  | nil => exact (List.eq_nil_of_length_eq_zero hlen.symm).symm
  | append_singleton cs c ih =>
    rcases List.eq_nil_or_concat ds with rfl | ⟨ds, d, rfl⟩
    · exact absurd hlen (by simp)
    · rw [List.concat_eq_append] at hd hlen h ⊢
      rw [digitsValue_append_singleton, digitsValue_append_singleton] at h
      have hlast := toNat_of_isDigit (hc c (by simp))
      have hlast' := toNat_of_isDigit (hd d (by simp))
      -- the last digits agree modulo ten, and so does what stands before them
      have hcd : c = d := Char.toNat_inj.mp (by omega)
      have hcs : cs = ds := ih (fun c hm => hc c (List.mem_append_left _ hm))
        (fun d hm => hd d (List.mem_append_left _ hm)) (by simpa using hlen) (by omega)
      rw [hcs, hcd]

theorem isBlank_of_isDigit {c : Char} (h : isDigit c = true) : isBlank c = false := by
  have hc := toNat_of_isDigit h
  refine Bool.eq_false_iff.mpr fun hb => ?_
  simp only [isBlank, Bool.or_eq_true, Bool.and_eq_true, decide_eq_true_eq, beq_iff_eq] at hb
  omega

/-- A numeral is a word without a comment sign. -/
theorem isWord_of_isNumeral {cs : List Char} (h : isNumeral cs = true) :
    IsWord cs ∧ '#' ∉ cs := by
  rw [isNumeral, Bool.and_eq_true, List.all_eq_true, Bool.not_eq_true',
    List.isEmpty_eq_false_iff] at h
  refine ⟨⟨h.1, fun c hc => isBlank_of_isDigit (h.2 c hc)⟩, fun hm => ?_⟩
  exact absurd (h.2 '#' hm) (by decide)

/-! ### Zeros in front -/

theorem digitsValue_zeroFill (width : Nat) (cs : List Char) :
    digitsValue (zeroFill width cs) = digitsValue cs := by
  have hz : ∀ n : Nat, List.foldl (fun n c => 10 * n + (Char.toNat c - 48)) 0
      (List.replicate n '0') = 0 := by
    intro n
    induction n with
    | zero => rfl
    | succ n ih => rw [List.replicate_succ, List.foldl_cons]; exact ih
  rw [digitsValue, zeroFill, List.foldl_append, hz, digitsValue]

theorem isNumeral_zeroFill {cs : List Char} (h : isNumeral cs = true) (width : Nat) :
    isNumeral (zeroFill width cs) = true := by
  rw [isNumeral, Bool.and_eq_true] at h ⊢
  obtain ⟨hne, hall⟩ := h
  refine ⟨?_, ?_⟩
  · rw [zeroFill]
    cases cs with
    | nil => simp at hne
    | cons c cs => simp
  · rw [zeroFill, List.all_append, hall, Bool.and_true, List.all_replicate]
    simp [show isDigit '0' = true from by decide]

theorem toList_padded (width n : Nat) :
    (padded width (n : Int)).toList = zeroFill width (digits n) := by
  rw [padded, String.toList_ofList, if_neg (by omega), Int.natAbs_natCast]

theorem toList_padded_neg {v : Int} (h : v < 0) (width : Nat) :
    (padded width v).toList = '-' :: zeroFill (width - 1) (digits v.natAbs) := by
  rw [padded, String.toList_ofList, if_pos h]

theorem toList_padded_two {n : Nat} (h : n < 100) :
    (padded 2 (n : Int)).toList = [digitChar (n / 10), digitChar (n % 10)] := by
  rw [toList_padded, digits]
  by_cases hsmall : n < 10
  · rw [if_pos hsmall, Nat.div_eq_of_lt hsmall, Nat.mod_eq_of_lt hsmall]
    rfl
  · have htens : n / 10 < 10 := by omega
    rw [if_neg hsmall, digits, if_pos htens]
    rfl

theorem isNumeral_padded (width n : Nat) :
    isNumeral (padded width (n : Int)).toList = true := by
  rw [toList_padded]
  exact isNumeral_zeroFill (isNumeral_digits n) width

theorem digitsValue_padded (width n : Nat) :
    digitsValue (padded width (n : Int)).toList = n := by
  rw [toList_padded, digitsValue_zeroFill, value_digits]

/-- A padded number is made of digits, but for its sign. -/
theorem forall_mem_padded {width : Nat} {v : Int} :
    ∀ c ∈ (padded width v).toList, c = '-' ∨ isDigit c = true := by
  have hdigits : ∀ width n : Nat, ∀ c ∈ zeroFill width (digits n), isDigit c = true :=
    fun width n => isDigit_of_isNumeral (isNumeral_zeroFill (isNumeral_digits n) width)
  rcases lt_or_ge v 0 with h | h
  · rw [toList_padded_neg h]
    exact List.forall_mem_cons.mpr ⟨.inl rfl, fun c hc => .inr (hdigits _ _ c hc)⟩
  · obtain ⟨n, rfl⟩ := Int.eq_ofNat_of_zero_le h
    rw [toList_padded]
    exact fun c hc => .inr (hdigits _ _ c hc)

/-- No two numbers are padded to the same text. -/
theorem padded_injective (width : Nat) : Function.Injective (padded width) := by
  have hsign : ∀ {v : Int} (n : Nat), v < 0 → padded width v ≠ padded width n := by
    intro v n hv h
    have hminus : '-' ∈ (padded width (n : Int)).toList := by
      rw [← h, toList_padded_neg hv]
      exact List.mem_cons_self
    exact absurd (isDigit_of_isNumeral (isNumeral_padded width n) '-' hminus) (by decide)
  intro v w h
  rcases lt_or_ge v 0 with hv | hv <;> rcases lt_or_ge w 0 with hw | hw
  · rw [← String.toList_inj, toList_padded_neg hv, toList_padded_neg hw] at h
    have habs := congrArg digitsValue (List.cons.inj h).2
    rw [digitsValue_zeroFill, digitsValue_zeroFill, value_digits, value_digits] at habs
    omega
  · obtain ⟨n, rfl⟩ := Int.eq_ofNat_of_zero_le hw
    exact absurd h (hsign n hv)
  · obtain ⟨n, rfl⟩ := Int.eq_ofNat_of_zero_le hv
    exact absurd h.symm (hsign n hw)
  · obtain ⟨n, rfl⟩ := Int.eq_ofNat_of_zero_le hv
    obtain ⟨k, rfl⟩ := Int.eq_ofNat_of_zero_le hw
    have hvalue : digitsValue (padded width (n : Int)).toList = digitsValue (padded width k).toList :=
      congrArg (fun s => digitsValue s.toList) h
    rw [digitsValue_padded, digitsValue_padded] at hvalue
    rw [hvalue]

theorem length_digits_le {n k : Nat} (hk : 0 < k) (h : n < 10 ^ k) : (digits n).length ≤ k := by
  induction k generalizing n with
  | zero => omega
  | succ k ih =>
    rw [digits]
    split
    · exact Nat.succ_le_succ (Nat.zero_le k)
    · next hn =>
      rcases Nat.eq_zero_or_pos k with rfl | hk'
      · omega
      · have := ih hk' (n := n / 10) (by rw [Nat.pow_succ] at h; omega)
        rw [List.length_append, List.length_singleton]
        omega

/-- A number that fits takes just the width it is padded to. -/
theorem length_padded {width n : Nat} (hw : 0 < width) (h : n < 10 ^ width) :
    (padded width (n : Int)).toList.length = width := by
  have := length_digits_le hw h
  rw [toList_padded, zeroFill, List.length_append, List.length_replicate]
  omega

/-! ### Without zeros in front -/

theorem digits_eq_toDigits (n : Nat) : digits n = Nat.toDigits 10 n := by
  induction n using Nat.strongRecOn with
  | ind n ih =>
    have hchar : ∀ d : Fin 10, digitChar d = Nat.digitChar d := by decide
    rw [digits]
    split
    · next h => rw [Nat.toDigits_of_lt_base h, hchar ⟨n, h⟩]
    · next h =>
      have hlast := hchar ⟨n % 10, Nat.mod_lt n (by decide)⟩
      have hsplit : Nat.toDigits 10 n = Nat.toDigits 10 (n / 10) ++ [Nat.digitChar (n % 10)] :=
        Nat.toDigits_of_base_le (by decide) (by omega)
      rw [ih (n / 10) (by omega), hlast, hsplit]

theorem toList_toString_natCast (n : Nat) : (toString n).toList = digits n := by
  rw [digits_eq_toDigits, ← Nat.toList_repr, Nat.toString_eq_repr]

/-- A number is written with its digits. -/
theorem toList_toString {v : Int} (h : 0 ≤ v) : (toString v).toList = digits v.toNat := by
  obtain ⟨n, rfl⟩ := Int.eq_ofNat_of_zero_le h
  exact toList_toString_natCast n

section Plain

variable {v : Int} (h : 0 ≤ v)
include h

theorem isNumeral_toString : isNumeral (toString v).toList = true := by
  rw [toList_toString h]
  exact isNumeral_digits v.toNat

theorem isDigit_of_mem_toString : ∀ c ∈ (toString v).toList, isDigit c = true :=
  isDigit_of_isNumeral (isNumeral_toString h)

theorem decimal_toString : (decimal (toString v).toList : Int) = v := by
  rw [toList_toString h, ← digitsValue_eq_decimal, value_digits, Int.toNat_of_nonneg h]

theorem trim_toString : trim (toString v).toList = (toString v).toList :=
  trim_of_isWord (isWord_of_isNumeral (isNumeral_toString h)).1

end Plain

/-- A negative number is written with its sign in front of its digits. -/
theorem toList_toString_of_neg {v : Int} (h : v < 0) :
    (toString v).toList = '-' :: digits v.natAbs := by
  obtain ⟨n, rfl⟩ := Int.eq_negSucc_of_lt_zero h
  have hsign : toString (Int.negSucc n) = "-" ++ toString (n + 1) := rfl
  rw [hsign, String.toList_append, toList_toString_natCast, Int.natAbs_negSucc]
  rfl

/-- A number is written as one word, and without a comment sign. -/
theorem isWord_toString (v : Int) :
    IsWord (toString v).toList ∧ '#' ∉ (toString v).toList := by
  rcases lt_or_ge v 0 with h | h
  · obtain ⟨hdigits, hsign⟩ := isWord_of_isNumeral (isNumeral_digits v.natAbs)
    rw [toList_toString_of_neg h]
    refine ⟨⟨by simp, ?_⟩, ?_⟩
    · exact List.forall_mem_cons.mpr ⟨by decide, hdigits.2⟩
    · rw [List.mem_cons, not_or]
      exact ⟨by decide, hsign⟩
  · exact isWord_of_isNumeral (isNumeral_toString h)

theorem isNumeral_toString_iff {v : Int} : isNumeral (toString v).toList = true ↔ 0 ≤ v := by
  refine ⟨fun hnumeral => ?_, isNumeral_toString⟩
  by_contra h
  rw [toList_toString_of_neg (Int.not_le.mp h)] at hnumeral
  exact absurd (isDigit_of_isNumeral hnumeral '-' List.mem_cons_self) (by decide)

/-! ### Numerals that are too long -/

theorem readNumeral_of_le {cs : List Char} (h : cs.length ≤ maxNumeralLength) :
    readNumeral cs = .ok (decimal cs) := by
  rw [readNumeral, if_neg (Nat.not_lt.mpr h), digitsValue_eq_decimal]

theorem readNumeral_of_lt {cs : List Char} (h : maxNumeralLength < cs.length) :
    readNumeral cs = .error ⟨cs.length⟩ := if_pos h

/-- A numeral of one digit too many. -/
def tooManyOnes : String := String.ofList (List.replicate 4301 '1')

theorem toList_tooManyOnes : tooManyOnes.toList = List.replicate 4301 '1' := String.toList_ofList

theorem length_tooManyOnes : tooManyOnes.toList.length = 4301 := by
  rw [toList_tooManyOnes, List.length_replicate]

theorem isNumeral_tooManyOnes : isNumeral tooManyOnes.toList = true := by
  rw [toList_tooManyOnes, isNumeral, Bool.and_eq_true, List.all_replicate]
  simp [isDigit]

/-! ### Numbers that are written -/

theorem hasText_of_digits {ds : List Char} (hdigits : ∀ d ∈ ds, isDigit d = true)
    (hlen : ds.length ≤ maxNumeralLength) : HasText (digitsValue ds) :=
  hasText_of_lt_pow (digitsValue_lt hdigits) hlen

/-- What is read can be written. -/
theorem hasText_of_readNumeral {cs : List Char} {n : Nat} (hcs : isNumeral cs = true)
    (h : readNumeral cs = .ok n) : HasText n := by
  rw [readNumeral] at h
  split at h
  · exact absurd h (by simp)
  · next hlen =>
    rw [← Except.ok.inj h]
    exact hasText_of_digits (isDigit_of_isNumeral hcs) (Nat.le_of_not_lt hlen)

theorem isDigit_of_ungroup {cs ds : List Char} (h : ungroup cs = some ds) :
    ∀ d ∈ ds, isDigit d = true := by
  fun_induction ungroup cs generalizing ds with
  | case1 => exact absurd h (by simp)
  | case2 c hc =>
    obtain rfl := Option.some.inj h
    exact List.forall_mem_singleton.mpr hc
  | case4 c rest hc ih =>
    obtain ⟨es, hes, rfl⟩ := Option.map_eq_some_iff.mp h
    exact List.forall_mem_cons.mpr ⟨hc, ih hes⟩
  | case6 c rest _ _ hc ih =>
    obtain ⟨es, hes, rfl⟩ := Option.map_eq_some_iff.mp h
    exact List.forall_mem_cons.mpr ⟨hc, ih hes⟩
  -- what is no digit is refused
  | _ => exact absurd h (by simp)

/-- An integer that was read, of any sign, can be written. -/
theorem hasText_of_readInteger? {text : String} {n : Int} (h : readInteger? text = some n) :
    HasText n := by
  rw [readInteger?] at h
  split at h
  split at h
  · exact absurd h (by simp)
  · next ds hds =>
    split at h
    · exact absurd h (by simp)
    · next hlen =>
      have htext := hasText_of_digits (isDigit_of_ungroup hds) (Nat.le_of_not_lt hlen)
      split at h
      · rw [← Option.some.inj h, HasText, Int.natAbs_neg]
        exact htext
      · exact Option.some.inj h ▸ htext

theorem mapM_written (form : Int → String) (values : List Int) :
    values.mapM (written form) =
      if ∀ v ∈ values, HasText v then .ok (values.map form) else .error {} := by
  induction values with
  | nil => rfl
  | cons v values ih =>
    rw [List.mapM_cons, ih]
    by_cases hv : HasText v
    · rw [written_of_hasText hv]
      by_cases hvalues : ∀ v ∈ values, HasText v
      · rw [if_pos hvalues, if_pos (List.forall_mem_cons.mpr ⟨hv, hvalues⟩)]
        rfl
      · rw [if_neg hvalues, if_neg fun h => hvalues (List.forall_mem_cons.mp h).2]
        rfl
    · rw [written_of_not_hasText hv, if_neg fun h => hv (List.forall_mem_cons.mp h).1]
      rfl

/-- The least number without a text. -/
def leastUnwritten : Int := Nat.pow 10 maxNumeralLength

theorem not_hasText_leastUnwritten : ¬HasText leastUnwritten := by
  rw [HasText, leastUnwritten, Int.natAbs_natCast]
  exact Nat.lt_irrefl _

end LittleMan.Text
