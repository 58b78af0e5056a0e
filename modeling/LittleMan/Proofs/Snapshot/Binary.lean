/-
The binary snapshot is exact: every accepted string of bytes is written back byte for byte, and no
machine comes back as another one.

* `IsBinaryForm`: what the bytes at every offset have to be;
* `decodeBinary_eq_ok_iff`: bytes are read if they have the form, as the machine of their numbers;
* `decodeBinary_eq_ok_iff_encodeBinary`: reading is writing turned round, for machines in range;
* `decodeBinary_exact`: all of this together.
-/
import LittleMan.Snapshot.Binary
namespace LittleMan.Snapshot

/-- The number in the two bytes from an offset on, the lower byte first. -/
def numberAt (bytes : List UInt8) (offset : Nat) : Nat :=
  (bytes.getD offset 0).toNat + 256 * (bytes.getD (offset + 1) 0).toNat

/-- The form of a binary snapshot. -/
structure IsBinaryForm (bytes : List UInt8) : Prop where
  length : bytes.length = 205
  flag : bytes[4]? = some 0 ∨ bytes[4]? = some 1
  accumulator : numberAt bytes 0 ≤ 999
  counter : numberAt bytes 2 ≤ 99
  words : ∀ a : Address, numberAt bytes (5 + 2 * a.val) ≤ 999

/-- A register that fits into two bytes. -/
def Fits (v : Int) : Prop := 0 ≤ v ∧ v < 65536

/-! ### Pairs of bytes -/

theorem twoBytes_pair (low high : UInt8) :
    twoBytes (low.toNat + 256 * high.toNat) = [low, high] := by
  have hlow := low.toNat_lt
  have hmod : (low.toNat + 256 * high.toNat) % 256 = low.toNat := by omega
  have hdiv : (low.toNat + 256 * high.toNat) / 256 = high.toNat := by omega
  rw [twoBytes, hmod, hdiv, UInt8.ofNat_toNat, UInt8.ofNat_toNat]

theorem exists_pair_of_twoBytes {n : Nat} (h : n < 65536) :
    ∃ low high : UInt8, twoBytes n = [low, high] ∧ low.toNat + 256 * high.toNat = n := by
  refine ⟨_, _, rfl, ?_⟩
  rw [UInt8.toNat_ofNat', UInt8.toNat_ofNat']
  omega

/-- Where no pair of bytes is left, there is at most one byte. -/
theorem length_lt_two {bytes : List UInt8}
    (h : ∀ (low high : UInt8) (rest : List UInt8), bytes = low :: high :: rest → False) :
    bytes.length < 2 := by
  rcases bytes with _ | ⟨low, _ | ⟨high, rest⟩⟩
  · exact Nat.two_pos
  · exact Nat.one_lt_two
  · exact (h low high rest rfl).elim

theorem flatMap_twoBytes_readPairs {bytes : List UInt8} (h : bytes.length % 2 = 0) :
    (readPairs bytes).flatMap twoBytes = bytes := by
  fun_induction readPairs bytes with
  | case1 low high rest ih =>
    rw [List.length_cons, List.length_cons] at h
    rw [List.flatMap_cons, twoBytes_pair, ih (by omega)]
    rfl
  | case2 bytes hshort =>
    have hlt := length_lt_two hshort
    rw [List.eq_nil_of_length_eq_zero (by omega : bytes.length = 0)]
    rfl

/-- The numbers of consecutive pairs stand at even offsets. -/
theorem readPairs_eq_map (bytes : List UInt8) :
    readPairs bytes = (List.range (bytes.length / 2)).map fun k => numberAt bytes (2 * k) := by
  fun_induction readPairs bytes with
  | case1 low high rest ih =>
    have hlen : (low :: high :: rest).length / 2 = rest.length / 2 + 1 := by
      rw [List.length_cons, List.length_cons]
      omega
    rw [hlen, List.range_succ_eq_map, List.map_cons, List.map_map, ih]
    rfl
  | case2 bytes hshort =>
    rw [Nat.div_eq_of_lt (length_lt_two hshort)]
    rfl

theorem length_readPairs (bytes : List UInt8) : (readPairs bytes).length = bytes.length / 2 := by
  rw [readPairs_eq_map, List.length_map, List.length_range]

theorem readPairs_flatMap_twoBytes {numbers : List Nat} (h : ∀ n ∈ numbers, n < 65536) :
    readPairs (numbers.flatMap twoBytes) = numbers := by
  induction numbers with
  | nil => rfl
  | cons n numbers ih =>
    obtain ⟨hn, hlater⟩ := List.forall_mem_cons.mp h
    obtain ⟨low, high, hpair, hvalue⟩ := exists_pair_of_twoBytes hn
    rw [List.flatMap_cons, hpair, List.cons_append, List.singleton_append, readPairs, hvalue,
      ih hlater]

theorem firstTooLarge_eq_none_iff (box : Nat) {numbers : List Nat} :
    firstTooLarge box numbers = none ↔ ∀ n ∈ numbers, n ≤ 999 := by
  induction numbers generalizing box with
  | nil => simp [firstTooLarge]
  | cons n numbers ih =>
    rw [firstTooLarge, List.forall_mem_cons]
    split
    · next h => exact iff_of_false (by simp) fun hall => absurd hall.1 (by omega)
    · next h =>
      rw [ih]
      exact ⟨fun hall => ⟨by omega, hall⟩, And.right⟩

/-! ### Reading -/

/-- Bytes of the right length, taken apart as they are read. -/
theorem decodeBinary_cons_eq_ok_iff {a0 a1 p0 p1 flag : UInt8} {rest : List UInt8} {m : Machine}
    (hlen : rest.length = 200) :
    decodeBinary (a0 :: a1 :: p0 :: p1 :: flag :: rest) = .ok m ↔
      flag ≤ 1 ∧ a0.toNat + 256 * a1.toNat ≤ 999 ∧ p0.toNat + 256 * p1.toNat ≤ 99 ∧
        (∀ w ∈ readPairs rest, w ≤ 999) ∧
        m = { memory := .ofWords ((readPairs rest).map Word.wrap)
              pc := (p0.toNat + 256 * p1.toNat : Nat)
              accumulator := (a0.toNat + 256 * a1.toNat : Nat), negative := flag == 1 } := by
  rw [decodeBinary]
  dsimp only
  rw [if_neg (by simp [hlen]), ← firstTooLarge_eq_none_iff 0]
  constructor
  · intro h
    split at h
    · exact absurd h (by simp)
    · next hflag =>
      split at h
      · exact absurd h (by simp)
      · next ha =>
        split at h
        · exact absurd h (by simp)
        · next hpc =>
          split at h
          · exact absurd h (by simp)
          · next hwords =>
            exact ⟨UInt8.not_lt.mp hflag, Nat.not_lt.mp ha, Nat.not_lt.mp hpc, hwords,
              (Except.ok.inj h).symm⟩
  · rintro ⟨hflag, ha, hpc, hwords, rfl⟩
    rw [if_neg (UInt8.not_lt.mpr hflag), if_neg (Nat.not_lt.mpr ha), if_neg (Nat.not_lt.mpr hpc),
      hwords]

/-! ### Writing -/

theorem encodeRegister_of_fits {v : Int} (h : Fits v) :
    encodeRegister v = .ok (twoBytes v.toNat) := if_pos h

theorem encodeRegister_of_not_fits {v : Int} (h : ¬Fits v) : encodeRegister v = .error ⟨v⟩ :=
  if_neg h

/-- The words of a memory as numbers. -/
def wordNumbers (m : Memory) : List Nat := m.toList.map Fin.val

theorem length_wordNumbers (m : Memory) : (wordNumbers m).length = 100 := by
  rw [wordNumbers, List.length_map, Memory.length_toList]

theorem le_of_mem_wordNumbers {m : Memory} {n : Nat} (h : n ∈ wordNumbers m) : n ≤ 999 := by
  obtain ⟨w, -, rfl⟩ := List.mem_map.mp h
  exact Nat.le_of_lt_succ w.isLt

theorem ofWords_wordNumbers (m : Memory) : .ofWords ((wordNumbers m).map Word.wrap) = m := by
  refine Memory.toList_injective ?_
  rw [Memory.toList_ofWords (by rw [List.length_map, length_wordNumbers]), wordNumbers,
    List.map_map]
  exact (List.map_congr_left fun w _ => Word.wrap_coe w).trans (List.map_id _)

theorem wordNumbers_ofWords {numbers : List Nat} (hlen : numbers.length = 100)
    (hle : ∀ n ∈ numbers, n ≤ 999) :
    wordNumbers (.ofWords (numbers.map Word.wrap)) = numbers := by
  rw [wordNumbers, Memory.toList_ofWords (by rw [List.length_map, hlen]), List.map_map]
  exact (List.map_congr_left fun n hn => Word.wrap_val (hle n hn)).trans (List.map_id _)

/-- The bytes of a machine. -/
def binaryLayout (m : Machine) : List UInt8 :=
  twoBytes m.accumulator.toNat ++ twoBytes m.pc.toNat ++
    (if m.negative then 1 else 0) :: (wordNumbers m.memory).flatMap twoBytes

/-- A machine is written if its registers fit into two bytes; its words always do. -/
theorem encodeBinary_of_fits {m : Machine} (ha : Fits m.accumulator) (hpc : Fits m.pc) :
    encodeBinary m = .ok (binaryLayout m) := by
  rw [encodeBinary, encodeRegister_of_fits ha, encodeRegister_of_fits hpc, binaryLayout,
    wordNumbers, List.flatMap_map]
  rfl

theorem encodeBinary_of_not_fits {m : Machine} (h : ¬(Fits m.accumulator ∧ Fits m.pc)) :
    ∃ e, encodeBinary m = .error e := by
  by_cases ha : Fits m.accumulator
  · refine ⟨⟨m.pc⟩, ?_⟩
    rw [encodeBinary, encodeRegister_of_fits ha,
      encodeRegister_of_not_fits fun hpc => h ⟨ha, hpc⟩]
    rfl
  · refine ⟨⟨m.accumulator⟩, ?_⟩
    rw [encodeBinary, encodeRegister_of_not_fits ha]
    rfl

theorem fits_of_encodeBinary {m : Machine} {bytes : List UInt8}
    (h : encodeBinary m = .ok bytes) :
    Fits m.accumulator ∧ Fits m.pc ∧ bytes = binaryLayout m := by
  by_cases hfits : Fits m.accumulator ∧ Fits m.pc
  · obtain ⟨ha, hpc⟩ := hfits
    exact ⟨ha, hpc, Except.ok.inj (h.symm.trans (encodeBinary_of_fits ha hpc))⟩
  · obtain ⟨e, he⟩ := encodeBinary_of_not_fits hfits
    exact absurd (h.symm.trans he) (by simp)

theorem fits_of_inRange {m : Machine} (h : m.InRange) : Fits m.accumulator ∧ Fits m.pc := by
  obtain ⟨⟨hpc0, hpc⟩, ha0, ha⟩ := h
  exact ⟨⟨ha0, by omega⟩, hpc0, by omega⟩

theorem length_flatMap_twoBytes (numbers : List Nat) :
    (numbers.flatMap twoBytes).length = 2 * numbers.length := by
  induction numbers with
  | nil => rfl
  | cons n numbers ih =>
    rw [List.flatMap_cons, List.length_append, ih, List.length_cons, twoBytes]
    simp
    omega

theorem length_binaryLayout (m : Machine) : (binaryLayout m).length = 205 := by
  rw [binaryLayout, List.length_append, List.length_append, List.length_cons,
    length_flatMap_twoBytes, length_wordNumbers]
  rfl

/-- A machine in range has a binary form. -/
theorem encodeBinary_of_inRange {m : Machine} (h : m.InRange) :
    ∃ bytes, encodeBinary m = .ok bytes ∧ bytes.length = 205 := by
  obtain ⟨ha, hpc⟩ := fits_of_inRange h
  exact ⟨_, encodeBinary_of_fits ha hpc, length_binaryLayout m⟩

/-! ### Reading what was written -/

/-- The bytes of a machine are read as this machine, unless a register is out of range. -/
theorem decodeBinary_binaryLayout {m n : Machine} (ha : Fits m.accumulator) (hpc : Fits m.pc) :
    decodeBinary (binaryLayout m) = .ok n ↔ m.InRange ∧ n = m := by
  obtain ⟨ha0, ha⟩ := ha
  obtain ⟨hpc0, hpc⟩ := hpc
  obtain ⟨a0, a1, hapair, havalue⟩ := exists_pair_of_twoBytes (n := m.accumulator.toNat) (by omega)
  obtain ⟨p0, p1, hppair, hpvalue⟩ := exists_pair_of_twoBytes (n := m.pc.toNat) (by omega)
  have hlen : ((wordNumbers m.memory).flatMap twoBytes).length = 200 := by
    rw [length_flatMap_twoBytes, length_wordNumbers]
  have hread : readPairs ((wordNumbers m.memory).flatMap twoBytes) = wordNumbers m.memory :=
    readPairs_flatMap_twoBytes fun n hn => by
      have := le_of_mem_wordNumbers hn
      omega
  have hsame : ({ memory := .ofWords ((wordNumbers m.memory).map Word.wrap)
                  pc := (m.pc.toNat : Int), accumulator := (m.accumulator.toNat : Int)
                  negative := (if m.negative then 1 else 0 : UInt8) == 1 } : Machine) = m := by
    have hflag : ((if m.negative then 1 else 0 : UInt8) == 1) = m.negative := by
      cases m.negative <;> rfl
    rw [ofWords_wordNumbers, hflag, Int.toNat_of_nonneg ha0, Int.toNat_of_nonneg hpc0]
  rw [binaryLayout, hapair, hppair]
  simp only [List.cons_append, List.nil_append]
  rw [decodeBinary_cons_eq_ok_iff hlen, hread, havalue, hpvalue, hsame]
  constructor
  · rintro ⟨-, ha, hpc, -, rfl⟩
    exact ⟨⟨⟨hpc0, by omega⟩, ha0, by omega⟩, rfl⟩
  · rintro ⟨⟨⟨-, hpc⟩, -, ha⟩, rfl⟩
    refine ⟨?_, by omega, by omega, fun w => le_of_mem_wordNumbers, rfl⟩
    cases n.negative <;> decide

theorem exists_cons_of_length {bytes : List UInt8} (h : bytes.length = 205) :
    ∃ a0 a1 p0 p1 flag rest, bytes = a0 :: a1 :: p0 :: p1 :: flag :: rest ∧
      rest.length = 200 := by
  rcases bytes with _ | ⟨a0, _ | ⟨a1, _ | ⟨p0, _ | ⟨p1, _ | ⟨flag, rest⟩⟩⟩⟩⟩
  · exact absurd h (by simp)
  · exact absurd h (by simp)
  · exact absurd h (by simp)
  · exact absurd h (by simp)
  · exact absurd h (by simp)
  · exact ⟨a0, a1, p0, p1, flag, rest, rfl, by simpa using h⟩

theorem length_of_decodeBinary {bytes : List UInt8} {m : Machine}
    (h : decodeBinary bytes = .ok m) : bytes.length = 205 := by
  refine Decidable.byContradiction fun hlen => ?_
  rw [decodeBinary.eq_def] at h
  dsimp only at h
  rw [if_pos hlen] at h
  exact absurd h (by simp)

theorem le_one_iff {flag : UInt8} : flag ≤ 1 ↔ flag = 0 ∨ flag = 1 := by
  rw [UInt8.le_iff_toNat_le, ← UInt8.toNat_inj, ← UInt8.toNat_inj]
  show flag.toNat ≤ 1 ↔ flag.toNat = 0 ∨ flag.toNat = 1
  omega

/-- Bytes that are read are those of the machine they are read as. -/
theorem eq_binaryLayout_of_decodeBinary {bytes : List UInt8} {m : Machine}
    (h : decodeBinary bytes = .ok m) : m.InRange ∧ bytes = binaryLayout m := by
  obtain ⟨a0, a1, p0, p1, flag, rest, rfl, hlen⟩ :=
    exists_cons_of_length (length_of_decodeBinary h)
  obtain ⟨hflag, ha, hpc, hwords, rfl⟩ := (decodeBinary_cons_eq_ok_iff hlen).mp h
  refine ⟨?_, ?_⟩
  · rw [Machine.InRange]
    dsimp only
    omega
  have hnumbers := wordNumbers_ofWords (by rw [length_readPairs, hlen]) hwords
  have hbyte : (if (flag == 1) = true then 1 else 0 : UInt8) = flag := by
    rcases le_one_iff.mp hflag with rfl | rfl <;> rfl
  rw [binaryLayout, hnumbers, flatMap_twoBytes_readPairs (by rw [hlen]), Int.toNat_natCast,
    Int.toNat_natCast, twoBytes_pair, twoBytes_pair, hbyte]
  rfl

/-- Reading is writing turned round, for machines in range. -/
theorem decodeBinary_eq_ok_iff_encodeBinary {bytes : List UInt8} {m : Machine} :
    decodeBinary bytes = .ok m ↔ m.InRange ∧ encodeBinary m = .ok bytes := by
  constructor
  · intro h
    obtain ⟨hm, rfl⟩ := eq_binaryLayout_of_decodeBinary h
    obtain ⟨ha, hpc⟩ := fits_of_inRange hm
    exact ⟨hm, encodeBinary_of_fits ha hpc⟩
  · rintro ⟨hm, hbytes⟩
    obtain ⟨ha, hpc, rfl⟩ := fits_of_encodeBinary hbytes
    exact (decodeBinary_binaryLayout ha hpc).mpr ⟨hm, rfl⟩

/-- Whatever bytes describe is in range. -/
theorem inRange_of_decodeBinary {bytes : List UInt8} {m : Machine}
    (h : decodeBinary bytes = .ok m) : m.InRange := (eq_binaryLayout_of_decodeBinary h).1

/-! ### The form of the bytes -/

/-- The machine that bytes describe, number by number. -/
structure Describes (bytes : List UInt8) (m : Machine) : Prop where
  accumulator : m.accumulator = numberAt bytes 0
  counter : m.pc = numberAt bytes 2
  negative : m.negative = (bytes[4]? == some 1)
  words : ∀ a : Address, (m.memory.get a).val = numberAt bytes (5 + 2 * a.val)

theorem Describes.unique {m n : Machine} {bytes : List UInt8} (hm : Describes bytes m)
    (hn : Describes bytes n) : m = n := by
  have hmemory : m.memory = n.memory :=
    Memory.ext_get fun a => Fin.ext ((hm.words a).trans (hn.words a).symm)
  have hpc := hm.counter.trans hn.counter.symm
  have haccumulator := hm.accumulator.trans hn.accumulator.symm
  have hnegative := hm.negative.trans hn.negative.symm
  cases m
  cases n
  simp_all

section Apart

variable {a0 a1 p0 p1 flag : UInt8} {rest : List UInt8}

theorem numberAt_word (k : Nat) :
    numberAt (a0 :: a1 :: p0 :: p1 :: flag :: rest) (5 + k) = numberAt rest k := by
  rw [Nat.add_comm]
  rfl

theorem readPairs_le_iff (hlen : rest.length = 200) :
    (∀ w ∈ readPairs rest, w ≤ 999) ↔ ∀ a : Address, numberAt rest (2 * a.val) ≤ 999 := by
  rw [readPairs_eq_map, hlen]
  constructor
  · intro h a
    exact h _ (List.mem_map.mpr ⟨a.val, List.mem_range.mpr a.isLt, rfl⟩)
  · intro h w hw
    obtain ⟨k, hk, rfl⟩ := List.mem_map.mp hw
    exact h ⟨k, List.mem_range.mp hk⟩

theorem isBinaryForm_cons_iff (hlen : rest.length = 200) :
    IsBinaryForm (a0 :: a1 :: p0 :: p1 :: flag :: rest) ↔
      flag ≤ 1 ∧ a0.toNat + 256 * a1.toNat ≤ 999 ∧ p0.toNat + 256 * p1.toNat ≤ 99 ∧
        ∀ w ∈ readPairs rest, w ≤ 999 := by
  rw [readPairs_le_iff hlen, le_one_iff]
  constructor
  · rintro ⟨-, hflag, ha, hpc, hwords⟩
    exact ⟨by simpa using hflag, ha, hpc, fun a => numberAt_word (2 * a.val) ▸ hwords a⟩
  · rintro ⟨hflag, ha, hpc, hwords⟩
    exact ⟨by simpa using hlen, by simpa using hflag, ha, hpc,
      fun a => (numberAt_word (2 * a.val)).symm ▸ hwords a⟩

theorem describes_cons (hlen : rest.length = 200) (hwords : ∀ w ∈ readPairs rest, w ≤ 999) :
    Describes (a0 :: a1 :: p0 :: p1 :: flag :: rest)
      { memory := .ofWords ((readPairs rest).map Word.wrap)
        pc := (p0.toNat + 256 * p1.toNat : Nat)
        accumulator := (a0.toNat + 256 * a1.toNat : Nat), negative := flag == 1 } where
  accumulator := rfl
  counter := rfl
  negative := by simp
  words a := by
    have hget : (readPairs rest)[a.val]? = some (numberAt rest (2 * a.val)) := by
      rw [readPairs_eq_map, hlen, List.getElem?_map, List.getElem?_range a.isLt, Option.map_some]
    rw [Memory.get_ofWords, List.getElem?_map, hget, Option.map_some, Option.getD_some,
      Word.wrap_val ((readPairs_le_iff hlen).mp hwords a), numberAt_word]

end Apart

/-- Bytes are read if they have the form, and then as the machine of the numbers that stand
there. -/
theorem decodeBinary_eq_ok_iff {bytes : List UInt8} {m : Machine} :
    decodeBinary bytes = .ok m ↔ IsBinaryForm bytes ∧ Describes bytes m := by
  by_cases hlength : bytes.length = 205
  · obtain ⟨a0, a1, p0, p1, flag, rest, rfl, hlen⟩ := exists_cons_of_length hlength
    rw [decodeBinary_cons_eq_ok_iff hlen, isBinaryForm_cons_iff hlen]
    constructor
    · rintro ⟨hflag, ha, hpc, hwords, rfl⟩
      exact ⟨⟨hflag, ha, hpc, hwords⟩, describes_cons hlen hwords⟩
    · rintro ⟨⟨hflag, ha, hpc, hwords⟩, hm⟩
      exact ⟨hflag, ha, hpc, hwords, hm.unique (describes_cons hlen hwords)⟩
  · constructor
    · intro h
      exact absurd (length_of_decodeBinary h) hlength
    · rintro ⟨hform, -⟩
      exact absurd hform.length hlength

theorem exists_machine_of_isBinaryForm {bytes : List UInt8} (h : IsBinaryForm bytes) :
    ∃ m, Describes bytes m := by
  obtain ⟨a0, a1, p0, p1, flag, rest, rfl, hlen⟩ := exists_cons_of_length h.length
  obtain ⟨-, -, -, hwords⟩ := (isBinaryForm_cons_iff hlen).mp h
  exact ⟨_, describes_cons hlen hwords⟩

/-- The binary snapshot is exact: its form is accepted and nothing else, with the numbers that stand
there; accepted bytes are written back byte for byte; and a machine in range is read as it was
written, while one out of range is not written, or else not read. -/
theorem decodeBinary_exact :
    (∀ (bytes : List UInt8) (m : Machine),
      decodeBinary bytes = .ok m ↔ IsBinaryForm bytes ∧ Describes bytes m) ∧
    (∀ bytes : List UInt8, (∃ e, decodeBinary bytes = .error e) ↔ ¬IsBinaryForm bytes) ∧
    (∀ (bytes : List UInt8) (m : Machine),
      decodeBinary bytes = .ok m → encodeBinary m = .ok bytes) ∧
    ∀ m : Machine,
      (m.InRange → ∃ bytes, encodeBinary m = .ok bytes ∧ decodeBinary bytes = .ok m) ∧
      ((∃ e, encodeBinary m = .error e) ↔ ¬(Fits m.accumulator ∧ Fits m.pc)) ∧
      (¬m.InRange → ∀ bytes, encodeBinary m = .ok bytes → ∃ e, decodeBinary bytes = .error e) := by
  refine ⟨fun bytes m => decodeBinary_eq_ok_iff, fun bytes => ?_,
    fun bytes m h => (decodeBinary_eq_ok_iff_encodeBinary.mp h).2, fun m => ⟨fun hm => ?_, ?_, ?_⟩⟩
  · cases hb : decodeBinary bytes with
    | error e =>
      refine iff_of_true ⟨e, rfl⟩ fun hform => ?_
      obtain ⟨m, hm⟩ := exists_machine_of_isBinaryForm hform
      exact absurd (hb.symm.trans (decodeBinary_eq_ok_iff.mpr ⟨hform, hm⟩)) (by simp)
    | ok m =>
      exact iff_of_false (by simp) fun hno => hno (decodeBinary_eq_ok_iff.mp hb).1
  · obtain ⟨bytes, hbytes, -⟩ := encodeBinary_of_inRange hm
    exact ⟨bytes, hbytes, decodeBinary_eq_ok_iff_encodeBinary.mpr ⟨hm, hbytes⟩⟩
  · refine ⟨?_, encodeBinary_of_not_fits⟩
    rintro ⟨e, he⟩ ⟨ha, hpc⟩
    exact absurd (he.symm.trans (encodeBinary_of_fits ha hpc)) (by simp)
  · intro hm bytes hbytes
    obtain ⟨ha, hpc, rfl⟩ := fits_of_encodeBinary hbytes
    cases hb : decodeBinary (binaryLayout m) with
    | error e => exact ⟨e, rfl⟩
    | ok n => exact absurd ((decodeBinary_binaryLayout ha hpc).mp hb).1 hm

/-- Registers as large as they may be, and an accumulator that can be written but not read. -/
theorem decodeBinary_at_last_word :
    (∃ bytes, encodeBinary { pc := 99, accumulator := 999, negative := true } = .ok bytes ∧
      decodeBinary bytes = .ok { pc := 99, accumulator := 999, negative := true }) ∧
    ∃ bytes e, encodeBinary { accumulator := 1000 } = .ok bytes ∧
      decodeBinary bytes = .error e := by
  obtain ⟨-, -, hback, hthere⟩ := decodeBinary_exact
  obtain ⟨bytes, -, hread⟩ := (hthere { pc := 99, accumulator := 999, negative := true }).1
    (by decide)
  have hlarge := encodeBinary_of_fits (m := { accumulator := 1000 })
    ⟨by decide, by decide⟩ ⟨by decide, by decide⟩
  obtain ⟨e, he⟩ := (hthere { accumulator := 1000 }).2.2 (by decide) _ hlarge
  exact ⟨⟨bytes, hback _ _ hread, hread⟩, _, e, hlarge, he⟩

end LittleMan.Snapshot
