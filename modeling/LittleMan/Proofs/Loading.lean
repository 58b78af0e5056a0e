/-
Loading words into consecutive boxes.

The boxes are counted on from a start, and behind box 99 comes box 0. Up to a hundred words never
meet on their way round, wherever they start, so none is put over another.

* `Memory.Overwritten`: what memory holds once values stand in the boxes from a start on;
* `Memory.Overwritten.cons`: a word is written first, and the others stand behind it;
* `Memory.exists_writeAll_append`: words in front of a list are written before the rest of it;
* `Memory.exists_load_of_words`, `Memory.exists_load_of_not_isWord`: loading words, and values that
  are not all words;
* `load_exact`: which boxes loading changes, to what, and what stops it.
-/
import LittleMan.Proofs.Machine
namespace LittleMan

namespace Memory

/-- Memory once values stand in the boxes from `start` on, and all other boxes are as before. -/
structure Overwritten (before : Memory) (start : Int) (values : List Int) (after : Memory) :
    Prop where
  written : ∀ (i : Nat) (v : Int), values[i]? = some v →
    ∀ a : Address, (a.val : Int) = (start + i) % 100 → ((after.get a).val : Int) = v
  kept : ∀ a : Address, (∀ i < values.length, (a.val : Int) ≠ (start + i) % 100) →
    after.get a = before.get a

section Writing

variable {m after : Memory} {start v : Int} {values : List Int}

theorem write_of_not_isWord (m : Memory) (a : Int) (h : isWord v = false) :
    m.write a v = .error (.outOfRange v) := by
  have hv : ¬(0 ≤ v ∧ v ≤ 999) := by
    rw [← isWord_iff, h]
    exact Bool.false_ne_true
  rw [write, Word.ofInt?, dif_neg hv]

theorem overwritten_nil (m : Memory) (start : Int) : m.Overwritten start [] m := by
  refine ⟨?_, ?_⟩
  · intro i v hv
    exact absurd hv (by simp)
  · intro a _
    rfl

/-- A word is written first, and the others behind it, if they do not come round to its box. -/
theorem Overwritten.cons {w : Word} (hroom : values.length < 100)
    (h : (m.set (Address.wrap start) w).Overwritten (start + 1) values after) :
    m.Overwritten start (w.val :: values) after := by
  have hstart := Address.wrap_val start
  refine ⟨?_, ?_⟩
  · intro i v hv a ha
    cases i with
    | zero =>
      have hbox : Address.wrap start = a := by
        apply Fin.ext
        omega
      -- the last of the others is fewer than a hundred boxes away
      have hkept : after.get a = (m.set (Address.wrap start) w).get a := by
        apply h.kept
        intro i hi
        omega
      rw [hkept, get_set, if_pos hbox]
      exact Option.some_inj.mp hv
    | succ i =>
      apply h.written i v hv
      omega
  · intro a ha
    have hbox : Address.wrap start ≠ a := by
      have hfirst := ha 0 (by simp)
      rintro rfl
      omega
    have hkept : after.get a = (m.set (Address.wrap start) w).get a := by
      apply h.kept
      intro i hi
      have hnext := ha (i + 1) (by simpa using hi)
      omega
    rw [hkept, get_set, if_neg hbox]

/-- Words in front of a list are written, and the rest of the list is written behind them. -/
theorem exists_writeAll_append (m : Memory) (start : Int) {front : List Int}
    (hroom : front.length ≤ 100) (hwords : ∀ v ∈ front, isWord v = true) :
    ∃ after, m.Overwritten start front after ∧
      ∀ rest, m.writeAll start (front ++ rest) = after.writeAll (start + front.length) rest := by
  induction front generalizing m start with
  | nil =>
    refine ⟨m, overwritten_nil m start, fun rest => ?_⟩
    rw [List.nil_append, List.length_nil, Int.natCast_zero, Int.add_zero]
  | cons v front ih =>
    rw [List.length_cons] at hroom
    obtain ⟨hv, hfront⟩ := List.forall_mem_cons.mp hwords
    obtain ⟨w, rfl, hwrite⟩ := Machine.write_of_isWord m start hv
    obtain ⟨after, hafter, hrest⟩ := ih (m.set (Address.wrap start) w) (start + 1) (by omega) hfront
    refine ⟨after, hafter.cons (by omega), fun rest => ?_⟩
    have hbehind : start + 1 + (front.length : Int) = start + ((front.length + 1 : Nat) : Int) := by
      omega
    rw [List.cons_append, List.length_cons, ← hbehind, ← hrest rest, writeAll, hwrite]

/-- A list of words that fits into memory is loaded. -/
theorem exists_load_of_words (m : Memory) (start : Int) (hroom : values.length ≤ 100)
    (hwords : ∀ v ∈ values, isWord v = true) :
    ∃ after, m.load start values = (.ok (), after) ∧ m.Overwritten start values after := by
  obtain ⟨after, hafter, hrest⟩ := exists_writeAll_append m start hroom hwords
  refine ⟨after, ?_, hafter⟩
  have hall := hrest []
  rw [List.append_nil] at hall
  rw [load, if_neg (Nat.not_lt.mpr hroom), hall, writeAll]

/-- The first value that is no word stops the loading of a list that would fit into memory. -/
theorem exists_load_of_not_isWord (m : Memory) (start : Int) {front back : List Int}
    (hroom : (front ++ v :: back).length ≤ 100) (hwords : ∀ u ∈ front, isWord u = true)
    (hv : isWord v = false) :
    ∃ after, m.load start (front ++ v :: back) = (.error (.outOfRange v), after) ∧
      m.Overwritten start front after := by
  have hfront : front.length ≤ 100 := by
    rw [List.length_append] at hroom
    omega
  obtain ⟨after, hafter, hrest⟩ := exists_writeAll_append m start hfront hwords
  refine ⟨after, ?_, hafter⟩
  rw [load, if_neg (Nat.not_lt.mpr hroom), hrest, writeAll, write_of_not_isWord after _ hv]

end Writing

end Memory

/-- Loading at most a hundred words puts them into the boxes from the start on, the numbers of the
boxes going round, and changes no other box. More than a hundred values are refused, and no box
changes. Among up to a hundred values the first that is no word stops the loading: just the words in
front of it have been put into their boxes. -/
theorem load_exact (m : Memory) (start : Int) (values : List Int) :
    (values.length ≤ 100 → (∀ v ∈ values, 0 ≤ v ∧ v ≤ 999) →
      ∃ after, m.load start values = (.ok (), after) ∧ m.Overwritten start values after) ∧
    (100 < values.length → m.load start values = (.error (.tooMany values.length), m)) ∧
    (values.length ≤ 100 → ∀ (k : Nat) (v : Int), values[k]? = some v → ¬(0 ≤ v ∧ v ≤ 999) →
      (∀ u ∈ values.take k, 0 ≤ u ∧ u ≤ 999) →
      ∃ after, m.load start values = (.error (.outOfRange v), after) ∧
        m.Overwritten start (values.take k) after) := by
  refine ⟨fun hroom hwords => ?_, fun hmany => if_pos hmany, fun hroom k v hv hbad hwords => ?_⟩
  · exact m.exists_load_of_words start hroom fun v hv => isWord_iff.mpr (hwords v hv)
  · obtain ⟨hk, hget⟩ := List.getElem?_eq_some_iff.mp hv
    have hsplit : values = values.take k ++ v :: values.drop (k + 1) := by
      rw [← hget, ← List.drop_eq_getElem_cons hk, List.take_append_drop]
    have hno : isWord v = false := by
      rw [Bool.eq_false_iff, Ne, isWord_iff]
      exact hbad
    rw [hsplit] at hroom
    obtain ⟨after, hload, hafter⟩ :=
      m.exists_load_of_not_isWord start hroom (fun u hu => isWord_iff.mpr (hwords u hu)) hno
    exact ⟨after, by rw [hsplit]; exact hload, hafter⟩

/-- A memory with a hundred different words. -/
def numberedBoxes : Memory := .ofWords ((List.range 100).map fun n => Word.wrap (n + 1))

/-- Words on both sides of the end of memory, too many values, and a value that is no word. -/
theorem load_exact_past_end :
    (∃ after, numberedBoxes.load (-2) [5, 6, 7] = (.ok (), after) ∧
      numberedBoxes.Overwritten (-2) [5, 6, 7] after ∧
      [97, 98, 99, 0, 1].map after.read = [98, 5, 6, 7, 2]) ∧
    numberedBoxes.load 3 (List.replicate 101 (-1)) = (.error (.tooMany 101), numberedBoxes) ∧
    ∃ after, numberedBoxes.load 199 [5, 6, 1000, 7] = (.error (.outOfRange 1000), after) ∧
      numberedBoxes.Overwritten 199 [5, 6] after ∧
      [98, 99, 0, 1].map after.read = [99, 5, 6, 2] := by
  obtain ⟨after, hload, hafter⟩ := (load_exact numberedBoxes (-2) [5, 6, 7]).1 (by decide) (by decide)
  obtain ⟨stopped, hstop, hstopped⟩ := (load_exact numberedBoxes 199 [5, 6, 1000, 7]).2.2
    (by decide) 2 1000 rfl (by decide) (by decide)
  have hmany : 100 < (List.replicate 101 (-1 : Int)).length := by
    rw [List.length_replicate]
    omega
  refine ⟨⟨after, hload, hafter, ?_⟩, (load_exact numberedBoxes 3 _).2.1 hmany,
    stopped, hstop, hstopped, ?_⟩
  · obtain rfl : (numberedBoxes.load (-2) [5, 6, 7]).2 = after := congrArg Prod.snd hload
    decide +kernel
  · obtain rfl : (numberedBoxes.load 199 [5, 6, 1000, 7]).2 = stopped := congrArg Prod.snd hstop
    decide +kernel

end LittleMan
