/-
The combinations of the polynomial test.

Which there are, and in which order they are tried, is said without the loops that try them: how
often a combination stands in a list, and what stands at a place of it.

* `Covers`: a combination stands in the list as often as its coefficients and its argument stand in
  theirs, multiplied; `Covers.perm` says that there is one such list, up to order;
* `Enumerates`: the argument changes most slowly, then the first coefficient, the third most
  quickly; `Enumerates.unique` says that there is one such list;
* `covers_combinations`, `enumerates_combinations`: the loops of the test make this list.
-/
import LittleMan.Grading.Polynomial
import Mathlib.Algebra.Ring.Nat
import Mathlib.Data.List.Count
import Mathlib.Tactic.Ring
namespace LittleMan

/-! ### Lists of lists -/

section Blocks

variable {α β : Type} {f : α → List β} {l : List α}

/-- What comes from one element only, comes as often as this element does. -/
theorem count_flatMap_of_notMem [DecidableEq α] [DecidableEq β] {a : α} {q : β}
    (h : ∀ b, b ≠ a → q ∉ f b) (l : List α) :
    (l.flatMap f).count q = l.count a * (f a).count q := by
  induction l with
  | nil => rw [List.flatMap_nil, List.count_nil, List.count_nil, Nat.zero_mul]
  | cons b l ih =>
    rw [List.flatMap_cons, List.count_append, ih]
    by_cases hb : b = a
    · rw [hb, List.count_cons_self, Nat.succ_mul, Nat.add_comm]
    · rw [List.count_eq_zero_of_not_mem (h b hb), List.count_cons_of_ne hb, Nat.zero_add]

theorem length_flatMap_of_length {k : Nat} (h : ∀ a, (f a).length = k) (l : List α) :
    (l.flatMap f).length = l.length * k := by
  induction l with
  | nil => rw [List.flatMap_nil, List.length_nil, List.length_nil, Nat.zero_mul]
  | cons a l ih => rw [List.flatMap_cons, List.length_append, h, ih, List.length_cons, Nat.succ_mul,
      Nat.add_comm]

/-- The place of an element in blocks of one length. -/
theorem getElem?_flatMap_of_length {k : Nat} (h : ∀ a, (f a).length = k) {i j : Nat} {a : α}
    (hi : l[i]? = some a) (hj : j < k) : (l.flatMap f)[i * k + j]? = (f a)[j]? := by
  induction l generalizing i with
  | nil => exact absurd hi (by simp)
  | cons b l ih =>
    rw [List.flatMap_cons]
    cases i with
    | zero =>
      obtain rfl : b = a := by simpa using hi
      rw [Nat.zero_mul, Nat.zero_add, List.getElem?_append_left (by rw [h]; exact hj)]
    | succ i =>
      rw [List.getElem?_cons_succ] at hi
      rw [List.getElem?_append_right (by rw [h, Nat.succ_mul]; omega), h, ← ih hi]
      congr 1
      rw [Nat.succ_mul]
      omega

theorem place_lt {i j k n : Nat} (hi : i < n) (hj : j < k) : i * k + j < n * k :=
  calc i * k + j < i * k + k := Nat.add_lt_add_left hj _
    _ = (i + 1) * k := (Nat.succ_mul i k).symm
    _ ≤ n * k := Nat.mul_le_mul_right k hi

end Blocks

/-! ### How often, and where -/

variable {coefficients arguments : List Int} {qs rs : List Combination}

/-- A combination stands in the list as often as its parts stand in theirs, multiplied. -/
def Covers (coefficients arguments : List Int) (qs : List Combination) : Prop :=
  ∀ a b c x, qs.count ⟨a, b, c, x⟩ =
    coefficients.count a * coefficients.count b * coefficients.count c * arguments.count x

theorem Covers.perm (hq : Covers coefficients arguments qs) (hr : Covers coefficients arguments rs) :
    qs.Perm rs :=
  List.perm_iff_count.mpr fun q => (hq q.a q.b q.c q.x).trans (hr q.a q.b q.c q.x).symm

/-- The combinations stand in the list in the order in which four loops come to them, one within the
other: over the arguments, and over the first, the second and the third coefficient. -/
structure Enumerates (coefficients arguments : List Int) (qs : List Combination) : Prop where
  length : qs.length = coefficients.length ^ 3 * arguments.length
  entry : ∀ {i j k l : Nat} {x a b c : Int}, arguments[i]? = some x → coefficients[j]? = some a →
    coefficients[k]? = some b → coefficients[l]? = some c →
    qs[((i * coefficients.length + j) * coefficients.length + k) * coefficients.length + l]? =
      some ⟨a, b, c, x⟩

/-- Every place in the list is that of some combination. -/
theorem exists_place {n m p : Nat} (hp : p < n ^ 3 * m) :
    ∃ i j k l, i < m ∧ j < n ∧ k < n ∧ l < n ∧ p = ((i * n + j) * n + k) * n + l := by
  have hn : 0 < n := by
    refine Nat.pos_of_ne_zero fun h => ?_
    rw [h, Nat.zero_pow (by decide), Nat.zero_mul] at hp
    exact absurd hp (Nat.not_lt_zero p)
  refine ⟨p / n / n / n, p / n / n % n, p / n % n, p % n, ?_, Nat.mod_lt _ hn, Nat.mod_lt _ hn,
    Nat.mod_lt _ hn, ?_⟩
  · rw [Nat.div_lt_iff_lt_mul hn, Nat.div_lt_iff_lt_mul hn, Nat.div_lt_iff_lt_mul hn]
    calc p < n ^ 3 * m := hp
      _ = m * n * n * n := by ring
  · rw [Nat.div_add_mod', Nat.div_add_mod', Nat.div_add_mod']

theorem Enumerates.unique (hq : Enumerates coefficients arguments qs)
    (hr : Enumerates coefficients arguments rs) : qs = rs := by
  refine List.ext_getElem? fun p => ?_
  by_cases hp : p < coefficients.length ^ 3 * arguments.length
  · obtain ⟨i, j, k, l, hi, hj, hk, hl, rfl⟩ := exists_place hp
    have hx := List.getElem?_eq_getElem hi
    have ha := List.getElem?_eq_getElem hj
    have hb := List.getElem?_eq_getElem hk
    have hc := List.getElem?_eq_getElem hl
    rw [hq.entry hx ha hb hc, hr.entry hx ha hb hc]
  · have hp := Nat.le_of_not_lt hp
    rw [List.getElem?_eq_none (hq.length.trans_le hp), List.getElem?_eq_none (hr.length.trans_le hp)]

/-! ### The loops of the test -/

/-- All combinations, argument by argument. -/
def combinations (coefficients arguments : List Int) : List Combination :=
  arguments.flatMap (combinationsAt coefficients)

theorem length_combinationsAt (coefficients : List Int) (x : Int) :
    (combinationsAt coefficients x).length =
      coefficients.length * (coefficients.length * coefficients.length) :=
  length_flatMap_of_length (fun _ => length_flatMap_of_length (fun _ => List.length_map _) _) _

theorem length_combinations (coefficients arguments : List Int) :
    (combinations coefficients arguments).length = coefficients.length ^ 3 * arguments.length := by
  rw [combinations, length_flatMap_of_length (length_combinationsAt coefficients)]
  ring

theorem mem_combinations {q : Combination} :
    q ∈ combinations coefficients arguments ↔
      (q.a ∈ coefficients ∧ q.b ∈ coefficients ∧ q.c ∈ coefficients) ∧ q.x ∈ arguments := by
  obtain ⟨a, b, c, x⟩ := q
  simp only [combinations, combinationsAt, List.mem_flatMap, List.mem_map, Combination.mk.injEq]
  constructor
  · rintro ⟨x', hx, a', ha, b', hb, c', hc, rfl, rfl, rfl, rfl⟩
    exact ⟨⟨ha, hb, hc⟩, hx⟩
  · rintro ⟨⟨ha, hb, hc⟩, hx⟩
    exact ⟨x, hx, a, ha, b, hb, c, hc, rfl, rfl, rfl, rfl⟩

theorem covers_combinations (coefficients arguments : List Int) :
    Covers coefficients arguments (combinations coefficients arguments) := by
  intro a b c x
  -- each loop contributes a factor: a combination comes from one value of its variable only
  have hthird : (coefficients.map fun c => (⟨a, b, c, x⟩ : Combination)).count ⟨a, b, c, x⟩ =
      coefficients.count c :=
    List.count_map_of_injective _ _ (fun _ _ h => (Combination.mk.inj h).2.2.1) c
  have hsecond : (coefficients.flatMap fun b => coefficients.map fun c =>
      (⟨a, b, c, x⟩ : Combination)).count ⟨a, b, c, x⟩ =
        coefficients.count b * coefficients.count c := by
    rw [count_flatMap_of_notMem (a := b) (fun b' hb => by simp [hb]), hthird]
  have hfirst : (combinationsAt coefficients x).count ⟨a, b, c, x⟩ =
      coefficients.count a * (coefficients.count b * coefficients.count c) := by
    rw [combinationsAt, count_flatMap_of_notMem (a := a) (fun a' ha => by simp [ha]), hsecond]
  rw [combinations, count_flatMap_of_notMem (a := x) (fun x' hx => by simp [combinationsAt, hx]),
    hfirst]
  ring

theorem enumerates_combinations (coefficients arguments : List Int) :
    Enumerates coefficients arguments (combinations coefficients arguments) where
  length := length_combinations coefficients arguments
  entry {i j k l x a b c} hx ha hb hc := by
    have hl := (List.getElem?_eq_some_iff.mp hc).1
    have hk := (List.getElem?_eq_some_iff.mp hb).1
    have hj := (List.getElem?_eq_some_iff.mp ha).1
    have hinner := place_lt hk hl
    have hslice := place_lt hj hinner
    have hplace : ((i * coefficients.length + j) * coefficients.length + k) * coefficients.length +
        l = i * (coefficients.length * (coefficients.length * coefficients.length)) +
          (j * (coefficients.length * coefficients.length) + (k * coefficients.length + l)) := by
      ring
    rw [hplace, combinations, getElem?_flatMap_of_length (length_combinationsAt coefficients) hx
      hslice, combinationsAt, getElem?_flatMap_of_length
        (fun _ => length_flatMap_of_length (fun _ => List.length_map _) _) ha hinner,
      getElem?_flatMap_of_length (fun _ => List.length_map _) hb hl, List.getElem?_map, hc]
    rfl

end LittleMan
