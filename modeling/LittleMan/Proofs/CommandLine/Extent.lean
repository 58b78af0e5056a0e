/-
How far the polynomial test goes, whatever is asked for.

Numbers come from the environment, where one that is too small counts as none and one that is too
large is cut down, and from options, where both are refused. As they were read, they can be written.

* `Settings.inBounds_ofEnvironment`: the settings are within their bounds in every environment;
* `declared_of_scan`, `contains_of_readNumbers`: a number that was accepted lies within the bounds
  of its option and has a text;
* `inBounds_apply`: so the test goes to the same lengths at most, with options or without.
-/
import LittleMan.CommandLine.Action
import LittleMan.Proofs.Assembly
import LittleMan.Proofs.Text.Decimal
namespace LittleMan

open Text

/-! ### Settings -/

/-- Settings as the tools rely on them. -/
structure Settings.InBounds (s : Settings) : Prop where
  coefficients : 1 ≤ s.coefficients ∧ s.coefficients ≤ 1000
  arguments : 1 ≤ s.arguments ∧ s.arguments ≤ 1000
  workers : 1 ≤ s.workers ∧ HasText s.workers
  maxSteps : ∀ n ∈ s.maxSteps, 1 ≤ n
  testMaxSteps : HasText s.testMaxSteps

namespace Settings

theorem one_le_of_number? {env : Environment} {name : String} {n : Int}
    (h : number? env name = some n) : 1 ≤ n := by
  have := (Option.filter_eq_some_iff.mp h).2
  rw [decide_eq_true_eq] at this
  omega

theorem hasText_of_number? {env : Environment} {name : String} {n : Int}
    (h : number? env name = some n) : HasText n := by
  obtain ⟨_, -, hread⟩ := Option.bind_eq_some_iff.mp (Option.filter_eq_some_iff.mp h).1
  exact hasText_of_readInteger? hread

/-- A number from the environment, cut down to a bound, or the one that stands for none. -/
theorem bounded_number? (env : Environment) (name : String) {standard bound : Int}
    (hstandard : 1 ≤ standard ∧ standard ≤ bound) :
    1 ≤ ((number? env name).map (min · bound)).getD standard ∧
      ((number? env name).map (min · bound)).getD standard ≤ bound := by
  cases h : number? env name with
  | none => exact hstandard
  | some n =>
    have := one_le_of_number? h
    rw [Option.map_some, Option.getD_some]
    omega

theorem inBounds_ofEnvironment (env : Environment) : (ofEnvironment env).InBounds where
  coefficients := bounded_number? env _ (by decide)
  arguments := bounded_number? env _ (by decide)
  workers := by
    change 1 ≤ (number? env "LMC_POLYNOMIAL_WORKERS").getD 4 ∧
      HasText ((number? env "LMC_POLYNOMIAL_WORKERS").getD 4)
    cases h : number? env "LMC_POLYNOMIAL_WORKERS" with
    | none => exact ⟨by decide, hasText_of_natAbs_lt (by decide)⟩
    | some n => exact ⟨one_le_of_number? h, hasText_of_number? h⟩
  maxSteps n hn := one_le_of_number? hn
  testMaxSteps := by
    change HasText 10000
    exact hasText_of_lt_pow (k := 5) (by decide) (by decide)

end Settings

namespace CommandLine

/-! ### Options -/

/-- Every number that was found belongs to an option of these forms. -/
def Scan.Declared (forms : List OptionForm) (s : Scan) : Prop :=
  ∀ n ∈ s.numbers, .number n.1 n.2.1 ∈ forms

section Scans

variable {forms : List OptionForm} {s : Scan}

theorem Scan.Declared.addNumber {name : String} {bounds : Bounds} (h : s.Declared forms)
    (hform : .number name bounds ∈ forms) (text : String) :
    (s.addNumber name bounds text).Declared forms := by
  intro n hn
  rcases List.mem_cons.mp hn with rfl | hn
  · exact hform
  · exact h n hn

theorem Scan.Declared.addSwitches (h : s.Declared forms) (names : List String) :
    (names.foldr Scan.addSwitch s).Declared forms := by
  induction names with
  | nil => exact h
  | cons name names ih => exact ih

theorem declared_of_scan {mixed : Bool} {words : List String}
    (h : scan forms mixed words = .ok s) : s.Declared forms := by
  fun_induction scan forms mixed words generalizing s with
  | case1 =>
    obtain rfl := Except.ok.inj h
    simp [Scan.Declared]
  | case2 =>
    obtain rfl := Except.ok.inj h
    simp [Scan.Declared]
  | case3 _ _ _ _ _ ih =>
    obtain ⟨r, hr, rfl⟩ := exists_of_map_eq_ok h
    exact (ih hr : r.Declared forms)
  | case4 =>
    obtain rfl := Except.ok.inj h
    simp [Scan.Declared]
  | case6 _ _ _ _ _ _ _ _ _ _ _ ih =>
    obtain ⟨r, hr, rfl⟩ := exists_of_map_eq_ok h
    exact (ih hr : r.Declared forms)
  | case7 _ _ _ _ _ _ hfind text _ _ ih =>
    obtain ⟨r, hr, rfl⟩ := exists_of_map_eq_ok h
    exact (ih hr).addNumber (List.mem_of_find?_eq_some hfind) text
  | case8 _ _ _ _ _ _ hfind text _ _ ih =>
    obtain ⟨r, hr, rfl⟩ := exists_of_map_eq_ok h
    exact (ih hr).addNumber (List.mem_of_find?_eq_some hfind) text
  | case12 _ _ _ _ _ _ _ _ _ names _ ih =>
    obtain ⟨r, hr, rfl⟩ := exists_of_map_eq_ok h
    exact (ih hr).addSwitches names
  -- the other words are refused
  | _ => exact absurd h (by simp)

theorem Bounds.contains_eq_true_iff {b : Bounds} {v : Int} :
    b.contains v = true ↔ b.least ≤ v ∧ ∀ greatest ∈ b.greatest, v ≤ greatest := by
  cases h : b.greatest <;> simp [Bounds.contains, h]

theorem Bounds.hasText_of_read {b : Bounds} {text : String} {v : Int} (h : b.read text = .ok v) :
    HasText v := by
  rw [read] at h
  split at h
  · exact absurd h (by simp)
  · next w hw =>
    split at h
    · exact Except.ok.inj h ▸ hasText_of_readInteger? hw
    · exact absurd h (by simp)

/-- An accepted number lies within the bounds of its option, and has a text. -/
theorem contains_of_readNumbers {numbers : List (String × Int)} (hs : s.Declared forms)
    (h : s.readNumbers = .ok numbers) {name : String} {v : Int}
    (hv : numbers.lookup name = some v) :
    (∃ bounds, .number name bounds ∈ forms ∧ bounds.contains v = true) ∧ HasText v := by
  obtain ⟨i, hi⟩ := List.mem_iff_getElem?.mp (mem_of_lookup_eq_some hv)
  obtain ⟨other, -, hread⟩ := exists_getElem?_of_forall₂ (mapM_eq_ok_iff.mp h).flip hi
  split at hread
  · exact absurd hread (by simp)
  · next bounds text hlookup =>
    split at hread
    · next w hw =>
      obtain ⟨rfl, rfl⟩ := Prod.mk.inj (Except.ok.inj hread)
      exact ⟨⟨bounds, hs _ (List.mem_reverse.mp (mem_of_lookup_eq_some hlookup)),
        Bounds.contains_of_read hw⟩, Bounds.hasText_of_read hw⟩
    · exact absurd hread (by simp)

end Scans

/-! ### What is asked of the test -/

/-- An extent that can be asked for. -/
structure TestExtent.InBounds (e : TestExtent) : Prop where
  coefficients : ∀ n ∈ e.coefficients, 1 ≤ n ∧ n ≤ 1000
  arguments : ∀ n ∈ e.arguments, 1 ≤ n ∧ n ≤ 1000
  workers : ∀ n ∈ e.workers, 1 ≤ n ∧ HasText n

theorem inBounds_of_read {files : Directory} {words : List String} {name : String}
    {source : Option String} {extent : TestExtent}
    (h : Command.test.read files words = .ok (some (.test name source extent))) :
    extent.InBounds := by
  obtain ⟨found, hscan, h⟩ := bind_eq_ok_iff.mp h
  split at h
  · exact absurd h (by simp [pure, Except.pure])
  obtain ⟨numbers, hnumbers, h⟩ := bind_eq_ok_iff.mp h
  obtain ⟨arguments, -, h⟩ := bind_eq_ok_iff.mp h
  simp only [pure, Except.pure, Except.ok.injEq, Option.some.injEq, Command.request,
    Request.test.injEq] at h
  obtain ⟨-, -, rfl⟩ := h
  have hoption := fun {name : String} {v : Int} (hv : numbers.lookup name = some v) =>
    contains_of_readNumbers (declared_of_scan hscan) hnumbers hv
  refine ⟨fun n hn => ?_, fun n hn => ?_, fun n hn => ?_⟩
  · obtain ⟨⟨bounds, hform, hn⟩, -⟩ := hoption hn
    obtain rfl : bounds = .thousand := by simpa [Command.options, helpSwitch] using hform
    simpa [Bounds.contains_eq_true_iff, Bounds.thousand] using hn
  · obtain ⟨⟨bounds, hform, hn⟩, -⟩ := hoption hn
    obtain rfl : bounds = .thousand := by simpa [Command.options, helpSwitch] using hform
    simpa [Bounds.contains_eq_true_iff, Bounds.thousand] using hn
  · obtain ⟨⟨bounds, hform, hn⟩, htext⟩ := hoption hn
    obtain rfl : bounds = .positive := by simpa [Command.options, helpSwitch] using hform
    exact ⟨by simpa [Bounds.contains_eq_true_iff, Bounds.positive] using hn, htext⟩

/-- The settings with what was asked for. -/
theorem inBounds_apply {e : TestExtent} {s : Settings} (he : e.InBounds) (hs : s.InBounds) :
    (e.apply s).InBounds where
  coefficients := by
    change 1 ≤ e.coefficients.getD s.coefficients ∧ e.coefficients.getD s.coefficients ≤ 1000
    cases h : e.coefficients with
    | none => exact hs.coefficients
    | some n => exact he.coefficients n h
  arguments := by
    change 1 ≤ e.arguments.getD s.arguments ∧ e.arguments.getD s.arguments ≤ 1000
    cases h : e.arguments with
    | none => exact hs.arguments
    | some n => exact he.arguments n h
  workers := by
    change 1 ≤ e.workers.getD s.workers ∧ HasText (e.workers.getD s.workers)
    cases h : e.workers with
    | none => exact hs.workers
    | some n => exact he.workers n h
  maxSteps := hs.maxSteps
  testMaxSteps := hs.testMaxSteps

end CommandLine

end LittleMan
