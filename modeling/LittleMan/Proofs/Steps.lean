/-
Steps counted one by one.

`repeated` does the same thing a number of times, as long as it succeeds; steps of the machine are
repeated like that here, and command lines of the debugger elsewhere.

* `FirstAt`: how often something is done until a property holds for the first time;
* `advance_eq_exhausted_iff`: a run is still going after `n` steps if all of them succeed and the
  last one leaves the machine going;
* `advance_later`: how many steps were counted before has no part in a run.
-/
import LittleMan.Proofs.Run
namespace LittleMan

/-! ### Repetition -/

section Repeated

variable {α δ : Type}

/-- Does the same thing a number of times, as long as it succeeds. -/
def repeated (act : α → Except δ Unit × α) : Nat → α → Except δ Unit × α
  | 0, a => (.ok (), a)
  | n + 1, a => match act a with
    | (.ok (), next) => repeated act n next
    | (.error e, next) => (.error e, next)

variable {act : α → Except δ Unit × α} {n : Nat} {a c : α}

theorem repeated_zero_iff : repeated act 0 a = (.ok (), c) ↔ a = c := by
  simp [repeated]

/-- The first of several times. -/
theorem repeated_succ_iff :
    repeated act (n + 1) a = (.ok (), c) ↔
      ∃ r, act a = (.ok (), r) ∧ repeated act n r = (.ok (), c) := by
  rw [repeated]
  rcases act a with ⟨e | _, r⟩ <;> simp

/-- The last of several times. -/
theorem repeated_succ_iff_last :
    repeated act (n + 1) a = (.ok (), c) ↔
      ∃ r, repeated act n a = (.ok (), r) ∧ act r = (.ok (), c) := by
  induction n generalizing a with
  | zero =>
    simp only [repeated_succ_iff, repeated_zero_iff]
    exact ⟨fun ⟨r, hr, hc⟩ => ⟨a, rfl, hc ▸ hr⟩, fun ⟨r, hr, hc⟩ => ⟨c, hr ▸ hc, rfl⟩⟩
  | succ n ih =>
    rw [repeated_succ_iff]
    constructor
    · rintro ⟨r, hr, h⟩
      obtain ⟨q, hq, hlast⟩ := ih.mp h
      exact ⟨q, repeated_succ_iff.mpr ⟨r, hr, hq⟩, hlast⟩
    · rintro ⟨q, hq, hlast⟩
      obtain ⟨r, hr, h⟩ := repeated_succ_iff.mp hq
      exact ⟨r, hr, ih.mpr ⟨q, h, hlast⟩⟩

/-- What can be done a number of times can be done less often. -/
theorem exists_repeated_of_le {k : Nat} (hk : k ≤ n) (h : repeated act n a = (.ok (), c)) :
    ∃ r, repeated act k a = (.ok (), r) := by
  induction n generalizing c with
  | zero => exact ⟨c, by rwa [Nat.le_zero.mp hk]⟩
  | succ n ih =>
    rcases Nat.lt_or_eq_of_le hk with hlt | rfl
    · obtain ⟨r, hr, _⟩ := repeated_succ_iff_last.mp h
      exact ih (Nat.le_of_lt_succ hlt) hr
    · exact ⟨c, h⟩

/-- What each time keeps is kept. -/
theorem repeated_keeps {p : α → Prop} (hp : ∀ r t, p r → act r = (.ok (), t) → p t) (ha : p a)
    (h : repeated act n a = (.ok (), c)) : p c := by
  induction n generalizing a with
  | zero => exact repeated_zero_iff.mp h ▸ ha
  | succ n ih =>
    obtain ⟨r, hr, hn⟩ := repeated_succ_iff.mp h
    exact ih (hp a r ha hr) hn

/-- What one repetition does, another one does alike, if it does so each time. -/
theorem repeated_along {β δ' : Type} {act' : β → Except δ' Unit × β} {R : α → β → Prop}
    (hR : ∀ {r q t}, R r q → act r = (.ok (), t) → ∃ u, act' q = (.ok (), u) ∧ R t u)
    {d : β} (ha : R a d) (h : repeated act n a = (.ok (), c)) :
    ∃ e, repeated act' n d = (.ok (), e) ∧ R c e := by
  induction n generalizing a d with
  | zero => exact ⟨d, rfl, repeated_zero_iff.mp h ▸ ha⟩
  | succ n ih =>
    obtain ⟨r, hr, hn⟩ := repeated_succ_iff.mp h
    obtain ⟨q, hq, hrq⟩ := hR ha hr
    obtain ⟨e, he, hce⟩ := ih hrq hn
    exact ⟨e, repeated_succ_iff.mpr ⟨q, hq, he⟩, hce⟩

/-- `k` is the least number of times, and at least one, after which `p` holds; it leads to `c`. -/
structure FirstAt (act : α → Except δ Unit × α) (p : α → Prop) (a : α) (k : Nat) (c : α) :
    Prop where
  pos : 1 ≤ k
  reaches : repeated act k a = (.ok (), c)
  holds : p c
  first : ∀ {j : Nat} {r : α}, 1 ≤ j → j < k → repeated act j a = (.ok (), r) → ¬ p r

namespace FirstAt

variable {p : α → Prop} {k : Nat} {r : α}

/-- It is the first time already. -/
theorem iff_of_holds (hact : act a = (.ok (), r)) (hp : p r) :
    FirstAt act p a k c ↔ k = 1 ∧ c = r := by
  have hone : repeated act 1 a = (.ok (), r) := repeated_succ_iff.mpr ⟨r, hact, rfl⟩
  constructor
  · intro h
    have hk : k = 1 := by
      refine Nat.le_antisymm (Nat.le_of_not_lt fun hlt => ?_) h.pos
      exact h.first (Nat.le_refl 1) hlt hone hp
    have hreaches := h.reaches
    rw [hk, hone] at hreaches
    exact ⟨hk, (Prod.mk.inj hreaches).2.symm⟩
  · rintro ⟨rfl, rfl⟩
    exact ⟨Nat.le_refl 1, hone, hp, fun hj hlt => absurd hlt (Nat.not_lt.mpr hj)⟩

/-- It is not the first time yet. -/
theorem iff_of_not (hact : act a = (.ok (), r)) (hp : ¬ p r) :
    FirstAt act p a k c ↔ ∃ m, k = m + 1 ∧ FirstAt act p r m c := by
  have hafter : ∀ {m t}, repeated act (m + 1) a = (.ok (), t) ↔ repeated act m r = (.ok (), t) := by
    intro m t
    rw [repeated_succ_iff, hact]
    exact ⟨fun ⟨q, hq, h⟩ => (Prod.mk.inj hq).2 ▸ h, fun h => ⟨r, rfl, h⟩⟩
  constructor
  · intro h
    obtain ⟨m, rfl⟩ := Nat.exists_eq_add_of_le' h.pos
    have hm := hafter.mp h.reaches
    refine ⟨m, rfl, Nat.one_le_iff_ne_zero.mpr ?_, hm, h.holds, fun hj hlt hr => ?_⟩
    · rintro rfl
      exact hp (repeated_zero_iff.mp hm ▸ h.holds)
    · exact h.first (Nat.le_add_left 1 _) (Nat.succ_lt_succ hlt) (hafter.mpr hr)
  · rintro ⟨m, rfl, h⟩
    refine ⟨Nat.le_add_left 1 m, hafter.mpr h.reaches, h.holds, fun {j t} hj hlt hr => ?_⟩
    obtain ⟨i, rfl⟩ := Nat.exists_eq_add_of_le' hj
    have hi := hafter.mp hr
    rcases Nat.eq_zero_or_pos i with rfl | hpos
    · exact repeated_zero_iff.mp hi ▸ hp
    · exact h.first hpos (Nat.lt_of_succ_lt_succ hlt) hi

/-- There is no first time if the first of all fails. -/
theorem exists_act (h : FirstAt act p a k c) : ∃ r, act a = (.ok (), r) := by
  obtain ⟨r, hr⟩ := exists_repeated_of_le h.pos h.reaches
  obtain ⟨q, hq, -⟩ := repeated_succ_iff.mp hr
  exact ⟨q, hq⟩

/-- What is done alike is so for the first time alike. -/
theorem along {β δ' : Type} {act' : β → Except δ' Unit × β} {R : α → β → Prop} {p' : β → Prop}
    (hR : ∀ {r q t}, R r q → act r = (.ok (), t) → ∃ u, act' q = (.ok (), u) ∧ R t u)
    (hp : ∀ {r q}, R r q → (p r ↔ p' q)) {d : β} (ha : R a d) (h : FirstAt act p a k c) :
    ∃ e, FirstAt act' p' d k e ∧ R c e := by
  obtain ⟨e, he, hce⟩ := repeated_along hR ha h.reaches
  refine ⟨e, ⟨h.pos, he, (hp hce).mp h.holds, fun hj hlt hq => ?_⟩, hce⟩
  obtain ⟨r, hr⟩ := exists_repeated_of_le (Nat.le_of_lt hlt) h.reaches
  obtain ⟨q', hq', hrq⟩ := repeated_along hR ha hr
  obtain rfl := (Prod.mk.inj (hq.symm.trans hq')).2
  exact fun hholds => h.first hj hlt hr ((hp hrq).mpr hholds)

end FirstAt

end Repeated

/-! ### Steps and runs -/

variable {σ ε : Type} {b : Boundary σ ε} {s t : Execution σ} {n : Nat}

/-- Nothing starts a halted machine again. -/
theorem halted_step (h : s.progress.halted = true) : (step b s).2.progress.halted = true := by
  have hr := stepped_step b s
  generalize step b s = r at hr ⊢
  cases hr with
  | halt => rfl
  | fault => rfl
  | _ => exact h

/-- A run is still going after `n` steps if they succeed and leave the machine going. -/
theorem advance_eq_exhausted_iff :
    advance b n s = (.exhausted, t) ↔
      repeated (step b) n s = (.ok (), t) ∧ t.progress.halted = false := by
  induction n generalizing t with
  | zero =>
    constructor
    · intro h
      exact ⟨by rw [advance_zero_of_exhausted h]; rfl, halted_of_exhausted h⟩
    · rintro ⟨h, ht⟩
      rw [← repeated_zero_iff.mp h] at ht ⊢
      exact advance_zero ht
  | succ n ih =>
    rw [advance_succ_eq_exhausted_iff, repeated_succ_iff_last]
    constructor
    · rintro ⟨r, hr, hstep, ht⟩
      exact ⟨⟨r, (ih.mp hr).1, hstep⟩, ht⟩
    · rintro ⟨⟨r, hr, hstep⟩, ht⟩
      refine ⟨r, ih.mpr ⟨hr, Bool.eq_false_iff.mpr fun hhalted => ?_⟩, hstep, ht⟩
      have := halted_step (b := b) hhalted
      rw [hstep, ht] at this
      exact absurd this (by simp)

/-! ### The count -/

/-- Every step counts, also one that fails. -/
theorem steps_step (b : Boundary σ ε) (s : Execution σ) :
    (step b s).2.progress.steps = s.progress.steps + 1 := by
  have hr := stepped_step b s
  generalize step b s = r at hr ⊢
  cases hr <;> rfl

/-- The execution with some more steps counted. -/
def Execution.later (s : Execution σ) (n : Nat) : Execution σ :=
  { s with progress := { s.progress with steps := s.progress.steps + n } }

theorem Execution.later_moved (machine : Machine) (world : σ) :
    (s.later n).moved machine world = (s.moved machine world).later n := by
  simp only [later, moved, Nat.add_right_comm]

theorem Execution.later_stopped (fault : Option Fault) (world : σ) :
    (s.later n).stopped fault world = (s.stopped fault world).later n := by
  simp only [later, stopped, Nat.add_right_comm]

/-- A step does not look at the count. -/
theorem step_later : step b (s.later n) = ((step b s).1, (step b s).2.later n) := by
  have hr := stepped_step b s
  generalize hstep : step b s = r at hr ⊢
  cases hr with
  | move he => rw [step_of_move (s := s.later n) he, Execution.later_moved]; rfl
  | halt he => rw [step_of_halt (s := s.later n) he, Execution.later_stopped]; rfl
  | fault he hpc hb =>
    rw [step_of_fault (s := s.later n) he hpc hb, Execution.later_stopped]; rfl
  | unwritten he hpc =>
    rw [step_of_fault_unwritten (s := s.later n) he hpc, Execution.later_moved]; rfl
  | input he hb hv =>
    rw [step_of_input (s := s.later n) he hb, if_pos hv, Execution.later_moved]; rfl
  | outOfRange he hb hv =>
    rw [step_of_input (s := s.later n) he hb, if_neg (by simp [hv]), Execution.later_moved]; rfl
  | refused he hb =>
    rw [step_of_input_refused (s := s.later n) he hb, Execution.later_moved]; rfl
  | output he hb => rw [step_of_output (s := s.later n) he hb, Execution.later_moved]; rfl
  | spill he => rw [step_of_spill (s := s.later n) he, Execution.later_moved]; rfl

/-- Nor does a run. -/
theorem advance_later (m : Nat) :
    advance b m (s.later n) = ((advance b m s).1, (advance b m s).2.later n) := by
  induction m generalizing s with
  | zero =>
    rw [advance, advance]
    rfl
  | succ m ih =>
    rw [advance, advance, step_later]
    cases hs : s.progress.halted with
    | true => simp [Execution.later, hs]
    | false =>
      rcases step b s with ⟨e | _, r⟩
      · simp [Execution.later, hs]
      · simpa [Execution.later, hs] using ih (s := r)

end LittleMan
