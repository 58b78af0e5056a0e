/-
Computations that may fail.

* `bind_eq_ok_iff`, `mapM_eq_ok_iff`: what each part gave when the whole succeeded;
* `mapM_eq_ok_iff_of_forall`, `exists_forall₂_iff`: the whole from what is known of each part;
* `mapM_eq_error_iff`: which part failed when the whole did;
* `exists_first_not`: what is refused somewhere is refused somewhere first;
* `Agree`: two computations that go the same way, and what keeps them together: `Agree.bind`,
  `agree_foldlM`, `agree_mapM`.
-/
import Mathlib.Data.List.Forall2
namespace LittleMan

theorem bind_eq_ok_iff {α β ε : Type} {x : Except ε α} {f : α → Except ε β} {b : β} :
    x >>= f = .ok b ↔ ∃ a, x = .ok a ∧ f a = .ok b := by
  cases x <;> simp [bind, Except.bind]

theorem mapError_eq_ok_iff {α ε ε' : Type} {f : ε → ε'} {x : Except ε α} {a : α} :
    x.mapError f = .ok a ↔ x = .ok a := by
  cases x with
  | ok b =>
    constructor
    · intro h
      rw [Except.ok.inj h]
    · intro h
      rw [Except.ok.inj h]
      rfl
  | error => exact iff_of_false nofun nofun

/-- A check that throws, and what comes after it. -/
theorem check_eq_ok_iff {β ε : Type} {p : Prop} [Decidable p] {e : ε} {f : Unit → Except ε β}
    {b : β} : (if p then throw e >>= f else f ()) = .ok b ↔ ¬ p ∧ f () = .ok b := by
  by_cases h : p <;> simp [h, throw, throwThe, MonadExceptOf.throw, bind, Except.bind]

theorem mapM_eq_ok_iff {α β ε : Type} {f : α → Except ε β} {l : List α} {l' : List β} :
    l.mapM f = .ok l' ↔ List.Forall₂ (fun a b => f a = .ok b) l l' := by
  induction l generalizing l' with
  | nil =>
    rw [List.mapM_nil, List.forall₂_nil_left_iff]
    exact ⟨fun h => (Except.ok.inj h).symm, fun h => by rw [h]; rfl⟩
  | cons a l ih =>
    rw [List.mapM_cons, List.forall₂_cons_left_iff]
    cases hf : f a with
    | error e => simp [bind, Except.bind]
    | ok b =>
      cases hl : l.mapM f with
      | error e =>
        simp only [bind, Except.bind, reduceCtorEq, false_iff, Except.ok.injEq]
        rintro ⟨_, l', rfl, hl', _⟩
        exact absurd (hl.symm.trans (ih.mpr hl')) (by simp)
      | ok bs =>
        simp only [bind, Except.bind, pure, Except.pure, Except.ok.injEq]
        constructor
        · rintro rfl
          exact ⟨b, bs, rfl, ih.mp hl, rfl⟩
        · rintro ⟨_, l', rfl, hl', rfl⟩
          rw [Except.ok.inj (hl.symm.trans (ih.mpr hl'))]

/-- If each member gives what `P` says, so does the list. -/
theorem mapM_eq_ok_iff_of_forall {α β ε : Type} {P : α → β → Prop} {f : α → Except ε β} {l : List α}
    {l' : List β} (h : ∀ a ∈ l, ∀ b, f a = .ok b ↔ P a b) :
    l.mapM f = .ok l' ↔ List.Forall₂ P l l' := by
  rw [mapM_eq_ok_iff]
  constructor <;> intro hread <;>
    refine ((List.forall₂_and_left _ _).mpr ⟨fun a ha => ha, hread⟩).imp fun a b ⟨ha, hb⟩ => ?_
  · exact (h a ha b).mp hb
  · exact (h a ha b).mpr hb

theorem exists_forall₂_iff {α β : Type} {R : α → β → Prop} {l : List α} :
    (∃ l', List.Forall₂ R l l') ↔ ∀ a ∈ l, ∃ b, R a b := by
  induction l with
  | nil => exact iff_of_true ⟨[], .nil⟩ (by simp)
  | cons a l ih =>
    rw [List.forall_mem_cons, ← ih]
    constructor
    · rintro ⟨_, h⟩
      obtain ⟨b, l', hab, hl, -⟩ := List.forall₂_cons_left_iff.mp h
      exact ⟨⟨b, hab⟩, l', hl⟩
    · rintro ⟨⟨b, hab⟩, l', hl⟩
      exact ⟨b :: l', .cons hab hl⟩

/-- A list is refused for the first of its members that is. -/
theorem mapM_eq_error_iff {α β ε : Type} {f : α → Except ε β} {l : List α} {e : ε} :
    l.mapM f = .error e ↔ ∃ before a after, l = before ++ a :: after ∧
      (∀ b ∈ before, ∃ c, f b = .ok c) ∧ f a = .error e := by
  induction l with
  | nil =>
    rw [List.mapM_nil]
    constructor
    · intro h
      exact absurd h (by simp [pure, Except.pure])
    · rintro ⟨before, a, after, h, -⟩
      exact absurd h (by simp)
  | cons a l ih =>
    rw [List.mapM_cons]
    cases hf : f a with
    | error e' =>
      simp only [bind, Except.bind, Except.error.injEq]
      constructor
      · rintro rfl
        exact ⟨[], a, l, rfl, by simp, hf⟩
      · rintro ⟨_ | ⟨b, before⟩, a', after, h, hbefore, ha'⟩
        · obtain ⟨rfl, -⟩ := List.cons.inj h
          exact Except.error.inj (hf.symm.trans ha')
        · obtain ⟨rfl, -⟩ := List.cons.inj h
          obtain ⟨c, hc⟩ := hbefore a List.mem_cons_self
          exact absurd (hf.symm.trans hc) (by simp)
    | ok b =>
      have hl : (do
          let r ← Except.ok b
          let rs ← l.mapM f
          pure (r :: rs)) = Except.error e ↔ l.mapM f = .error e := by
        cases l.mapM f <;> simp [bind, Except.bind, pure, Except.pure]
      rw [hl, ih]
      constructor
      · rintro ⟨before, a', after, rfl, hbefore, ha'⟩
        refine ⟨a :: before, a', after, rfl, ?_, ha'⟩
        rintro x (_ | ⟨_, hx⟩)
        · exact ⟨b, hf⟩
        · exact hbefore x hx
      · rintro ⟨_ | ⟨c, before⟩, a', after, h, hbefore, ha'⟩
        · obtain ⟨rfl, -⟩ := List.cons.inj h
          exact absurd (hf.symm.trans ha') (by simp)
        · obtain ⟨rfl, rfl⟩ := List.cons.inj h
          exact ⟨before, a', after, rfl, fun x hx => hbefore x (List.mem_cons_of_mem a hx), ha'⟩

/-- The first member of a list that is refused. -/
theorem exists_first_not {α : Type} {P : α → Prop} {l : List α} (h : ∃ a ∈ l, ¬P a) :
    ∃ before a after, l = before ++ a :: after ∧ (∀ b ∈ before, P b) ∧ ¬P a := by
  induction l with
  | nil =>
    obtain ⟨a, ha, -⟩ := h
    exact absurd ha List.not_mem_nil
  | cons a l ih =>
    by_cases ha : P a
    · obtain ⟨b, hb, hnot⟩ := h
      have hl : b ∈ l := (List.mem_cons.mp hb).resolve_left fun hba => hnot (hba ▸ ha)
      obtain ⟨before, c, after, rfl, hbefore, hc⟩ := ih ⟨b, hl, hnot⟩
      exact ⟨a :: before, c, after, rfl, List.forall_mem_cons.mpr ⟨ha, hbefore⟩, hc⟩
    · exact ⟨[], a, l, rfl, by simp, ha⟩

theorem exists_of_map_eq_ok {α β ε : Type} {x : Except ε α} {f : α → β} {b : β}
    (h : x.map f = .ok b) : ∃ a, x = .ok a ∧ f a = b := by
  cases x with
  | error e => simp [Except.map] at h
  | ok a => exact ⟨a, rfl, Except.ok.inj h⟩

theorem exists_of_isOk {α ε : Type} {x : Except ε α} (h : x.isOk = true) : ∃ a, x = .ok a := by
  cases x with
  | error e => exact absurd h (by simp [Except.isOk, Except.toBool])
  | ok a => exact ⟨a, rfl⟩

theorem eq_ok_of_toOption {α ε : Type} {x : Except ε α} {a : α} (h : x.toOption = some a) :
    x = .ok a := by
  cases x with
  | error e => exact absurd h (by simp [Except.toOption])
  | ok b => rw [Option.some_inj.mp h]

/-- A check that has passed has one answer. -/
theorem eq_ok_of_isOk {ε : Type} {x : Except ε Unit} (h : x.isOk = true) : x = .ok () :=
  (exists_of_isOk h).choose_spec

/-! ### Two computations side by side -/

section Agree

variable {α β γ δ ε ι : Type} {R : α → β → Prop} {S : ε → ι → Prop} {T : γ → δ → Prop}

/-- Both succeed, with results that are related, or both fail, with errors that are. -/
inductive Agree (R : α → β → Prop) (S : ε → ι → Prop) : Except ε α → Except ι β → Prop where
  | ok {a : α} {b : β} (h : R a b) : Agree R S (.ok a) (.ok b)
  | error {e : ε} {i : ι} (h : S e i) : Agree R S (.error e) (.error i)

theorem Agree.bind {x : Except ε α} {y : Except ι β} {f : α → Except ε γ} {g : β → Except ι δ}
    (h : Agree R S x y) (hfg : ∀ a b, R a b → Agree T S (f a) (g b)) :
    Agree T S (x >>= f) (y >>= g) := by
  cases h with
  | ok hab => exact hfg _ _ hab
  | error he => exact .error he

theorem Agree.imp {R' : α → β → Prop} {x : Except ε α} {y : Except ι β} (h : Agree R S x y)
    (hR : ∀ a b, R a b → R' a b) : Agree R' S x y := by
  cases h with
  | ok hab => exact .ok (hR _ _ hab)
  | error he => exact .error he

theorem Agree.map {x : Except ε α} {y : Except ι β} {f : α → γ} {g : β → δ} (h : Agree R S x y)
    (hfg : ∀ a b, R a b → T (f a) (g b)) : Agree T S (x.map f) (y.map g) := by
  cases h with
  | ok hab => exact .ok (hfg _ _ hab)
  | error he => exact .error he

/-- Passes over lists that are related member by member stay together if each step does. -/
theorem agree_foldlM {f : α → γ → Except ε α} {g : β → δ → Except ι β} {l : List γ} {l' : List δ}
    (h : List.Forall₂ T l l') (hstep : ∀ a b c d, R a b → T c d → Agree R S (f a c) (g b d)) :
    ∀ {a : α} {b : β}, R a b → Agree R S (l.foldlM f a) (l'.foldlM g b) := by
  induction h with
  | nil => exact fun hab => .ok hab
  | cons hcd _ ih =>
    intro a b hab
    rw [List.foldlM_cons, List.foldlM_cons]
    exact (hstep a b _ _ hab hcd).bind fun _ _ hab' => ih hab'

theorem agree_mapM {f : γ → Except ε α} {g : δ → Except ι β} {l : List γ} {l' : List δ}
    (h : List.Forall₂ T l l') (hfg : ∀ c d, T c d → Agree R S (f c) (g d)) :
    Agree (List.Forall₂ R) S (l.mapM f) (l'.mapM g) := by
  induction h with
  | nil => exact .ok .nil
  | cons hcd _ ih =>
    rw [List.mapM_cons, List.mapM_cons]
    exact (hfg _ _ hcd).bind fun _ _ hab => ih.bind fun _ _ hmore => .ok (.cons hab hmore)

end Agree

end LittleMan
