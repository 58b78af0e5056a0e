/-
The names of boxes.

A table may have several names for one box, and a hundred apart two addresses mean the same box. The
names are gone through in their order, and a box that has a name keeps it; so the first name wins,
and what comes behind a table changes no name that is there.

* `lookup_nameBox`, `lookup_foldl_nameBox`: what one entry does to the names of boxes, and what a
  list of entries does;
* `TagTable.FirstName`: a name that stands for a box before any other does;
* `nameAt?_eq_some_iff`, `nameAt?_eq_none_iff`: the name of a box is its first name;
* `nameAt?_eq_some`: an only name is the first;
* `prefix_insertAll`: new names come behind those that are there;
* `naming_exact`: how every address is shown, and that it is shown so by any longer table.
-/
import LittleMan.Proofs.Survey
import LittleMan.Proofs.Text.Decimal
namespace LittleMan

open Text

namespace TagTable

/-! ### Boxes and their names -/

section Boxes

variable (boxes : List (Address × String)) (entries : List (String × Int)) (box : Address)

/-- An entry names its own box, if that has no name, and no other. -/
theorem lookup_nameBox (e : String × Int) :
    (nameBox boxes e).lookup box =
      (boxes.lookup box).or (if Address.wrap e.2 = box then some e.1 else none) := by
  rw [nameBox]
  by_cases hbox : Address.wrap e.2 = box
  · rw [if_pos hbox, hbox]
    cases hname : boxes.lookup box with
    | none =>
      rw [if_neg (by simp), List.lookup_append, hname, List.lookup_cons, beq_self_eq_true]
    | some name => rw [if_pos (by simp), hname, Option.some_or]
  · have hother : (box == Address.wrap e.2) = false := beq_false_of_ne (Ne.symm hbox)
    rw [if_neg hbox, Option.or_none]
    split
    · rfl
    · rw [List.lookup_append, List.lookup_cons, hother, List.lookup_nil, Option.or_none]

/-- A box keeps the name it has, and else gets the name of the first entry for it. -/
theorem lookup_foldl_nameBox :
    (entries.foldl nameBox boxes).lookup box =
      (boxes.lookup box).or
        ((entries.find? fun e => Address.wrap e.2 == box).map Prod.fst) := by
  induction entries generalizing boxes with
  | nil => rw [List.foldl_nil, List.find?_nil, Option.map_none, Option.or_none]
  | cons e entries ih =>
    rw [List.foldl_cons, ih, lookup_nameBox, Option.or_assoc, List.find?_cons]
    by_cases hbox : Address.wrap e.2 = box
    · rw [if_pos hbox, hbox, beq_self_eq_true, Option.some_or, Option.map_some]
    · rw [if_neg hbox, beq_false_of_ne hbox, Option.none_or]

end Boxes

/-! ### First names -/

variable {t u : TagTable} {address : Int} {name : String}

/-- The first name of the box that an integer names: no entry in front of its own stands for that
box. -/
def FirstName (t : TagTable) (address : Int) (name : String) : Prop :=
  ∃ before own after, t.entries = before ++ (name, own) :: after ∧
    own % 100 = address % 100 ∧ ∀ e ∈ before, e.2 % 100 ≠ address % 100

theorem FirstName.mem (h : t.FirstName address name) :
    ∃ own, (name, own) ∈ t.entries ∧ own % 100 = address % 100 := by
  obtain ⟨before, own, after, hentries, hown, -⟩ := h
  refine ⟨own, ?_, hown⟩
  rw [hentries]
  exact List.mem_append_right before List.mem_cons_self

/-- What comes behind a table leaves first names what they are. -/
theorem FirstName.extend (hlonger : t.entries <+: u.entries) (h : t.FirstName address name) :
    u.FirstName address name := by
  obtain ⟨before, own, after, hentries, hown, hbefore⟩ := h
  obtain ⟨more, hmore⟩ := hlonger
  refine ⟨before, own, after ++ more, ?_, hown, hbefore⟩
  rw [← hmore, hentries, List.append_assoc, List.cons_append]

theorem nameAt?_eq_map_find? (t : TagTable) (address : Int) :
    t.nameAt? address =
      (t.entries.find? fun e => Address.wrap e.2 == Address.wrap address).map Prod.fst := by
  rw [nameAt?, byBox, lookup_foldl_nameBox, List.lookup_nil, Option.none_or]

theorem nameAt?_eq_some_iff : t.nameAt? address = some name ↔ t.FirstName address name := by
  rw [nameAt?_eq_map_find?, Option.map_eq_some_iff]
  constructor
  · rintro ⟨⟨name, own⟩, hfind, rfl⟩
    obtain ⟨hown, before, after, hentries, hbefore⟩ := List.find?_eq_some_iff_append.mp hfind
    refine ⟨before, own, after, hentries, ?_, fun e he hbox => ?_⟩
    · exact Address.wrap_eq_wrap_iff.mp (beq_iff_eq.mp hown)
    · have hno := hbefore e he
      rw [Address.wrap_eq_wrap_iff.mpr hbox, beq_self_eq_true] at hno
      exact absurd hno (by simp)
  · rintro ⟨before, own, after, hentries, hown, hbefore⟩
    refine ⟨(name, own), List.find?_eq_some_iff_append.mpr ⟨?_, before, after, hentries, ?_⟩, rfl⟩
    · exact beq_iff_eq.mpr (Address.wrap_eq_wrap_iff.mpr hown)
    · intro e he
      rw [Bool.not_eq_true', beq_eq_false_iff_ne]
      exact fun hbox => hbefore e he (Address.wrap_eq_wrap_iff.mp hbox)

theorem nameAt?_eq_none_iff :
    t.nameAt? address = none ↔ ∀ e ∈ t.entries, e.2 % 100 ≠ address % 100 := by
  rw [nameAt?_eq_map_find?, Option.map_eq_none_iff, List.find?_eq_none]
  refine forall₂_congr fun e _ => ?_
  rw [beq_iff_eq, Address.wrap_eq_wrap_iff]

/-- If no other name stands for the box, it does not matter which entry comes first. -/
theorem nameAt?_eq_some (hmem : (name, address) ∈ t.entries)
    (honly : ∀ e ∈ t.entries, e.2 % 100 = address % 100 → e.1 = name) :
    t.nameAt? address = some name := by
  cases hname : t.nameAt? address with
  | none => exact absurd rfl (nameAt?_eq_none_iff.mp hname _ hmem)
  | some other =>
    obtain ⟨own, hother, hown⟩ := (nameAt?_eq_some_iff.mp hname).mem
    exact congrArg some (honly _ hother hown)

instance (t : TagTable) (address : Int) (name : String) : Decidable (t.FirstName address name) :=
  decidable_of_iff _ nameAt?_eq_some_iff

/-! ### Further names -/

theorem prefix_insert (hlonger : t.entries <+: u.entries) (hnew : name ∉ t.names) (a : Int) :
    t.entries <+: (u.insert name a).entries := by
  obtain ⟨more, hmore⟩ := hlonger
  rw [insert, ← hmore, go_append_of_forall_ne (ne_of_not_mem_names hnew)]
  exact List.prefix_append t.entries _

/-- Definitions of names that are not in a table come behind it. -/
theorem prefix_insertAll {more : List (String × Int)} (hlonger : t.entries <+: u.entries)
    (hnew : ∀ e ∈ more, e.1 ∉ t.names) : t.entries <+: (u.insertAll more).entries := by
  induction more generalizing u with
  | nil => exact hlonger
  | cons e more ih =>
    obtain ⟨he, hmore⟩ := List.forall_mem_cons.mp hnew
    exact ih (prefix_insert hlonger he e.2) hmore

/-! ### Boxes as they are shown -/

theorem render_of_name (h : t.nameAt? address = some name) : t.render address = name := by
  rw [render, h, Option.getD_some]

theorem toList_render_of_no_name (h : t.nameAt? address = none) :
    (t.render address).toList =
      [digitChar ((address % 100).toNat / 10), digitChar ((address % 100).toNat % 10)] := by
  rw [render, h, Option.getD_none]
  exact toList_padded_two (Address.wrap address).isLt

end TagTable

/-- **Names of boxes.** In any table, the name of the box that an integer names is the first in the
order of the table whose address is the same modulo 100, and there is no name if no address is. The
box is shown by that name, or else by its two digits. A table that goes on behind shows the box by
the name it had, and definitions of new names only let a table go on. -/
theorem naming_exact (t : TagTable) (address : Int) :
    (∀ name, t.nameAt? address = some name ↔ t.FirstName address name) ∧
    (t.nameAt? address = none ↔ ∀ e ∈ t.entries, e.2 % 100 ≠ address % 100) ∧
    (∀ name, t.FirstName address name → t.render address = name) ∧
    ((∀ e ∈ t.entries, e.2 % 100 ≠ address % 100) →
      (t.render address).toList =
        [digitChar ((address % 100).toNat / 10), digitChar ((address % 100).toNat % 10)]) ∧
    (∀ (u : TagTable) (name : String), t.entries <+: u.entries → t.nameAt? address = some name →
      u.nameAt? address = some name ∧ u.render address = name) ∧
    ∀ more : List (String × Int), (∀ e ∈ more, e.1 ∉ t.names) →
      t.entries <+: (t.insertAll more).entries := by
  refine ⟨fun name => TagTable.nameAt?_eq_some_iff, TagTable.nameAt?_eq_none_iff, ?_, ?_, ?_, ?_⟩
  · intro name hfirst
    exact TagTable.render_of_name (TagTable.nameAt?_eq_some_iff.mpr hfirst)
  · intro hno
    exact TagTable.toList_render_of_no_name (TagTable.nameAt?_eq_none_iff.mpr hno)
  · intro u name hlonger hname
    have hfirst := TagTable.nameAt?_eq_some_iff.mp hname
    have hkept := TagTable.nameAt?_eq_some_iff.mpr (hfirst.extend hlonger)
    exact ⟨hkept, TagTable.render_of_name hkept⟩
  · intro more hnew
    exact TagTable.prefix_insertAll (List.prefix_refl t.entries) hnew

/-- Names for one box at addresses that are hundreds apart. -/
def crowdedBox : TagTable := ⟨[("other", 4), ("far", 205), ("below", -95), ("near", 5)]⟩

theorem naming_exact_crowded :
    crowdedBox.FirstName (-95) "far" ∧ crowdedBox.render (-95) = "far" ∧
      (∀ e ∈ crowdedBox.entries, e.2 % 100 ≠ (-1) % 100) ∧
      (crowdedBox.render (-1)).toList = ['9', '9'] ∧
      (∀ e ∈ [("late", (5 : Int)), ("late", 105)], e.1 ∉ crowdedBox.names) ∧
      (crowdedBox.insertAll [("late", 5), ("late", 105)]).render 5 = "far" := by
  have hfirst : crowdedBox.FirstName (-95) "far" := by decide
  have hno : ∀ e ∈ crowdedBox.entries, e.2 % 100 ≠ (-1) % 100 := by decide
  have hnew : ∀ e ∈ [("late", (5 : Int)), ("late", 105)], e.1 ∉ crowdedBox.names := by decide
  have hlonger := (naming_exact crowdedBox 5).2.2.2.2.2 _ hnew
  refine ⟨hfirst, (naming_exact crowdedBox (-95)).2.2.1 "far" hfirst, hno, ?_, hnew, ?_⟩
  · exact (naming_exact crowdedBox (-1)).2.2.2.1 hno
  · exact ((naming_exact crowdedBox 5).2.2.2.2.1 _ "far" hlonger (by decide)).2

end LittleMan
