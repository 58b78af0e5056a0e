/-
The tags that boxes are shown with.

A box is shown with a tag by `vars`, which goes through the tags, and by `var`, which finds the box
by one rule and the tag by another: a point is a number before it is a tag, but a point that is a
tag is the tag that is shown. Of a tag that is no number, or the number of its own box, both rules
say the same. A tag that is the number of another box is shown with that box (`Misnamed`).

* `labelled`: the line of a box with a tag, which can be read back (`labelled_injective`);
* `Truthful`: a line that shows a tag shows the tag of the box, and what is in the box;
* `Later.tags`: commands leave the tags of a session as they are;
* `truthful_showBox`, `showBox_misnamed`: what `var` shows;
* `labels_are_own_tags`: the lines of both commands, in every session over an assembled program.
-/
import LittleMan.Proofs.Debugger.Changes
import LittleMan.Proofs.Debugger.Points
import LittleMan.Proofs.Naming
import LittleMan.Proofs.Text.Pieces
namespace LittleMan.Debugger

open Text

/-! ### Lines with a tag -/

/-- The line of a box with a tag. -/
def labelled (address : Int) (tag : String) (v : Nat) : String :=
  padded 3 address ++ " (" ++ tag ++ ") = " ++ toString v

theorem toList_labelled (address : Int) (tag : String) (v : Nat) :
    (labelled address tag v).toList = (padded 3 address).toList ++ ' ' ::
      ('(' :: tag.toList ++ [')', ' ', '='] ++ ' ' :: (toString v).toList) := by
  simp [labelled]

theorem not_mem_space_toString (v : Nat) : ' ' ∉ (toString v).toList := by
  rw [toList_toString_natCast]
  exact fun hm => absurd (isDigit_of_isNumeral (isNumeral_digits v) ' ' hm) (by decide)

/-- A tag may hold anything: the address ends at the first space, the number starts behind the
last. -/
theorem labelled_injective {a a' : Int} {tag tag' : String} {v v' : Nat}
    (h : labelled a tag v = labelled a' tag' v') : a = a' ∧ tag = tag' ∧ v = v' := by
  have hlist := congrArg String.toList h
  rw [toList_labelled, toList_labelled] at hlist
  obtain ⟨haddress, hrest⟩ := append_sep_inj (Snapshot.not_mem_space_padded a)
    (Snapshot.not_mem_space_padded a') hlist
  obtain ⟨htag, hv⟩ := append_sep_inj_right (not_mem_space_toString v)
    (not_mem_space_toString v') hrest
  refine ⟨padded_injective 3 (String.toList_inj.mp haddress), ?_, ?_⟩
  · exact String.toList_inj.mp (List.cons.inj (List.append_cancel_right htag)).2
  · rw [toList_toString_natCast, toList_toString_natCast] at hv
    rw [← value_digits v, hv, value_digits]

/-- What a line shows of a box with a tag is so: the tag is that of the box, and the number is in
the box. -/
def Truthful (tags : TagTable) (m : Machine) (text : String) : Prop :=
  ∀ (address : Int) (tag : String) (v : Nat), text = labelled address tag v →
    (tag, address) ∈ tags.entries ∧ v = (m.memory.read address).val

section Truthful

variable {tags : TagTable} {m : Machine} {address : Int} {tag : String}

theorem truthful_labelled (h : (tag, address) ∈ tags.entries) :
    Truthful tags m (labelled address tag (m.memory.read address).val) := by
  intro address' tag' v heq
  obtain ⟨rfl, rfl, rfl⟩ := labelled_injective heq
  exact ⟨h, rfl⟩

/-- A line that goes on otherwise behind its first word shows no tag. -/
theorem truthful_of_no_label {front rest : List Char} {text : String} (hfront : ' ' ∉ front)
    (hrest : rest.head? ≠ some '(') (htext : text.toList = front ++ ' ' :: rest) :
    Truthful tags m text := by
  rintro address' tag' v rfl
  rw [toList_labelled] at htext
  obtain ⟨-, rfl⟩ := append_sep_inj (Snapshot.not_mem_space_padded address') hfront htext
  exact absurd rfl hrest

end Truthful

/-! ### Tags that are numbers -/

/-- A tag is the number of another box. -/
def Misnamed (tags : TagTable) (point : String) : Prop :=
  isNumeral point.toList = true ∧
    ∃ address, (point, address) ∈ tags.entries ∧ address ≠ (decimal point.toList % 100 : Nat)

section Tags

variable {tags : TagTable} {point : String} {address own : Int}

theorem address?_isSome_iff : (tags.address? point).isSome = true ↔ point ∈ tags.names := by
  rw [← not_iff_not, ← TagTable.address?_eq_none_iff, Option.not_isSome_iff_eq_none]

/-- The name of a box is one of its names. -/
theorem mem_of_nameAt? {name : String} (htags : ∀ e ∈ tags.entries, 0 ≤ e.2 ∧ e.2 ≤ 99)
    (haddress : 0 ≤ address ∧ address ≤ 99) (hname : tags.nameAt? address = some name) :
    (name, address) ∈ tags.entries := by
  obtain ⟨own, hmem, hown⟩ := (TagTable.nameAt?_eq_some_iff.mp hname).mem
  have hbounds := htags _ hmem
  dsimp only at hbounds
  -- neither address goes round
  obtain rfl : own = address := by omega
  exact hmem

theorem address_unique (hnd : tags.names.Nodup) (h : (point, address) ∈ tags.entries)
    (h' : (point, own) ∈ tags.entries) : address = own := by
  rw [← lookup_eq_some_iff_mem hnd] at h h'
  exact Option.some_inj.mp (h.symm.trans h')

/-- A tag that is not the number of another box names its own. -/
theorem names_iff_of_tag (hnd : tags.names.Nodup) (hgood : ¬Misnamed tags point)
    (hmem : (point, own) ∈ tags.entries) : Names tags point address ↔ address = own := by
  have hnumber : isNumeral point.toList = true → own = (decimal point.toList % 100 : Nat) :=
    fun hd => not_not.mp fun hne => hgood ⟨hd, own, hmem, hne⟩
  constructor
  · rintro (hd | ⟨-, ht⟩)
    · exact (hnumber hd).symm
    · exact address_unique hnd ht hmem
  · rintro rfl
    cases hd : isNumeral point.toList with
    | false => exact .tag hd hmem
    | true =>
      rw [hnumber hd]
      exact .number hd

theorem ne_empty_of_mem_words {line : String} (hpoint : point ∈ words line) : point ≠ "" := by
  obtain ⟨f, hf, rfl⟩ := List.mem_map.mp hpoint
  rintro hempty
  exact (mem_fieldsFrom hf).1.1 (by rw [hempty]; rfl)

end Tags

namespace Session

variable {σ ε α : Type} {h : Host σ ε} {s t u : Session σ} {point : String} {address : Int}

/-- No change touches the tags. -/
theorem Changes.tags {saves : String → Prop} {writes : String → List UInt8 → σ → Prop}
    (hst : Changes h saves writes s t) : t.tags = s.tags := by
  induction hst with
  | refl => rfl
  | tail _ hchange ih => cases hchange <;> exact ih

/-- Commands leave the tags of a session as they are. -/
theorem Later.tags {barred : Session σ → Command → Prop} (hst : Later h barred s t) :
    t.tags = s.tags := by
  have hchanges : Changes h (fun _ => True) (fun _ _ _ => True) s t :=
    hst.changes (fun _ => trivial) fun _ _ _ _ _ => trivial
  exact hchanges.tags

/-! ### Lines of boxes -/

theorem boxLine_some {tag : String} (htag : tag ≠ "") :
    s.boxLine address (some tag) = labelled address tag (s.machine.memory.read address).val := by
  have hclose : ") = " = ")" ++ " = " := rfl
  simp only [boxLine, if_neg htag, labelled, hclose, String.append_assoc]

/-- A box is shown truthfully, if it is shown with its own tag or with none. -/
theorem truthful_boxLine {tags : TagTable} {tag : Option String}
    (htag : ∀ name ∈ tag, (name, address) ∈ tags.entries) :
    Truthful tags s.machine (s.boxLine address tag) := by
  have hplain : Truthful tags s.machine
      (padded 3 address ++ "" ++ " = " ++ toString (s.machine.memory.read address).val) := by
    refine truthful_of_no_label (Snapshot.not_mem_space_padded address) ?_
      (show _ = _ ++ ' ' :: '=' :: ' ' :: (toString (s.machine.memory.read address).val).toList from ?_)
    · simp
    · simp
  rcases tag with _ | name
  · exact hplain
  · rcases eq_or_ne name "" with rfl | hname
    · exact hplain
    · rw [boxLine_some hname]
      exact truthful_labelled (htag name rfl)

theorem labelFor_of_mem (hmem : point ∈ s.tags.names) :
    s.labelFor point address = some point := if_pos (address?_isSome_iff.mpr hmem)

/-- The tag that a box is shown with is its own, whether it was asked for by number or by tag. -/
theorem mem_of_labelFor (hnd : s.tags.names.Nodup)
    (htags : ∀ e ∈ s.tags.entries, 0 ≤ e.2 ∧ e.2 ≤ 99) (hgood : ¬Misnamed s.tags point)
    (hnames : Names s.tags point address) :
    ∀ name ∈ s.labelFor point address, (name, address) ∈ s.tags.entries := by
  intro name hname
  by_cases hmem : point ∈ s.tags.names
  · rw [labelFor_of_mem hmem] at hname
    obtain rfl := Option.some_inj.mp hname
    obtain ⟨⟨point, own⟩, hown, rfl⟩ := List.mem_map.mp hmem
    rw [(names_iff_of_tag hnd hgood hown).mp hnames]
    exact hown
  · rw [labelFor, if_neg (mt address?_isSome_iff.mp hmem)] at hname
    exact mem_of_nameAt? htags (hnames.bounds htags) hname

/-! ### What is shown -/

variable {io : σ → α} {shown : σ → List String} {patience : Nat} {line : String} {m : Machine}
  {texts texts' : List String}

theorem Leaves.trans (hst : Leaves io shown m texts s t) (htu : Leaves io shown m texts' t u) :
    Leaves io shown m (texts ++ texts') s u where
  machine := htu.machine
  progress := htu.progress.trans hst.progress
  tags := htu.tags.trans hst.tags
  saved := htu.saved.trans hst.saved
  halted := htu.halted.trans hst.halted
  finished := htu.finished.trans hst.finished
  io := htu.io.trans hst.io
  shown := by rw [htu.shown, hst.shown, List.append_assoc]

theorem Leaves.echoAll (hobs : h.Observed io shown) (texts : List String) (s : Session σ) :
    Leaves io shown s.machine texts s (s.echoAll h texts) := by
  induction texts generalizing s with
  | nil => exact .refl s
  | cons text texts ih => exact ((Leaves.refl s).echo hobs text).trans (ih (s.echo h text))

/-- Every tag is shown with its own box. -/
theorem truthful_showTagged (hwords : words line = ["vars"]) (hobs : h.Observed io shown) :
    ∃ t texts, s.execute h patience line = (.ok (), t) ∧
      Leaves io shown s.machine texts s t ∧ ∀ text ∈ texts, Truthful s.tags s.machine text := by
  refine ⟨_, _, execute_of_words hwords rfl, Leaves.echoAll hobs _ s, fun text htext => ?_⟩
  obtain ⟨⟨tag, address⟩, hentry, rfl⟩ := List.mem_map.mp htext
  exact truthful_boxLine fun name hname => Option.some_inj.mp hname ▸ hentry

/-- A line with a point shows the box that the point names. -/
theorem execute_of_var (hobs : h.Observed io shown) (hnd : s.tags.names.Nodup)
    (hwords : words line = ["var", point]) (hshort : ¬IsLong point)
    (hnames : Names s.tags point address) :
    ∃ t, s.execute h patience line = (.ok (), t) ∧ Leaves io shown s.machine
      [s.boxLine address (s.labelFor point address)] s t := by
  refine ⟨_, ?_, (Leaves.refl s).echo hobs _⟩
  rw [execute_of_words hwords rfl, perform, withPoint_of_names hnd hshort hnames]

/-- Unless the point is a tag that is the number of another box, what is shown is so; and of a tag
the box is shown. -/
theorem truthful_showBox (hobs : h.Observed io shown) (hnd : s.tags.names.Nodup)
    (htags : ∀ e ∈ s.tags.entries, 0 ≤ e.2 ∧ e.2 ≤ 99) (hwords : words line = ["var", point])
    (hshort : ¬IsLong point) (hgood : ¬Misnamed s.tags point) :
    ∃ t text, s.execute h patience line = (.ok (), t) ∧ Leaves io shown s.machine [text] s t ∧
      Truthful s.tags s.machine text ∧ ∀ own, (point, own) ∈ s.tags.entries →
        text = labelled own point (s.machine.memory.read own).val := by
  rcases names_or_unknown s.tags point with ⟨address, hnames⟩ | ⟨hd, hunknown⟩
  · obtain ⟨t, hexecute, hleaves⟩ := execute_of_var hobs hnd hwords hshort hnames
    refine ⟨t, _, hexecute, hleaves,
      truthful_boxLine (mem_of_labelFor hnd htags hgood hnames), fun own hown => ?_⟩
    obtain rfl := (names_iff_of_tag hnd hgood hown).mp hnames
    have hpoint : point ∈ words line := by simp [hwords]
    rw [labelFor_of_mem (List.mem_map_of_mem hown), boxLine_some (ne_empty_of_mem_words hpoint)]
  · have hanswer : ("var", "No such tag " ++ point) ∈ pointRefusals point := by
      simp [pointRefusals]
    obtain ⟨t, hexecute, hleaves⟩ :=
      leaves_of_refuses hobs (.unknownPoint hanswer hwords hd hunknown)
    have htext : ("No such tag " ++ point).toList =
        "No".toList ++ ' ' :: ("such tag ".toList ++ point.toList) := by simp
    refine ⟨t, _, hexecute, hleaves, truthful_of_no_label (by decide) (by simp) htext, ?_⟩
    exact fun own hown => absurd (List.mem_map_of_mem hown) hunknown

/-- A tag that is the number of another box is shown with that box. -/
theorem showBox_misnamed (hobs : h.Observed io shown) (hnd : s.tags.names.Nodup)
    (hwords : words line = ["var", point]) (hshort : ¬IsLong point)
    (hbad : Misnamed s.tags point) :
    ∃ t, s.execute h patience line = (.ok (), t) ∧
      Leaves io shown s.machine [labelled (decimal point.toList % 100 : Nat) point
        (s.machine.memory.read (decimal point.toList % 100 : Nat)).val] s t := by
  obtain ⟨hd, own, hown, -⟩ := hbad
  obtain ⟨t, hexecute, hleaves⟩ := execute_of_var hobs hnd hwords hshort (.number hd)
  have hpoint : point ∈ words line := by simp [hwords]
  rw [labelFor_of_mem (List.mem_map_of_mem hown),
    boxLine_some (ne_empty_of_mem_words hpoint)] at hleaves
  exact ⟨t, hexecute, hleaves⟩

end Session

open Session

/-- In a session over an assembled program, whatever was done in it, `vars` shows every tag with its
own box, and `var` shows a box with its own tag or with none, and of a tag its own box. The exception
is a tag that is the number of another box: it is shown with that box. Of a numeral of too many
digits nothing is shown. -/
theorem labels_are_own_tags {σ ε α : Type} (h : Host σ ε) {io : σ → α} {shown : σ → List String}
    (hobs : h.Observed io shown) {lines : List String} {filename : String} {p : Program}
    (hp : assemble lines filename = .ok p) {s₀ s : Session σ} (h₀ : s₀.tags = p.tags)
    (hs : Later h (fun _ _ => False) s₀ s) (patience : Nat) (line : String) :
    (words line = ["vars"] → ∃ t texts, s.execute h patience line = (.ok (), t) ∧
      Leaves io shown s.machine texts s t ∧ ∀ text ∈ texts, Truthful p.tags s.machine text) ∧
    (∀ point, words line = ["var", point] → ¬IsLong point → ¬Misnamed p.tags point →
      ∃ t text, s.execute h patience line = (.ok (), t) ∧ Leaves io shown s.machine [text] s t ∧
        Truthful p.tags s.machine text ∧ ∀ own, (point, own) ∈ p.tags.entries →
          text = labelled own point (s.machine.memory.read own).val) ∧
    (∀ point, words line = ["var", point] → ¬IsLong point → Misnamed p.tags point →
      ∃ t, s.execute h patience line = (.ok (), t) ∧
        Leaves io shown s.machine [labelled (decimal point.toList % 100 : Nat) point
          (s.machine.memory.read (decimal point.toList % 100 : Nat)).val] s t) ∧
    ∀ point, words line = ["var", point] → IsLong point →
      s.execute h patience line = (.error (.numeral ⟨point.toList.length⟩), s) := by
  have htags : s.tags = p.tags := hs.tags.trans h₀
  have hnd : s.tags.names.Nodup := htags ▸ nodup_names_of_assemble hp
  have hbounds : ∀ e ∈ s.tags.entries, 0 ≤ e.2 ∧ e.2 ≤ 99 := htags ▸ tags_of_assemble hp
  rw [← htags]
  refine ⟨fun hwords => truthful_showTagged hwords hobs, fun point hwords hshort hgood => ?_,
    fun point hwords hshort hbad => ?_, fun point hwords hlong => ?_⟩
  · exact truthful_showBox hobs hnd hbounds hwords hshort hgood
  · exact showBox_misnamed hobs hnd hwords hshort hbad
  · exact execute_of_long hlong List.mem_cons_self hwords

/-- A session over a program whose second box has its own number for a tag. -/
def overOwnNumber : Session Rehearsal :=
  { execution := { machine := { memory := .ofWords [Word.wrap 101, Word.wrap 3] }, world := {} }
    tags := ⟨[("1", 1)]⟩ }

/-- After a branch the tag is still shown with its own box. -/
theorem labels_are_own_tags_own_number :
    ∃ t, (overOwnNumber.execute Rehearsal.host 0 "br 1").2.execute Rehearsal.host 0 "var 1" =
        (.ok (), t) ∧
      t.execution.world.echoed.toList = ["001 (1) = 3"] := by
  have hassemble : (assemble ["ADD 1", "1 DAT 3"] "f").map Program.tags =
      .ok overOwnNumber.tags := by
    decide +kernel
  obtain ⟨p, hp, htags⟩ := exists_of_map_eq_ok hassemble
  have hown : ("1", 1) ∈ p.tags.entries := htags.symm ▸ List.mem_cons_self
  have hgood : ¬Misnamed p.tags "1" := by
    rintro ⟨-, own, hmem, hne⟩
    rw [htags] at hmem
    obtain rfl : own = 1 := by simpa [overOwnNumber] using hmem
    exact hne (by decide)
  have hvar : words "var 1" = ["var", "1"] := by decide +kernel
  obtain ⟨t, text, hexecute, hleaves, -, htext⟩ := (labels_are_own_tags Rehearsal.host
    Rehearsal.host_observed hp htags.symm (Later.refl.execute 0 fun _ _ => not_false) 0 "var 1").2.1
      "1" hvar (by decide +kernel) hgood
  refine ⟨t, hexecute, ?_⟩
  rw [hleaves.shown, htext 1 hown]
  decide +kernel

/-- A session over a program whose only box has the number of another one for a tag. -/
def overOtherNumber : Session Rehearsal :=
  { execution := { machine := { memory := .ofWords [Word.wrap 3] }, world := {} }
    tags := ⟨[("5", 0)]⟩ }

/-- The tag stands for box 0 and is shown with box 5. -/
theorem other_number_mislabelled :
    (∃ p, assemble ["5 DAT 3"] "f" = .ok p ∧ overOtherNumber.tags = p.tags ∧
      overOtherNumber.machine.memory = p.image) ∧
      (overOtherNumber.execute Rehearsal.host 0 "var 5").2.execution.world.echoed.toList =
        [labelled 5 "5" 0] ∧
      ¬Truthful overOtherNumber.tags overOtherNumber.machine (labelled 5 "5" 0) ∧
      ("5", 0) ∈ overOtherNumber.tags.entries := by
  refine ⟨?_, by decide +kernel, fun htruth => ?_, List.mem_cons_self⟩
  · have hassemble : (assemble ["5 DAT 3"] "f").map (fun p => (p.tags, p.image)) =
        .ok (overOtherNumber.tags, overOtherNumber.machine.memory) := by
      decide +kernel
    obtain ⟨p, hp, hparts⟩ := exists_of_map_eq_ok hassemble
    obtain ⟨htags, himage⟩ := Prod.mk.inj hparts
    exact ⟨p, hp, htags.symm, himage.symm⟩
  · have hmem := (htruth 5 "5" 0 rfl).1
    exact absurd hmem (by decide)

end LittleMan.Debugger
