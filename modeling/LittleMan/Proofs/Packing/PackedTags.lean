/-
The tags that packing reports, and those that are lost.

A tag is reported if its box lies behind the last one that is not zero. Declarations there have an
operand and become comments, but a halt without an operand stays, and so does its tag. The report
names such tags too.

* `Packing.elidedTags`: the tags that a packed program has lost;
* `Packing.haltTags`: the tags of halts that stay behind the last box that is not zero;
* `packedTags_exact`: what is reported besides the former is just the latter;
* `packedTags_ne_elidedTags`: so not all that is reported is lost.
-/
import LittleMan.Proofs.Packing
namespace LittleMan

open Text

namespace Packing

/-- The tags of a program that another one does not define. -/
def elidedTags (p q : Program) : List String := p.tags.names.filter (· ∉ q.tags.names)

/-- The tags of halts without an operand behind the last box that is not zero. -/
def haltTags (p : Program) : List String :=
  (p.statements.zipIdx.filter fun (s, i) =>
    p.lastNonzero < i && s.opcode == .hlt && s.operand.isNone).filterMap fun (s, _) => s.tag

section Tags

variable {p : Program} {source : List String} {filename : String} {ss : List Statement}

/-! ### Where a tag is found -/

theorem mem_names_packedProgram (hr : List.Forall₂ (Remains p) (remaining p) ss) {name : String}
    {t : String} :
    t ∈ (packedProgram p ss name).tags.names ↔
      ∃ (i : Nat) (s : Statement), p.statements[i]? = some s ∧ s.tag = some t ∧
        isComment (editOf p i s) = false := by
  have hnames : (packedProgram p ss name).tags.names = (remaining p).filterMap fun a => a.1.tag :=
    (Draft.map_fst_tagEntries 0 ss).trans (tagsOf_eq hr)
  rw [hnames, List.mem_filterMap]
  constructor
  · rintro ⟨⟨s, i⟩, hm, ht⟩
    obtain ⟨hs, hcomment⟩ := mem_remaining.mp hm
    exact ⟨i, s, hs, ht, hcomment⟩
  · rintro ⟨i, s, hs, ht, hcomment⟩
    exact ⟨(s, i), mem_remaining.mpr ⟨hs, hcomment⟩, ht⟩

theorem mem_haltTags {t : String} :
    t ∈ haltTags p ↔
      ∃ (i : Nat) (s : Statement), p.statements[i]? = some s ∧ s.tag = some t ∧
        p.lastNonzero < i ∧ s.opcode = .hlt ∧ s.operand = none := by
  rw [haltTags, List.mem_filterMap]
  simp only [List.mem_filter, Bool.and_eq_true, decide_eq_true_eq, beq_iff_eq,
    Option.isNone_iff_eq_none, and_assoc]
  constructor
  · rintro ⟨⟨s, i⟩, hm, hi, hc, ho, ht⟩
    exact ⟨i, s, List.mk_mem_zipIdx_iff_getElem?.mp hm, ht, hi, hc, ho⟩
  · rintro ⟨i, s, hs, ht, hi, hc, ho⟩
    exact ⟨(s, i), List.mk_mem_zipIdx_iff_getElem?.mpr hs, hi, hc, ho, ht⟩

/-! ### What is reported -/

/-- A tag is lost if its box is given up and no halt carries it. -/
theorem not_mem_names_packedProgram (h : p.IsAssemblyOf source filename)
    (hr : List.Forall₂ (Remains p) (remaining p) ss) (name : String) {i : Nat} {s : Statement}
    {t : String} (hs : p.statements[i]? = some s) (ht : s.tag = some t) :
    t ∉ (packedProgram p ss name).tags.names ↔ t ∉ haltTags p ∧ p.lastNonzero < (i : Int) := by
  rw [mem_names_packedProgram hr, mem_haltTags, Draft.exists_tag_iff h.distinct hs ht,
    Draft.exists_tag_iff h.distinct hs ht, Bool.not_eq_false, isComment_editOf_iff h hs]
  rcases le_or_gt (i : Int) p.lastNonzero with hle | hlt
  · simp [not_lt.mpr hle]
  · rcases editOf_of_lt h hs hlt with ⟨hc, ho, -⟩ | ⟨⟨operand, ho⟩, -⟩
    · simp [hc, ho, hlt]
    · simp [ho, hlt]

/-- But for the tags of halts, the tags that are given up are those that are lost. -/
theorem packableTags_filter (h : p.IsAssemblyOf source filename)
    (hr : List.Forall₂ (Remains p) (remaining p) ss) (name : String) :
    (packableTags p).filter (· ∉ haltTags p) = elidedTags p (packedProgram p ss name) := by
  -- both sides choose from the same table
  have hlost : elidedTags p (packedProgram p ss name) =
      (p.tags.entries.filter fun e => e.1 ∉ (packedProgram p ss name).tags.names).map Prod.fst :=
    List.filter_map
  have hgiven : (packableTags p).filter (· ∉ haltTags p) =
      (p.tags.entries.filter fun e =>
        decide (e.1 ∉ haltTags p) && decide (p.lastNonzero < e.2)).map Prod.fst := by
    rw [packableTags, List.filter_map, List.filter_filter]
    rfl
  rw [hlost, hgiven]
  congr 1
  refine List.filter_congr fun e he => ?_
  rw [h.tags] at he
  obtain ⟨i, s, hs, ht, ha⟩ := Draft.mem_tagEntries.mp he
  rw [Nat.zero_add] at ha
  rw [ha, ← Bool.decide_and, decide_eq_decide]
  exact (not_mem_names_packedProgram h hr name hs ht).symm

/-- The tag of such a halt is given up, but not lost. -/
theorem mem_of_mem_haltTags (h : p.IsAssemblyOf source filename)
    (hr : List.Forall₂ (Remains p) (remaining p) ss) (name : String) {t : String}
    (hm : t ∈ haltTags p) :
    t ∈ packableTags p ∧ t ∈ (packedProgram p ss name).tags.names := by
  obtain ⟨i, s, hs, ht, hi, hc, ho⟩ := mem_haltTags.mp hm
  refine ⟨(mem_packableTags_iff h.tags).mpr ⟨i, s, hs, ht, hi⟩,
    (mem_names_packedProgram hr).mpr ⟨i, s, hs, ht, ?_⟩⟩
  rw [editOf, ho]
  rfl

end Tags

end Packing

/-- Besides the tags that are lost, in order, packing reports the tags of halts that stay behind the
last box that is not zero, so it reports what is lost if and only if there are none. -/
theorem packedTags_exact {source filename : String} {p : Program}
    (h : assemble (lines source) filename = .ok p) (notice : Bool) :
    ∃ packed, pack (lines source) filename notice = .ok packed ∧
      ∀ name, ∃ q, assemble (lines packed.text) name = .ok q ∧
        packed.packedTags.filter (· ∉ Packing.haltTags p) = Packing.elidedTags p q ∧
        (∀ tag ∈ Packing.haltTags p, tag ∈ packed.packedTags ∧ tag ∈ q.tags.names) ∧
        (packed.packedTags = Packing.elidedTags p q ↔ Packing.haltTags p = []) := by
  have hp := assemble_eq_ok_iff.mp h
  have hlines : ∀ l ∈ lines source, IsLine l.toList := fun l hl => isLine_of_mem_lines hl
  refine ⟨_, pack_of_assemble h notice, fun name => ?_⟩
  obtain ⟨ss, hr, hq⟩ := Packing.exists_assemble_packed hp hlines notice name
  have hfilter := Packing.packableTags_filter hp hr name
  have hhalts := fun tag => Packing.mem_of_mem_haltTags hp hr name (t := tag)
  refine ⟨_, hq, hfilter, hhalts, ?_⟩
  show Packing.packableTags p = _ ↔ _
  constructor
  · intro heq
    refine List.eq_nil_iff_forall_not_mem.mpr fun tag hm => ?_
    obtain ⟨hpackable, hdefined⟩ := hhalts tag hm
    rw [heq] at hpackable
    exact of_decide_eq_true (List.mem_filter.mp hpackable).2 hdefined
  · intro hnone
    rw [← hfilter, hnone]
    simp

/-- A halt with a tag, and a zero with one, behind the only word that is not zero. -/
def restSource : String := "\tOUT\nend\tHLT\nsum\tDAT\t0\n"

theorem packedTags_exact_rest :
    ∃ p, assemble (lines restSource) "rest" = .ok p ∧ Packing.haltTags p = ["end"] ∧
      ∃ packed, pack (lines restSource) "rest" true = .ok packed ∧
        ∀ name, ∃ q, assemble (lines packed.text) name = .ok q ∧
          packed.packedTags.filter (· ∉ Packing.haltTags p) = Packing.elidedTags p q ∧
          (∀ tag ∈ Packing.haltTags p, tag ∈ packed.packedTags ∧ tag ∈ q.tags.names) ∧
          (packed.packedTags = Packing.elidedTags p q ↔ Packing.haltTags p = []) := by
  have hrun : (assemble (lines restSource) "rest").map Packing.haltTags = .ok ["end"] := by
    decide +kernel
  obtain ⟨p, hp, hhalts⟩ := exists_of_map_eq_ok hrun
  exact ⟨p, hp, hhalts, packedTags_exact hp true⟩

/-- Nothing but such a halt: it is reported, and nothing is lost. -/
def haltSource : String := "\tOUT\nend\tHLT\n"

theorem packedTags_ne_elidedTags :
    ∃ p packed q, assemble (lines haltSource) "halt" = .ok p ∧
      pack (lines haltSource) "halt" false = .ok packed ∧
      assemble (lines packed.text) "halt" = .ok q ∧
      packed.packedTags = ["end"] ∧ q.tags.names = ["end"] ∧
      packed.packedTags ≠ Packing.elidedTags p q := by
  have hrun : (do
      let p ← assemble (lines haltSource) "halt"
      let packed ← pack (lines haltSource) "halt" false
      let q ← assemble (lines packed.text) "halt"
      return (packed.packedTags, q.tags.names, Packing.elidedTags p q)) =
      .ok (["end"], ["end"], []) := by
    decide +kernel
  obtain ⟨p, hp, hrun⟩ := bind_eq_ok_iff.mp hrun
  obtain ⟨packed, hpacked, hrun⟩ := bind_eq_ok_iff.mp hrun
  obtain ⟨q, hq, hrun⟩ := bind_eq_ok_iff.mp hrun
  obtain ⟨hreported, hrun⟩ := Prod.mk.inj (Except.ok.inj hrun)
  obtain ⟨hdefined, helided⟩ := Prod.mk.inj hrun
  refine ⟨p, packed, q, hp, hpacked, hq, hreported, hdefined, ?_⟩
  rw [hreported, helided]
  simp

end LittleMan
