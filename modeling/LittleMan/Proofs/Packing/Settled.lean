/-
Packing what was packed changes nothing.

A source stays as it is if its program fits in memory, no statement of it has an edit, and no line
ends with a blank. Packing makes such a source of any other: what it drops it turns into comments,
what it rewrites refers to nothing, and what it keeps refers to no box that is given up. For the
last, the boxes have to be the same ones the second time, and they are, since the image is.

* `Packing.Settled`: a source in which there is nothing to pack;
* `pack_of_settled`: packing leaves it as it is;
* `settled_text`: a packed text is such a source;
* `pack_idempotent`: so to pack twice is to pack once.
-/
import LittleMan.Proofs.Packing.Layout
namespace LittleMan

open Text

namespace Packing

/-- A source, with its program, in which there is nothing to pack. -/
structure Settled (p : Program) (source : List String) : Prop where
  complete : p.dropped = none
  kept : ∀ i s, p.statements[i]? = some s → editOf p i s = .keep
  trimmed : ∀ l ∈ source, trimEnd l.toList = l.toList

/-! ### Nothing to pack -/

section Fixed

variable {p : Program} {source : List String}

theorem editAt_of_settled (h : Settled p source) (l : String × Nat) : editAt p l = .keep := by
  rw [editAt]
  split
  · next edit hlook =>
    obtain ⟨⟨s, i⟩, hs, he⟩ := List.mem_map.mp (mem_of_lookup_eq_some hlook)
    obtain ⟨-, rfl⟩ := Prod.mk.inj he
    exact h.kept i s (List.mk_mem_zipIdx_iff_getElem?.mp hs)
  · rw [isDropped, Program.truncated, h.complete]
    rfl

theorem edited_of_settled (h : Settled p source) : edited p source = source := by
  have hline : ∀ l ∈ source.zipIdx 1, editLine l.1 (editAt p l) = l.1 := by
    intro l hl
    rw [editAt_of_settled h, editLine, h.trimmed l.1 (List.fst_mem_of_mem_zipIdx hl),
      String.ofList_toList]
  rw [edited, List.map_congr_left hline]
  exact List.zipIdx_map_fst 1 source

theorem numbersOf_of_settled (h : Settled p source) {which : Edit → Bool}
    (hkeep : which .keep = false) : numbersOf which (plan p source) = [] := by
  refine List.eq_nil_iff_forall_not_mem.mpr fun n hn => ?_
  obtain ⟨raw, -, hwhich⟩ := mem_numbersOf.mp hn
  rw [editAt_of_settled h, hkeep] at hwhich
  exact absurd hwhich (by simp)

theorem saved_of_settled (h : Settled p source) : saved p = 0 := by
  rw [saved, List.countP_eq_zero]
  intro e he
  obtain ⟨⟨s, i⟩, hs, rfl⟩ := List.mem_map.mp he
  have hkept := h.kept i s (List.mk_mem_zipIdx_iff_getElem?.mp hs)
  simp [hkept, isComment]

/-- Where there is nothing to pack, nothing is done. -/
theorem pack_of_settled (h : Settled p source) :
    (p.pack source false).text = unlines source ∧ (p.pack source false).amendedLines = [] ∧
      (p.pack source false).omittedLines = [] ∧ (p.pack source false).saved = 0 := by
  refine ⟨?_, numbersOf_of_settled h rfl, numbersOf_of_settled h rfl, saved_of_settled h⟩
  rw [text_pack, edited_of_settled h]
  rfl

end Fixed

/-! ### What packing leaves -/

section Left

variable {p : Program} {source : List String} {filename : String} {ss : List Statement}

/-- Behind the last box that is not zero there are no tags that were not there before. -/
theorem packableTags_packedProgram (h : p.IsAssemblyOf source filename)
    (hr : List.Forall₂ (Remains p) (remaining p) ss) (name : String) :
    packableTags (packedProgram p ss name) ⊆ packableTags p := by
  intro tag hm
  obtain ⟨j, s', hs', htag, hj⟩ := (mem_packableTags_iff rfl).mp hm
  obtain ⟨s, i, hs, -, hremains⟩ := exists_remains hr hs'
  refine (mem_packableTags_iff h.tags).mpr ⟨i, s, hs, hremains.tag_eq ▸ htag, ?_⟩
  -- up to that box the tag would have kept its address
  by_contra hle
  obtain ⟨t', ht', hremains'⟩ := getElem?_of_le h hr (not_lt.mp hle) hs
  have hnd := h.distinct.sublist (tagsOf_sublist hr)
  have hsame := Draft.index_of_tag_unique hnd ht' (hremains'.tag_eq.trans (hremains.tag_eq ▸ htag))
    hs' htag
  exact hle (hsame ▸ hj)

/-- A statement that remains needs no edit. -/
theorem editOf_packedProgram (h : p.IsAssemblyOf source filename)
    (hr : List.Forall₂ (Remains p) (remaining p) ss) (name : String) {j : Nat} {s' : Statement}
    (hs' : ss[j]? = some s') : editOf (packedProgram p ss name) j s' = .keep := by
  have hlast : (packedProgram p ss name).lastNonzero = p.lastNonzero := rfl
  rw [editOf]
  split
  · rfl
  · next operand ho =>
    -- with an operand it is no halt, so it stands where statements keep their addresses
    have hle : (j : Int) ≤ p.lastNonzero := by
      by_contra hlt
      obtain ⟨-, hnone⟩ := halt_of_lt h hr (not_le.mp hlt) hs'
      exact absurd (ho.symm.trans hnone) (by simp)
    have hrefers : (s'.opcode.takesTag &&
        (packableTags (packedProgram p ss name)).contains operand.text) = false := by
      obtain ⟨s, i, hs, -, hremains⟩ := exists_remains hr hs'
      cases hremains with
      | patched _ _ hc => rw [hc]; rfl
      | kept he _ hc ho' =>
        refine Bool.eq_false_iff.mpr fun hboth => ?_
        obtain ⟨htakes, hm⟩ := Bool.and_eq_true_iff.mp hboth
        exact not_packable_of_keep he (hc ▸ htakes) (ho'.symm.trans ho)
          (packableTags_packedProgram h hr name (List.contains_iff_mem.mp hm))
    rw [hrefers, hlast, if_neg (not_lt.mpr hle)]
    rfl

/-- No line ends with a blank after its edit. -/
theorem trimEnd_editLine (h : p.IsAssemblyOf source filename)
    (hlines : ∀ l ∈ source, IsLine l.toList) {l : String × Nat} (hl : l ∈ source.zipIdx 1) :
    trimEnd (editLine l.1 (editAt p l)).toList = (editLine l.1 (editAt p l)).toList := by
  have hkeep : trimEnd (editLine l.1 .keep).toList = (editLine l.1 .keep).toList := by
    rw [editLine, String.toList_ofList, trimEnd_trimEnd]
  have hcomment : Statement.isCode l.1 = true → ∀ tag,
      trimEnd (editLine l.1 (.comment tag)).toList = (editLine l.1 (.comment tag)).toList := by
    intro hcode tag
    rw [editLine_comment, String.toList_append, String.toList_ofList]
    exact trimEnd_append_trim (Statement.not_allBlank_of_isCode hcode) _
  rcases editAt_cases h hlines hl with ⟨-, hedit⟩ | ⟨i, s, -, hread, hedit⟩ | ⟨hm, hedit⟩
  · rw [hedit]
    exact hkeep
  · rw [hedit]
    cases he : editOf p i s with
    | keep => exact hkeep
    | comment tag => exact hcomment (Statement.isCode_of_parse hread) tag
    | patch word tag =>
      obtain ⟨-, rfl, -⟩ := editOf_eq_patch he
      obtain ⟨rest, -, hrest, hline⟩ := exists_editLine_patch hread word
      rw [hline, Statement.dataLine, String.toList_append, String.toList_ofList]
      exact trimEnd_append_trim hrest _
  · rw [codeLines_of_isLine hlines] at hm
    rw [hedit]
    exact hcomment (List.mem_filter.mp ((List.drop_sublist 100 _).subset hm)).2 none

/-- In a packed text there is nothing to pack. -/
theorem settled_text (h : p.IsAssemblyOf source filename)
    (hlines : ∀ l ∈ source, IsLine l.toList)
    (hr : List.Forall₂ (Remains p) (remaining p) ss) (name : String) :
    Settled (packedProgram p ss name) (lines (p.pack source false).text) := by
  refine { complete := rfl, kept := fun j s' hs' => editOf_packedProgram h hr name hs',
           trimmed := fun l hl => ?_ }
  rw [text_pack] at hl
  rcases mem_lines_unlines (isLine_edited hlines fun l _ => keepable_editAt h l) hl with hl | rfl
  · obtain ⟨l', hl', rfl⟩ := List.mem_map.mp hl
    exact trimEnd_editLine h hlines hl'
  · rfl

end Left

end Packing

/-- Packing is idempotent: without a notice, a packed text is packed into itself. The second time no
line is rewritten or left out and no box is saved, and the last box that is not zero is always the
same one. -/
theorem pack_idempotent {source filename : String} {p : Program}
    (h : assemble (lines source) filename = .ok p) :
    ∃ packed, pack (lines source) filename false = .ok packed ∧
      packed.lastNonzero = p.lastNonzero ∧
      ∀ name, ∃ q, assemble (lines packed.text) name = .ok q ∧ q.lastNonzero = p.lastNonzero ∧
        ∃ again, pack (lines packed.text) name false = .ok again ∧ again.text = packed.text ∧
          again.amendedLines = [] ∧ again.omittedLines = [] ∧ again.saved = 0 ∧
          again.lastNonzero = packed.lastNonzero := by
  have hp := assemble_eq_ok_iff.mp h
  have hlines : ∀ l ∈ lines source, IsLine l.toList := fun l hl => isLine_of_mem_lines hl
  refine ⟨_, pack_of_assemble h false, rfl, fun name => ?_⟩
  obtain ⟨ss, hr, hq⟩ := Packing.exists_assemble_packed hp hlines false name
  refine ⟨_, hq, rfl, _, pack_of_assemble hq false, ?_⟩
  obtain ⟨htext, hamended, homitted, hsaved⟩ :=
    Packing.pack_of_settled (Packing.settled_text hp hlines hr name)
  refine ⟨htext.trans ?_, hamended, homitted, hsaved, rfl⟩
  rw [Packing.text_pack]
  exact unlines_lines_unlines (Packing.isLine_edited hlines fun l _ => Packing.keepable_editAt hp l)

/-- Two references to zeros at the end: a halt, which stays, and data, which does not. Some lines
end with blanks. -/
def sumSource : String := "go STO sum \n\tBRZ end\n\tOUT\t\n \nend HLT\nsum DAT 0\n"

theorem pack_idempotent_sum :
    ∃ p, assemble (lines sumSource) "sum" = .ok p ∧
      (pack (lines sumSource) "sum" false).map
        (fun packed => (packed.amendedLines, packed.omittedLines, packed.lastNonzero)) =
        .ok ([1, 2], [6], 2) ∧
      ∃ packed, pack (lines sumSource) "sum" false = .ok packed ∧
        packed.lastNonzero = p.lastNonzero ∧
        ∀ name, ∃ q, assemble (lines packed.text) name = .ok q ∧ q.lastNonzero = p.lastNonzero ∧
          ∃ again, pack (lines packed.text) name false = .ok again ∧ again.text = packed.text ∧
            again.amendedLines = [] ∧ again.omittedLines = [] ∧ again.saved = 0 ∧
            again.lastNonzero = packed.lastNonzero := by
  have hrun : (assemble (lines sumSource) "sum").map (fun p => p.size) = .ok 5 := by
    decide +kernel
  obtain ⟨p, hp, -⟩ := exists_of_map_eq_ok hrun
  exact ⟨p, hp, by decide +kernel, pack_idempotent hp⟩

end LittleMan
