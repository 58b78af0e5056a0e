/-
Packing a program does not change it.

The packed text assembles, in full, to the image that it came from, and the tags up to the last box
that is not zero keep their addresses. Three facts carry this: up to that box every statement stays
at its address; whatever statement stays encodes to the word it had; and behind that box there is
nothing left but halts, whose word is zero.

* `Packing.isAssemblyOf_packed`: the program that the packed text assembles to;
* `assemble_text_of_pack`: the same for a source text that assembles.
-/
import LittleMan.Proofs.Packing.Statements
namespace LittleMan

open Text

namespace Packing

section Packed

variable {p : Program} {source : List String} {filename : String} {ss : List Statement}

/-- The tags of what remains are those it had. -/
theorem tagsOf_eq (hr : List.Forall₂ (Remains p) (remaining p) ss) :
    Draft.tagsOf ss = (remaining p).filterMap fun a => a.1.tag := by
  have htags : ss.map Statement.tag = (remaining p).map fun a => a.1.tag := by
    rw [← List.forall₂_eq_eq_eq, List.forall₂_map_left_iff, List.forall₂_map_right_iff]
    exact hr.flip.imp fun s a hs => hs.tag_eq
  have hof : ∀ {α : Type} (f : α → Option String) (l : List α),
      l.filterMap f = (l.map f).filterMap id := by
    intro α f l
    rw [List.filterMap_map]
    rfl
  rw [Draft.tagsOf, hof, htags, ← hof]

/-- Packing takes tags away but changes none. -/
theorem tagsOf_sublist (hr : List.Forall₂ (Remains p) (remaining p) ss) :
    (Draft.tagsOf ss).Sublist (Draft.tagsOf p.statements) := by
  have hsub : (remaining p).Sublist p.statements.zipIdx := List.filter_sublist
  rw [tagsOf_eq hr]
  conv_rhs => rw [← List.zipIdx_map_fst 0 p.statements, Draft.tagsOf, List.filterMap_map]
  exact hsub.filterMap _

theorem length_le_of_remains (hr : List.Forall₂ (Remains p) (remaining p) ss) :
    ss.length ≤ p.statements.length := by
  have hle : (remaining p).length ≤ p.statements.zipIdx.length := List.length_filter_le _ _
  rw [List.length_zipIdx] at hle
  exact hr.length_eq ▸ hle

/-- A statement that remains encodes to the word it had, if all that it may refer to stays where it
was. -/
theorem Remains.encodes {s s' : Statement} {i : Nat} {n : Nat} (hremains : Remains p (s, i) s')
    (htags : p.tags = ⟨Draft.tagEntries 0 p.statements⟩)
    (hnd : (Draft.tagsOf ss).Nodup)
    (hstay : ∀ (j : Nat) (t : Statement), (j : Int) ≤ p.lastNonzero → p.statements[j]? = some t →
      ∃ t', ss[j]? = some t' ∧ t'.tag = t.tag)
    (hn : (p.image.read i).val = n) (henc : s.Encodes p.statements n) : s'.Encodes ss n := by
  cases hremains with
  | patched _ _ hc ho =>
    obtain ⟨operand, ho', htext⟩ := Option.map_eq_some_iff.mp ho
    have hlt := (p.image.read i).isLt
    have hvalue : decimal operand.text.toList = n := by
      rw [htext, ← digitsValue_eq_decimal, digitsValue_padded, hn]
    rw [← hvalue]
    refine .literal (.inr hc) ho' ?_ ?_ ?_
    · rw [htext]
      exact isNumeral_padded 3 _
    · rw [htext, length_padded (by decide) (by omega)]
      decide
    · omega
  | kept he _ hc ho =>
    cases henc with
    | input h => exact .input (hc.trans h)
    | output h => exact .output (hc.trans h)
    | halt h hnone => exact .halt (hc.trans h) (ho.trans hnone)
    | literal h hsome hd hl hv =>
      exact .literal (by rw [hc]; exact h) (ho.trans hsome) hd hl hv
    | @reference operand j target h hsome hj ht hu =>
      -- the target is not given up, or the statement would not have been kept
      have hle : (j : Int) ≤ p.lastNonzero := by
        by_contra hlt
        exact not_packable_of_keep he h hsome
          ((mem_packableTags_iff htags).mpr ⟨j, target, hj, ht, not_le.mp hlt⟩)
      obtain ⟨target', hj', ht'⟩ := hstay j target hle hj
      have htag : target'.tag = some operand.text := ht'.trans ht
      rw [← hc]
      exact .reference (by rw [hc]; exact h) (ho.trans hsome) hj' htag
        fun k other hk hother => Draft.index_of_tag_unique hnd hj' htag hk hother

/-- The program that a packed text assembles to. -/
def packedProgram (p : Program) (ss : List Statement) (name : String) : Program :=
  { image := p.image, tags := ⟨Draft.tagEntries 0 ss⟩, statements := ss, dropped := none,
    filename := name }

theorem isAssemblyOf_packed (h : p.IsAssemblyOf source filename) (notice : Bool) {name : String}
    (hread : List.Forall₂ (Statement.Reads name)
      (codeLines 1 (lines (p.pack source notice).text)) ss)
    (hr : List.Forall₂ (Remains p) (remaining p) ss) :
    (packedProgram p ss name).IsAssemblyOf (lines (p.pack source notice).text) name := by
  have hnd := h.distinct.sublist (tagsOf_sublist hr)
  have hfit : (codeLines 1 (lines (p.pack source notice).text)).length ≤ 100 := by
    rw [hread.length_eq]
    exact (length_le_of_remains hr).trans h.length_le
  have hstay : ∀ (j : Nat) (t : Statement), (j : Int) ≤ p.lastNonzero →
      p.statements[j]? = some t → ∃ t', ss[j]? = some t' ∧ t'.tag = t.tag := by
    intro j t hj ht
    obtain ⟨t', ht', hremains⟩ := getElem?_of_le h hr hj ht
    exact ⟨t', ht', hremains.tag_eq⟩
  refine { read := ?_, distinct := hnd, encoded := ?_, zeros := ?_, tags := rfl, dropped := ?_,
           filename := rfl }
  · rw [List.take_of_length_le hfit]
    exact hread
  · intro a s' hs'
    show s'.Encodes ss (p.image.get a).val
    -- up to the last box that counts the statement is the old one, behind it there are halts
    rcases le_or_gt (a.val : Int) p.lastNonzero with hle | hlt
    · have hbound : a.val < p.statements.length := by
        have := lastNonzero_lt h
        omega
      have hs := List.getElem?_eq_getElem hbound
      obtain ⟨t', ht', hremains⟩ := getElem?_of_le h hr hle hs
      obtain rfl := Option.some_inj.mp (hs'.symm.trans ht')
      refine hremains.encodes h.tags hnd hstay ?_ (h.encoded a _ hs)
      rw [Memory.read, Address.wrap_coe]
    · obtain ⟨hc, ho⟩ := halt_of_lt h hr hlt hs'
      rw [get_of_lastNonzero_lt hlt]
      exact .halt hc ho
  · -- where the new statements end, the boxes that count have ended before
    intro a ha
    show p.image.get a = 0
    refine get_of_lastNonzero_lt (lt_of_not_ge fun hle => ?_)
    have hbound : a.val < p.statements.length := by
      have := lastNonzero_lt h
      omega
    obtain ⟨t', ht', _⟩ := getElem?_of_le h hr hle (List.getElem?_eq_getElem hbound)
    exact absurd (List.getElem?_eq_some_iff.mp ht').1 (Nat.not_lt.mpr ha)
  · rw [List.drop_of_length_le hfit]
    rfl

/-- The packed text assembles to what remains. -/
theorem exists_assemble_packed (h : p.IsAssemblyOf source filename)
    (hlines : ∀ l ∈ source, IsLine l.toList) (notice : Bool) (name : String) :
    ∃ ss, List.Forall₂ (Remains p) (remaining p) ss ∧
      assemble (lines (p.pack source notice).text) name = .ok (packedProgram p ss name) := by
  obtain ⟨ss, hread, hr⟩ := exists_statements h hlines notice name
  exact ⟨ss, hr, assemble_eq_ok_iff.mpr (isAssemblyOf_packed h notice hread hr)⟩

end Packed

end Packing

theorem pack_of_assemble {source : List String} {filename : String} {p : Program}
    (h : assemble source filename = .ok p) (notice : Bool) :
    pack source filename notice = .ok (p.pack source notice) := by
  rw [pack, h]
  rfl

/-- Packing preserves the program: whether or not a notice is put on top, the packed text assembles
in full to the same image, and tags up to the last box that is not zero keep their addresses. -/
theorem assemble_text_of_pack {source filename : String} {p : Program}
    (h : assemble (lines source) filename = .ok p) (notice : Bool) :
    ∃ packed, pack (lines source) filename notice = .ok packed ∧
      ∀ name, ∃ q, assemble (lines packed.text) name = .ok q ∧ q.truncated = false ∧
        q.image = p.image ∧
        ∀ tag address, p.tags.address? tag = some address → address ≤ p.lastNonzero →
          q.tags.address? tag = some address := by
  have hp := assemble_eq_ok_iff.mp h
  refine ⟨p.pack (lines source) notice, by rw [pack, h]; rfl, fun name => ?_⟩
  obtain ⟨ss, hread, hr⟩ :=
    Packing.exists_statements hp (fun l hl => isLine_of_mem_lines hl) notice name
  have hq := Packing.isAssemblyOf_packed hp notice hread hr
  refine ⟨Packing.packedProgram p ss name, assemble_eq_ok_iff.mpr hq, rfl, rfl, ?_⟩
  intro tag address ha hle
  rw [hp.tags] at ha
  obtain ⟨j, s, hs, ht, rfl⟩ := (Draft.address?_eq_some_iff hp.distinct).mp ha
  obtain ⟨s', hs', hremains⟩ := Packing.getElem?_of_le hp hr hle hs
  exact (Draft.address?_eq_some_iff hq.distinct).mpr ⟨j, s', hs', hremains.tag_eq.trans ht, rfl⟩

/-- References to storage that is given up and to storage that is not; one tag is a mnemonic. -/
def storageSource : String :=
  "lda x\nADD add y # sum\n\tOUT\n\tHLT\nx DAT 7\ny\tdat 0 # spare\n"

theorem assemble_text_of_pack_storage :
    ∃ p, assemble (lines storageSource) "storage" = .ok p ∧ p.lastNonzero = 4 ∧
      p.tags.entries = [("ADD", 1), ("x", 4), ("y", 5)] ∧
      ∃ packed, pack (lines storageSource) "storage" true = .ok packed ∧
        ∀ name, ∃ q, assemble (lines packed.text) name = .ok q ∧ q.truncated = false ∧
          q.image = p.image ∧
          ∀ tag address, p.tags.address? tag = some address → address ≤ p.lastNonzero →
            q.tags.address? tag = some address := by
  have hrun : (assemble (lines storageSource) "storage").map
      (fun p => (p.lastNonzero, p.tags.entries)) =
      .ok (4, [("ADD", 1), ("x", 4), ("y", 5)]) := by
    decide +kernel
  obtain ⟨p, hp, hout⟩ := exists_of_map_eq_ok hrun
  obtain ⟨hlast, htags⟩ := Prod.mk.inj hout
  exact ⟨p, hp, hlast, htags, assemble_text_of_pack hp true⟩

end LittleMan
