/-
What an assembled program owes to its source, in full.

`Program.AssembledFrom` adds to `Program.IsAssemblyOf` what follows for the order of the statements,
the shape of the tag table and the image: a statement's index is its address, found by its line; the
table holds the tags of the statements and nothing else, no tag and no address twice.

* `assembledFrom_of_assemble`: every assembly that succeeds keeps to it.
-/
import LittleMan.Proofs.Assembly
namespace LittleMan

/-- All that holds between a program and the source it was assembled from. -/
structure Program.AssembledFrom (lines : List String) (filename : String) (p : Program) : Prop
    extends p.IsAssemblyOf lines filename where
  /-- There are no more statements than boxes. -/
  fits : p.statements.length ≤ 100
  increasing : (p.statements.map (·.location.line)).Pairwise (· < ·)
  /-- A statement is found at its index by its line. -/
  addressed : ∀ (i : Nat) (s : Statement), p.statements[i]? = some s →
    p.addressOf s.location.line = some i
  /-- The table holds the tags of the statements, in their order, each with its index. -/
  entries : p.tags.entries = p.statements.zipIdx.filterMap fun (s, i) =>
    s.tag.map fun tag => (tag, (i : Int))
  distinctTags : (p.tags.entries.map Prod.fst).Nodup
  distinctAddresses : (p.tags.entries.map Prod.snd).Nodup
  words : p.image.toList.length = 100 ∧ ∀ w ∈ p.image.toList, w.val ≤ 999

theorem addressOf_of_pairwise {p : Program}
    (h : (p.statements.map (·.location.line)).Pairwise (· < ·)) {i : Nat} {s : Statement}
    (hi : p.statements[i]? = some s) : p.addressOf s.location.line = some i := by
  obtain ⟨hlt, rfl⟩ := List.getElem?_eq_some_iff.mp hi
  rw [Program.addressOf, List.findIdx?_eq_some_iff_getElem]
  refine ⟨hlt, by simp, fun j hj => ?_⟩
  -- no earlier statement stands on the same line
  have := List.pairwise_iff_getElem.mp (List.pairwise_map.mp h) j i (by omega) hlt hj
  simp only [beq_iff_eq]
  omega

theorem nodup_snd_tagEntries (ss : List Statement) :
    ((Draft.tagEntries 0 ss).map Prod.snd).Nodup := by
  have hlt : (ss.zipIdx.map Prod.snd).Pairwise (· < ·) := by
    rw [List.zipIdx_map_snd]
    exact List.pairwise_lt_range'
  rw [List.Nodup, List.pairwise_map, Draft.tagEntries, List.pairwise_filterMap]
  refine (List.pairwise_map.mp hlt).imp ?_
  rintro ⟨s, i⟩ ⟨u, j⟩ hij e he f hf
  obtain ⟨_, _, rfl⟩ := Option.map_eq_some_iff.mp he
  obtain ⟨_, _, rfl⟩ := Option.map_eq_some_iff.mp hf
  exact Int.ofNat_inj.not.mpr (Nat.ne_of_lt hij)

/-- An assembly that succeeds keeps faith with its source. -/
theorem assembledFrom_of_assemble {lines : List String} {filename : String} {p : Program}
    (h : assemble lines filename = .ok p) : p.AssembledFrom lines filename := by
  have hp := assemble_eq_ok_iff.mp h
  have hinc := pairwise_line_of_reads hp.read
  have hentries : p.tags.entries = Draft.tagEntries 0 p.statements :=
    congrArg TagTable.entries hp.tags
  refine { hp with
    fits := hp.length_le
    increasing := hinc
    addressed := fun i s hi => addressOf_of_pairwise hinc hi
    entries := hentries
    distinctTags := ?_
    distinctAddresses := ?_
    words := ⟨Memory.length_toList _, fun w _ => Nat.le_of_lt_succ w.isLt⟩ }
  · rw [hentries, Draft.map_fst_tagEntries]
    exact hp.distinct
  · rw [hentries]
    exact nodup_snd_tagEntries p.statements

/-- Tags before and after their use, an operand that does not count, and a halt that is data. -/
theorem assembledFrom_countdown :
    ∃ p, assemble ["loop in 7", "", "\tbrz Stop # leave", "\tBR loop", "Stop HLT", "stop hlt 042"]
        "countdown" = .ok p ∧
      p.AssembledFrom ["loop in 7", "", "\tbrz Stop # leave", "\tBR loop", "Stop HLT",
        "stop hlt 042"] "countdown" ∧
      p.image.toList.take 6 = [901, 703, 600, 0, 42, 0] ∧
      p.tags.entries = [("loop", 0), ("Stop", 3), ("stop", 4)] := by
  have hrun : (assemble ["loop in 7", "", "\tbrz Stop # leave", "\tBR loop", "Stop HLT",
      "stop hlt 042"] "countdown").map (fun p => (p.image.toList.take 6, p.tags.entries)) =
      .ok ([901, 703, 600, 0, 42, 0], [("loop", 0), ("Stop", 3), ("stop", 4)]) := by
    decide +kernel
  obtain ⟨p, hp, hout⟩ := exists_of_map_eq_ok hrun
  obtain ⟨himage, htags⟩ := Prod.mk.inj hout
  exact ⟨p, hp, assembledFrom_of_assemble hp, himage, htags⟩

end LittleMan
