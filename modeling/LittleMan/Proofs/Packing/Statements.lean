/-
What packing leaves of the statements of a program.

* `editAt_cases`: the edit of a line is that of its statement; lines that were dropped become
  comments, and lines without code stay;
* `editOf_of_lt`: behind the last box that is not zero only halts without an operand stay;
* `Remains`: what a statement that does not become a comment turns into;
* `exists_statements`: the packed text is read as just what remains;
* `getElem?_of_le`, `halt_of_lt`: up to the last box that is not zero every statement remains at its
  address, and behind it nothing but halts.
-/
import LittleMan.Proofs.Assembly
import LittleMan.Proofs.Packing.Lines
namespace LittleMan

open Text

/-- Of related lists, a selection from one and the corresponding choices from the other, if both
leave out the same. -/
theorem exists_forall₂_filterMap {α β γ δ : Type} {R : α → β → Prop} {S : γ → δ → Prop}
    {T : β → δ → Prop} {f : α → Option γ} {keep : β → Bool} {as : List α} {bs : List β}
    (h : List.Forall₂ R as bs) (hnone : ∀ a b, R a b → keep b = false → f a = none)
    (hsome : ∀ a b, R a b → keep b = true → ∃ c d, f a = some c ∧ S c d ∧ T b d) :
    ∃ ds, List.Forall₂ S (as.filterMap f) ds ∧ List.Forall₂ T (bs.filter keep) ds := by
  induction h with
  | nil => exact ⟨[], .nil, .nil⟩
  | @cons a b as bs hab _ ih =>
    obtain ⟨ds, hs, ht⟩ := ih
    cases hk : keep b with
    | false =>
      refine ⟨ds, ?_, ?_⟩
      · rw [List.filterMap_cons_none (hnone a b hab hk)]
        exact hs
      · rw [List.filter_cons_of_neg (by simp [hk])]
        exact ht
    | true =>
      obtain ⟨c, d, hf, hcd, hbd⟩ := hsome a b hab hk
      refine ⟨d :: ds, ?_, ?_⟩
      · rw [List.filterMap_cons_some hf]
        exact .cons hcd hs
      · rw [List.filter_cons_of_pos hk]
        exact .cons hbd ht

namespace Packing

/-! ### The last box that is not zero -/

theorem lastNonzero_cases (p : Program) :
    (p.lastNonzero = -1 ∧ ∀ a, p.image.get a = 0) ∨
      ∃ last : Address, p.lastNonzero = last.val ∧ p.image.get last ≠ 0 ∧
        ∀ a : Address, last.val < a.val → p.image.get a = 0 := by
  rw [Program.lastNonzero]
  cases hf : (List.finRange 100).reverse.find? fun a => (p.image.get a).val ≠ 0 with
  | none =>
    refine .inl ⟨rfl, fun a => Fin.ext ?_⟩
    have := List.find?_eq_none.mp hf a (by simp)
    simpa using this
  | some last =>
    obtain ⟨hlast, above, below, heq, habove⟩ := List.find?_eq_some_iff_append.mp hf
    refine .inr ⟨last, rfl, fun he => ?_, fun a ha => Fin.ext ?_⟩
    · rw [he] at hlast
      exact absurd hlast (by decide)
    · have hsorted : (above ++ last :: below).Pairwise (· > ·) := by
        rw [← heq, List.pairwise_reverse]
        exact List.pairwise_lt_finRange 100
      have hm : a ∈ above ++ last :: below := by
        rw [← heq]
        simp
      -- the boxes before `last` in the list are those above it
      rcases List.mem_append.mp hm with hm | hm
      · simpa using habove a hm
      · have hle : a.val ≤ last.val := by
          rcases List.mem_cons.mp hm with rfl | hm
          · exact Nat.le_refl _
          · exact Nat.le_of_lt
              (List.rel_of_pairwise_cons (List.pairwise_append.mp hsorted).2.1 hm)
        omega

/-- Memory is zero above the last box that is not. -/
theorem get_of_lastNonzero_lt {p : Program} {a : Address} (h : p.lastNonzero < a.val) :
    p.image.get a = 0 := by
  rcases lastNonzero_cases p with ⟨_, hz⟩ | ⟨last, he, _, hz⟩
  · exact hz a
  · rw [he, Int.ofNat_lt] at h
    exact hz a h

/-- The last box that is not zero belongs to a statement. -/
theorem lastNonzero_lt {p : Program} {source : List String} {filename : String}
    (h : p.IsAssemblyOf source filename) : p.lastNonzero < p.statements.length := by
  rcases lastNonzero_cases p with ⟨he, _⟩ | ⟨last, he, hne, _⟩
  · omega
  · rw [he, Int.ofNat_lt]
    by_contra hge
    exact hne (h.zeros last (Nat.not_lt.mp hge))

/-! ### Edits -/

theorem editOf_eq_patch {p : Program} {i : Nat} {s : Statement} {word : Word}
    {tag : Option String} (h : editOf p i s = .patch word tag) :
    word = p.image.read i ∧ tag = s.tag ∧ s.opcode.takesTag = true := by
  rw [editOf] at h
  split at h
  · exact absurd h (by simp)
  · split at h
    · next hcond =>
      obtain ⟨rfl, rfl⟩ := Edit.patch.inj h
      exact ⟨rfl, rfl, (Bool.and_eq_true_iff.mp hcond).1⟩
    · split at h <;> exact absurd h (by simp)

theorem isComment_editOf_of_le {p : Program} {i : Nat} (h : (i : Int) ≤ p.lastNonzero)
    (s : Statement) : isComment (editOf p i s) = false := by
  rw [editOf]
  split
  · rfl
  · split
    · rfl
    · rw [if_neg (by omega)]
      rfl

/-- A statement that packing keeps refers to no box that it gives up. -/
theorem not_packable_of_keep {p : Program} {i : Nat} {s : Statement} {operand : Field}
    (h : editOf p i s = .keep) (ht : s.opcode.takesTag = true) (ho : s.operand = some operand) :
    operand.text ∉ packableTags p := by
  intro hm
  rw [editOf, ho] at h
  simp only [ht, Bool.true_and, List.contains_eq_mem, hm, decide_true, if_true] at h
  exact absurd h (by simp)

/-- The tags of boxes that are given up. -/
theorem mem_packableTags_iff {p : Program} (h : p.tags = ⟨Draft.tagEntries 0 p.statements⟩)
    {tag : String} :
    tag ∈ packableTags p ↔
      ∃ (i : Nat) (s : Statement), p.statements[i]? = some s ∧ s.tag = some tag ∧
        p.lastNonzero < i := by
  rw [packableTags, h]
  simp only [List.mem_map, List.mem_filter]
  constructor
  · rintro ⟨⟨t, a⟩, ⟨hm, ha⟩, rfl⟩
    obtain ⟨i, s, hs, ht, rfl⟩ := Draft.mem_tagEntries.mp hm
    exact ⟨i, s, hs, ht, by simpa using ha⟩
  · rintro ⟨i, s, hs, ht, hi⟩
    exact ⟨(tag, (i : Int)), ⟨Draft.mem_tagEntries.mpr ⟨i, s, hs, ht, by simp⟩, by simpa using hi⟩,
      rfl⟩

theorem fst_statementEdits (p : Program) :
    (statementEdits p).map Prod.fst = p.statements.map (·.location.line) := by
  conv_rhs => rw [← List.zipIdx_map_fst 0 p.statements, List.map_map]
  rw [statementEdits, List.map_map]
  rfl

section Edits

variable {p : Program} {source : List String} {filename : String}

/-- A number has an edit only as the line of a statement. -/
theorem lookup_eq_none (h : p.IsAssemblyOf source filename) {number : Nat}
    (hn : ∀ l ∈ (codeLines 1 source).take 100, l.2 ≠ number) :
    (statementEdits p).lookup (number : Int) = none := by
  rw [List.lookup_eq_none_iff]
  intro e he
  have hfst : e.1 ∈ p.statements.map (·.location.line) := by
    rw [← fst_statementEdits]
    exact List.mem_map_of_mem he
  rw [map_line_of_reads h.read] at hfst
  obtain ⟨l, hl, hle⟩ := List.mem_map.mp hfst
  rw [← hle, bne_iff_ne]
  exact fun heq => hn l hl (Int.ofNat_inj.mp heq.symm)

theorem editAt_of_read (h : p.IsAssemblyOf source filename) {i : Nat} {s : Statement}
    (hi : p.statements[i]? = some s) {l : String × Nat} (hl : Statement.Reads filename l s) :
    editAt p l = editOf p i s := by
  have hnd : ((statementEdits p).map Prod.fst).Nodup := by
    rw [fst_statementEdits]
    exact (pairwise_line_of_reads h.read).imp ne_of_lt
  have hmem : ((l.2 : Int), editOf p i s) ∈ statementEdits p := by
    rw [← (Statement.location_of_parse hl).2]
    exact List.mem_map.mpr ⟨(s, i), List.mk_mem_zipIdx_iff_getElem?.mpr hi, rfl⟩
  rw [editAt, (lookup_eq_some_iff_mem hnd).mpr hmem]

/-- Lines of code that were dropped become comments. -/
theorem editAt_of_dropped (h : p.IsAssemblyOf source filename) {l : String × Nat}
    (hl : l ∈ (codeLines 1 source).drop 100) : editAt p l = .comment none := by
  -- the line comes after all statements, so it has no edit of its own
  have hlater : ∀ l' ∈ (codeLines 1 source).take 100, l'.2 < l.2 := by
    have hp := List.pairwise_map.mp (pairwise_number_codeLines 1 source)
    rw [← List.take_append_drop 100 (codeLines 1 source)] at hp
    exact fun l' hl' => (List.pairwise_append.mp hp).2.2 l' hl' l hl
  have hcode : Statement.isCode l.1 = true :=
    (List.mem_filter.mp ((List.drop_sublist 100 _).subset hl)).2
  have htruncated : p.truncated = true := by
    rw [Program.truncated, h.dropped, Option.isSome_map, List.isSome_head?]
    simpa using List.ne_nil_of_mem hl
  have hlast : (p.statements.getLast?.any fun last => (l.2 : Int) > last.location.line) = true := by
    have hne : p.statements ≠ [] := by
      have hlen := h.read.length_eq
      have hpos := List.length_pos_of_mem hl
      rw [List.length_drop] at hpos
      rw [List.length_take] at hlen
      exact List.ne_nil_of_length_pos (by omega)
    obtain ⟨l', hl', hread⟩ := h.exists_reads (List.getLast_mem hne)
    rw [List.getLast?_eq_getLast_of_ne_nil hne, Option.any_some,
      (Statement.location_of_parse hread).2]
    simpa using hlater l' hl'
  rw [editAt, lookup_eq_none h fun l' hl' => Nat.ne_of_lt (hlater l' hl'), isDropped, htruncated,
    hcode, hlast]
  rfl

/-- Lines without code stay as they are. -/
theorem editAt_of_blank (h : p.IsAssemblyOf source filename)
    (hlines : ∀ l ∈ source, IsLine l.toList) {l : String × Nat} (hl : l ∈ source.zipIdx 1)
    (hcode : Statement.isCode l.1 = false) : editAt p l = .keep := by
  -- a statement on that line would make it a line of code
  have hnone : (statementEdits p).lookup (l.2 : Int) = none := by
    refine lookup_eq_none h fun l' hl' he => ?_
    have hm := (List.take_sublist 100 _).subset hl'
    rw [codeLines_of_isLine hlines, List.mem_filter] at hm
    obtain ⟨hm, hcode'⟩ := hm
    have hsame : l'.1 = l.1 := eq_of_mem_zipIdx (he ▸ hm) hl
    rw [hsame, hcode] at hcode'
    exact absurd hcode' (by simp)
  rw [editAt, hnone, isDropped, hcode, Bool.and_false, Bool.false_and]
  rfl

/-- The edit of any line: nothing is done to a line without code, a line that was read is edited as
its statement says, and a line of code that was dropped becomes a comment. -/
theorem editAt_cases (h : p.IsAssemblyOf source filename)
    (hlines : ∀ l ∈ source, IsLine l.toList) {l : String × Nat} (hl : l ∈ source.zipIdx 1) :
    (Statement.isCode l.1 = false ∧ editAt p l = .keep) ∨
      (∃ i s, p.statements[i]? = some s ∧ Statement.Reads filename l s ∧
        editAt p l = editOf p i s) ∨
      (l ∈ (codeLines 1 source).drop 100 ∧ editAt p l = .comment none) := by
  cases hcode : Statement.isCode l.1 with
  | false => exact .inl ⟨rfl, editAt_of_blank h hlines hl hcode⟩
  | true =>
    have hm : l ∈ (codeLines 1 source).take 100 ++ (codeLines 1 source).drop 100 := by
      rw [List.take_append_drop, codeLines_of_isLine hlines]
      exact List.mem_filter.mpr ⟨hl, hcode⟩
    rcases List.mem_append.mp hm with hm | hm
    · obtain ⟨i, hi⟩ := List.mem_iff_getElem?.mp hm
      obtain ⟨s, hs, hread⟩ := exists_getElem?_of_forall₂ h.read hi
      exact .inr (.inl ⟨i, s, hs, hread, editAt_of_read h hs hread⟩)
    · exact .inr (.inr ⟨hm, editAt_of_dropped h hm⟩)

/-- Behind the last box that is not zero there are halts without an operand, which stay, and data,
which is left out. -/
theorem editOf_of_lt (h : p.IsAssemblyOf source filename) {i : Nat} {s : Statement}
    (hs : p.statements[i]? = some s) (hi : p.lastNonzero < i) :
    (s.opcode = .hlt ∧ s.operand = none ∧ editOf p i s = .keep) ∨
      ((∃ operand, s.operand = some operand) ∧ editOf p i s = .comment s.tag) := by
  have hbox : i < 100 := Nat.lt_of_lt_of_le (List.getElem?_eq_some_iff.mp hs).1 h.length_le
  have hzero : p.image.get ⟨i, hbox⟩ = 0 := get_of_lastNonzero_lt hi
  have henc := h.encoded ⟨i, hbox⟩ s hs
  rw [hzero] at henc
  generalize hz : (0 : Word).val = n at henc
  cases henc with
  | input _ => exact absurd hz (by decide)
  | output _ => exact absurd hz (by decide)
  | halt hc ho => exact .inl ⟨hc, ho, by rw [editOf, ho]⟩
  | literal hc ho =>
    have htt : s.opcode.takesTag = false := by rcases hc with hc | hc <;> rw [hc] <;> rfl
    refine .inr ⟨⟨_, ho⟩, ?_⟩
    rw [editOf, ho, htt]
    exact if_pos hi
  | reference htt =>
    -- a reference is never zero
    have hbase := (Opcode.base_of_takesTag htt).2.1
    change 0 = _ at hz
    omega

/-- What becomes a comment is the data there. -/
theorem isComment_editOf_iff (h : p.IsAssemblyOf source filename) {i : Nat} {s : Statement}
    (hs : p.statements[i]? = some s) :
    isComment (editOf p i s) = true ↔ p.lastNonzero < i ∧ s.operand.isSome = true := by
  rcases le_or_gt (i : Int) p.lastNonzero with hle | hlt
  · rw [isComment_editOf_of_le hle]
    simp [not_lt.mpr hle]
  · rcases editOf_of_lt h hs hlt with ⟨-, ho, hkeep⟩ | ⟨⟨operand, ho⟩, hcomment⟩
    · rw [hkeep]
      simp [isComment, ho]
    · rw [hcomment]
      simp [isComment, ho, hlt]

theorem le_lastNonzero_of_patch (h : p.IsAssemblyOf source filename) {i : Nat} {s : Statement}
    (hs : p.statements[i]? = some s) {word : Word} {tag : Option String}
    (he : editOf p i s = .patch word tag) : (i : Int) ≤ p.lastNonzero := by
  by_contra hlt
  rcases editOf_of_lt h hs (not_le.mp hlt) with ⟨-, -, hkeep⟩ | ⟨-, hcomment⟩
  · exact absurd (hkeep.symm.trans he) (by simp)
  · exact absurd (hcomment.symm.trans he) (by simp)

theorem keepable_editAt (h : p.IsAssemblyOf source filename) (l : String × Nat) :
    Keepable (editAt p l) := by
  intro word tag he
  rw [editAt] at he
  split at he
  · next edit hlook =>
    have hm : ((l.2 : Int), edit) ∈ statementEdits p := mem_of_lookup_eq_some hlook
    obtain ⟨⟨s, i⟩, hs, hedit⟩ := List.mem_map.mp hm
    obtain ⟨_, hedit⟩ := Prod.mk.inj hedit
    obtain ⟨-, htag, -⟩ := editOf_eq_patch (hedit.trans he)
    obtain ⟨_, _, hread⟩ := h.exists_reads
      (List.mem_of_getElem? (List.mk_mem_zipIdx_iff_getElem?.mp hs))
    exact Statement.isName_of_tag hread tag htag.symm
  · split at he <;> exact absurd he (by simp)

end Edits

/-! ### What remains -/

/-- What a statement at an address becomes, if it does not become a comment. -/
inductive Remains (p : Program) : Statement × Nat → Statement → Prop where
  | kept {s s' : Statement} {i : Nat} (he : editOf p i s = .keep) (ht : s'.tag = s.tag)
      (hc : s'.opcode = s.opcode) (ho : s'.operand = s.operand) : Remains p (s, i) s'
  /-- A reference to a box that is given up becomes the word it had. -/
  | patched {s s' : Statement} {i : Nat} {word : Word} {tag : Option String}
      (he : editOf p i s = .patch word tag) (ht : s'.tag = s.tag) (hc : s'.opcode = .dat)
      (ho : s'.operand.map Field.text = some (padded 3 (p.image.read i).val)) :
      Remains p (s, i) s'

theorem Remains.tag_eq {p : Program} {a : Statement × Nat} {s' : Statement} (h : Remains p a s') :
    s'.tag = a.1.tag := by
  cases h with
  | kept _ ht => exact ht
  | patched _ ht => exact ht

/-- The statements that do not become comments, with their addresses. -/
def remaining (p : Program) : List (Statement × Nat) :=
  p.statements.zipIdx.filter fun a => !isComment (editOf p a.2 a.1)

theorem mem_remaining {p : Program} {a : Statement × Nat} :
    a ∈ remaining p ↔
      p.statements[a.2]? = some a.1 ∧ isComment (editOf p a.2 a.1) = false := by
  rw [remaining, List.mem_filter, List.mk_mem_zipIdx_iff_getElem?, Bool.not_eq_true']

/-- What remains, remains of a statement. -/
theorem exists_remains {p : Program} {ss : List Statement}
    (hr : List.Forall₂ (Remains p) (remaining p) ss) {j : Nat} {s' : Statement}
    (hs : ss[j]? = some s') :
    ∃ s i, p.statements[i]? = some s ∧ isComment (editOf p i s) = false ∧
      Remains p (s, i) s' := by
  obtain ⟨⟨s, i⟩, hget, hremains⟩ := exists_getElem?_of_forall₂ hr.flip hs
  obtain ⟨hs, hcomment⟩ := mem_remaining.mp (List.mem_of_getElem? hget)
  exact ⟨s, i, hs, hcomment, hremains⟩

/-- A line that does not become a comment is read as what remains of its statement. -/
theorem exists_reads_editLine {p : Program} {l : String × Nat} {s : Statement} {i : Nat}
    {filename : String} (hread : Statement.Reads filename l s) (hk : Keepable (editOf p i s))
    (hc : isComment (editOf p i s) = false) (shift : Nat) (name : String) :
    ∃ s', Statement.Reads name (editLine l.1 (editOf p i s), l.2 + shift) s' ∧
      Remains p (s, i) s' := by
  cases he : editOf p i s with
  | keep =>
    have hcode := Statement.isCode_of_parse hread
    rw [← String.ofList_toList (s := l.1)] at hcode
    have hshape := Statement.shape_trimEnd hcode
    rw [String.ofList_toList] at hshape
    exact ⟨_, Statement.parse_of_shape hshape hread, .kept he rfl rfl rfl⟩
  | patch word tag =>
    obtain ⟨rfl, rfl, -⟩ := editOf_eq_patch he
    obtain ⟨s', hread', ht, hc', ho⟩ := Statement.parse_dataLine
      (fun t hm => hk _ t (by rw [he, show s.tag = some t from hm]))
      (isName_padded 3 (p.image.read i).val)
      (String.ofList (patchBody (trimEnd l.1.toList) s.tag)) ((l.2 + shift : Nat) : Int) name
    exact ⟨s', hread', .patched he ht hc' ho⟩
  | comment tag =>
    rw [he] at hc
    exact absurd hc (by simp [isComment])

/-- The lines of code of the packed text are read as what remains, one by one. -/
theorem exists_statements {p : Program} {source : List String} {filename : String}
    (h : p.IsAssemblyOf source filename) (hlines : ∀ l ∈ source, IsLine l.toList) (notice : Bool)
    (name : String) :
    ∃ ss, List.Forall₂ (Statement.Reads name)
        (codeLines 1 (lines (p.pack source notice).text)) ss ∧
      List.Forall₂ (Remains p) (remaining p) ss := by
  obtain ⟨shift, htext⟩ := codeLines_text notice hlines
    (fun l _ => keepable_editAt h l) (fun l hl hc => editAt_of_blank h hlines hl hc)
  -- nothing of what was dropped comes back
  have hdropped : ((codeLines 1 source).drop 100).filterMap (survivor (editAt p) shift) = [] := by
    rw [List.filterMap_eq_nil_iff]
    intro l hl
    rw [survivor, editAt_of_dropped h hl]
    rfl
  -- the first hundred lines of code go with the statements and their addresses
  have hpairs : List.Forall₂ (fun l (a : Statement × Nat) =>
      Statement.Reads filename l a.1 ∧ editAt p l = editOf p a.2 a.1)
      ((codeLines 1 source).take 100) p.statements.zipIdx := by
    refine List.forall₂_iff_get.mpr ⟨?_, fun i hi hi' => ?_⟩
    · rw [List.length_zipIdx]
      exact h.read.length_eq
    · have hlt : i < p.statements.length := by rwa [List.length_zipIdx] at hi'
      have hread := h.read.get hi hlt
      have hget : p.statements.zipIdx.get ⟨i, hi'⟩ = (p.statements.get ⟨i, hlt⟩, i) := by simp
      rw [hget]
      exact ⟨hread, editAt_of_read h (List.getElem?_eq_getElem hlt) hread⟩
  rw [htext, ← List.take_append_drop 100 (codeLines 1 source), List.filterMap_append, hdropped,
    List.append_nil]
  refine exists_forall₂_filterMap hpairs ?_ ?_
  · rintro l a ⟨_, hedit⟩ hc
    rw [survivor, hedit, if_pos (by simpa using hc)]
  · rintro l a ⟨hread, hedit⟩ hc
    have hc' : isComment (editOf p a.2 a.1) = false := by simpa using hc
    have hk := keepable_editAt h l
    rw [hedit] at hk
    obtain ⟨s', hs', hremains⟩ := exists_reads_editLine hread hk hc' shift name
    refine ⟨_, s', ?_, hs', hremains⟩
    rw [survivor, hedit, if_neg (by simp [hc'])]

/-! ### Addresses of what remains -/

section Addresses

variable {p : Program} {source : List String} {filename : String} {ss : List Statement}

/-- Everything up to the last box that is not zero remains; only then something is left out. -/
theorem remaining_eq (h : p.IsAssemblyOf source filename) :
    ∃ m : Nat, (m : Int) = p.lastNonzero + 1 ∧ m ≤ p.statements.length ∧
      remaining p = p.statements.zipIdx.take m ++
        (p.statements.zipIdx.drop m).filter fun a => !isComment (editOf p a.2 a.1) := by
  have hlast := lastNonzero_lt h
  have hpos : -1 ≤ p.lastNonzero := by
    rcases lastNonzero_cases p with ⟨he, _⟩ | ⟨last, he, _⟩ <;> omega
  obtain ⟨m, hm⟩ : ∃ m : Nat, (m : Int) = p.lastNonzero + 1 :=
    ⟨(p.lastNonzero + 1).toNat, by omega⟩
  refine ⟨m, hm, by omega, ?_⟩
  rw [remaining]
  conv_lhs => rw [← List.take_append_drop m p.statements.zipIdx, List.filter_append]
  congr 1
  rw [List.filter_eq_self]
  intro a ha
  obtain ⟨i, hi⟩ := List.mem_iff_getElem?.mp ha
  rw [List.getElem?_take, Option.ite_none_right_eq_some] at hi
  obtain ⟨hlt, hi⟩ := hi
  rw [List.getElem?_zipIdx, Option.map_eq_some_iff] at hi
  obtain ⟨s, _, rfl⟩ := hi
  rw [isComment_editOf_of_le (by omega)]
  rfl

/-- Up to the last box that is not zero every statement keeps its address. -/
theorem getElem?_of_le (h : p.IsAssemblyOf source filename)
    (hr : List.Forall₂ (Remains p) (remaining p) ss) {i : Nat} (hi : (i : Int) ≤ p.lastNonzero)
    {s : Statement} (hs : p.statements[i]? = some s) :
    ∃ s', ss[i]? = some s' ∧ Remains p (s, i) s' := by
  obtain ⟨m, hm, hfit, heq⟩ := remaining_eq h
  have hget : (remaining p)[i]? = some (s, i) := by
    rw [heq, List.getElem?_append_left (by rw [List.length_take, List.length_zipIdx]; omega),
      List.getElem?_take_of_lt (by omega), List.getElem?_zipIdx, hs]
    simp
  exact exists_getElem?_of_forall₂ hr hget

theorem Remains.halt {s s' : Statement} {i : Nat} (hremains : Remains p (s, i) s')
    (h : p.IsAssemblyOf source filename) (hs : p.statements[i]? = some s)
    (hi : p.lastNonzero < i) : s'.opcode = .hlt ∧ s'.operand = none := by
  rcases editOf_of_lt h hs hi with ⟨hc, ho, hkeep⟩ | ⟨-, hcomment⟩
  · cases hremains with
    | kept _ _ hc' ho' => exact ⟨hc'.trans hc, ho'.trans ho⟩
    | patched he => exact absurd (hkeep.symm.trans he) (by simp)
  · cases hremains with
    | kept he => exact absurd (hcomment.symm.trans he) (by simp)
    | patched he => exact absurd (hcomment.symm.trans he) (by simp)

/-- Behind the last box that is not zero only halts remain. -/
theorem halt_of_lt (h : p.IsAssemblyOf source filename)
    (hr : List.Forall₂ (Remains p) (remaining p) ss) {i : Nat} (hi : p.lastNonzero < i)
    {s' : Statement} (hs : ss[i]? = some s') : s'.opcode = .hlt ∧ s'.operand = none := by
  obtain ⟨m, hm, hfit, heq⟩ := remaining_eq h
  obtain ⟨⟨s, k⟩, hget, hremains⟩ := exists_getElem?_of_forall₂ hr.flip hs
  rw [heq, List.getElem?_append_right (by rw [List.length_take, List.length_zipIdx]; omega)] at hget
  have hmem := (List.mem_filter.mp (List.mem_of_getElem? hget)).1
  obtain ⟨j, hj⟩ := List.mem_iff_getElem?.mp hmem
  rw [List.getElem?_drop, List.getElem?_zipIdx, Option.map_eq_some_iff] at hj
  obtain ⟨_, hk, heq'⟩ := hj
  obtain ⟨rfl, rfl⟩ := Prod.mk.inj heq'
  rw [← Nat.zero_add (m + j)] at hk
  exact hremains.halt h hk (by omega)

end Addresses

end Packing

end LittleMan
