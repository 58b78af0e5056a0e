/-
The packed text beside its source, line by line.

* `Packing.Amends`: what a line says that was rewritten as data;
* `Packing.LaidOut`: every line of the packed text is the line of the source with that number, as
  data, as a comment, or as it was but for the blanks at its end, and which lines are which;
* `isPatch_editAt_iff`, `isComment_editAt_iff`: the lines that are rewritten or left out;
* `saved_add_length`: boxes are saved where statements do not remain;
* `pack_layout`: packing keeps to both.
-/
import LittleMan.Proofs.Packing
namespace LittleMan

open Text

namespace Packing

/-- What a rewritten line owes to the statement that was there, at its address. -/
structure Amends (p : Program) (i : Nat) (s : Statement) (raw out : String) : Prop where
  statement : p.statements[i]? = some s
  address_le : (i : Int) ≤ p.lastNonzero
  /-- The line is read as data, under the old tag and with the word of the box. -/
  data : ∀ (line : Int) (name : String), ∃ d literal,
    Statement.parse out line name = .ok (some d) ∧ d.tag = s.tag ∧ d.opcode = .dat ∧
      d.operand = some literal ∧ isNumeral literal.text.toList = true ∧
      decimal literal.text.toList = (p.image.read i).val
  /-- The comment holds the line as it was, but for the tag. -/
  comment : ∃ rest, raw = s.tag.getD "" ++ rest ∧
    out = Statement.stripComment out ++ "# " ++ String.ofList (trim rest.toList)

/-- A statement that refers to a box behind the last one that is not zero. -/
def RefersBehind (p : Program) (s : Statement) : Prop :=
  s.opcode.takesTag = true ∧ ∃ operand a, s.operand = some operand ∧
    p.tags.address? operand.text = some a ∧ p.lastNonzero < a

/-- How a packed text lies beside its source. Lines are numbered from 1. -/
structure LaidOut (p : Program) (filename : String) (source : List String) (packed : Packed) :
    Prop where
  length : (lines packed.text).length = source.length
  /-- Rewritten are the statements that refer to a box that is given up. -/
  mem_amended : ∀ n, n ∈ packed.amendedLines ↔ ∃ raw s, (raw, n) ∈ source.zipIdx 1 ∧
    s ∈ p.statements ∧ Statement.Reads filename (raw, n) s ∧ RefersBehind p s
  /-- Left out is what gives such a box an operand, and the code that memory has no room for. -/
  mem_omitted : ∀ n, n ∈ packed.omittedLines ↔ ∃ raw, (raw, n) ∈ source.zipIdx 1 ∧
    ((raw, n) ∈ (codeLines 1 source).drop 100 ∨ ∃ (i : Nat) (s : Statement),
      p.statements[i]? = some s ∧ Statement.Reads filename (raw, n) s ∧ p.lastNonzero < i ∧
        s.operand.isSome = true)
  amended : ∀ n ∈ packed.amendedLines, ∃ raw out i s, (raw, n) ∈ source.zipIdx 1 ∧
    (out, n) ∈ (lines packed.text).zipIdx 1 ∧ Statement.Reads filename (raw, n) s ∧
    Amends p i s raw out
  /-- A line that was left out is a comment, which is no statement. -/
  omitted : ∀ n ∈ packed.omittedLines, ∃ raw out, (raw, n) ∈ source.zipIdx 1 ∧
    (out, n) ∈ (lines packed.text).zipIdx 1 ∧
    out = omittedMark ++ "\t" ++ String.ofList (trim raw.toList) ∧
    ∀ (line : Int) (name : String), Statement.parse out line name = .ok none
  kept : ∀ raw n, (raw, n) ∈ source.zipIdx 1 → n ∉ packed.amendedLines →
    n ∉ packed.omittedLines →
    (String.ofList (trimEnd raw.toList), n) ∈ (lines packed.text).zipIdx 1
  increasing : packed.amendedLines.Pairwise (· < ·) ∧ packed.omittedLines.Pairwise (· < ·)
  disjoint : packed.amendedLines.Disjoint packed.omittedLines

/-! ### Numbers of lines -/

theorem isPatch_eq_true_iff {edit : Edit} :
    isPatch edit = true ↔ ∃ word tag, edit = .patch word tag := by
  cases edit <;> simp [isPatch]

theorem isComment_eq_true_iff {edit : Edit} :
    isComment edit = true ↔ ∃ tag, edit = .comment tag := by
  cases edit <;> simp [isComment]

theorem plan_eq (p : Program) (source : List String) :
    plan p source = (source.zipIdx 1).map fun l => (l.2, l.1, editAt p l) := planFrom_eq p 1 source

theorem mem_numbersOf {p : Program} {source : List String} {which : Edit → Bool} {n : Nat} :
    n ∈ numbersOf which (plan p source) ↔
      ∃ raw, (raw, n) ∈ source.zipIdx 1 ∧ which (editAt p (raw, n)) = true := by
  rw [numbersOf, plan_eq]
  simp only [List.mem_map, List.mem_filter]
  constructor
  · rintro ⟨_, ⟨⟨⟨raw, n⟩, hm, rfl⟩, hwhich⟩, rfl⟩
    exact ⟨raw, hm, hwhich⟩
  · rintro ⟨raw, hm, hwhich⟩
    exact ⟨_, ⟨⟨(raw, n), hm, rfl⟩, hwhich⟩, rfl⟩

theorem pairwise_numbersOf (which : Edit → Bool) (p : Program) (source : List String) :
    (numbersOf which (plan p source)).Pairwise (· < ·) := by
  have hnumbers : (plan p source).map Prod.fst = List.range' 1 source.length := by
    rw [plan_eq, List.map_map]
    exact List.zipIdx_map_snd 1 source
  have hsub : (numbersOf which (plan p source)).Sublist (List.range' 1 source.length) := by
    rw [← hnumbers]
    exact List.filter_sublist.map Prod.fst
  exact (List.pairwise_lt_range').sublist hsub

/-- No line is both rewritten and left out. -/
theorem disjoint_numbersOf (p : Program) (source : List String) :
    (numbersOf isPatch (plan p source)).Disjoint (numbersOf isComment (plan p source)) := by
  intro n hpatch hcomment
  obtain ⟨raw, hraw, hpatch⟩ := mem_numbersOf.mp hpatch
  obtain ⟨raw', hraw', hcomment⟩ := mem_numbersOf.mp hcomment
  obtain rfl := eq_of_mem_zipIdx hraw hraw'
  obtain ⟨word, tag, hpatch⟩ := isPatch_eq_true_iff.mp hpatch
  rw [hpatch] at hcomment
  exact absurd hcomment (by simp [isComment])

/-! ### Which lines -/

section Which

variable {p : Program} {source : List String} {filename : String}

theorem isPatch_editOf_iff (h : p.IsAssemblyOf source filename) {i : Nat} {s : Statement} :
    isPatch (editOf p i s) = true ↔ RefersBehind p s := by
  have hpackable : ∀ tag, tag ∈ packableTags p ↔
      ∃ a, p.tags.address? tag = some a ∧ p.lastNonzero < a := by
    intro tag
    rw [mem_packableTags_iff h.tags, h.tags]
    simp only [Draft.address?_eq_some_iff h.distinct]
    constructor
    · rintro ⟨j, t, ht, htag, hj⟩
      exact ⟨j, ⟨j, t, ht, htag, rfl⟩, hj⟩
    · rintro ⟨_, ⟨j, t, ht, htag, rfl⟩, hj⟩
      exact ⟨j, t, ht, htag, hj⟩
  rw [RefersBehind, editOf]
  cases ho : s.operand with
  | none => simp [isPatch]
  | some operand =>
    have hfits : (s.opcode.takesTag && (packableTags p).contains operand.text) = true ↔
        s.opcode.takesTag = true ∧ ∃ a, p.tags.address? operand.text = some a ∧
          p.lastNonzero < a := by
      rw [Bool.and_eq_true, List.contains_iff_mem, hpackable]
    dsimp only
    split
    · next hrefers => simpa [isPatch] using hfits.mp hrefers
    · next hrefers =>
      have hnot := mt hfits.mpr hrefers
      split <;> simpa [isPatch] using hnot

theorem isPatch_editAt_iff (h : p.IsAssemblyOf source filename)
    (hlines : ∀ l ∈ source, IsLine l.toList) {l : String × Nat} (hl : l ∈ source.zipIdx 1) :
    isPatch (editAt p l) = true ↔
      ∃ s ∈ p.statements, Statement.Reads filename l s ∧ RefersBehind p s := by
  constructor
  · intro hpatch
    rcases editAt_cases h hlines hl with ⟨-, hkeep⟩ | ⟨i, s, hs, hread, hedit⟩ | ⟨-, hcomment⟩
    · rw [hkeep] at hpatch
      exact absurd hpatch (by simp [isPatch])
    · rw [hedit] at hpatch
      exact ⟨s, List.mem_of_getElem? hs, hread, (isPatch_editOf_iff h).mp hpatch⟩
    · rw [hcomment] at hpatch
      exact absurd hpatch (by simp [isPatch])
  · rintro ⟨s, hs, hread, hrefers⟩
    obtain ⟨i, hi⟩ := List.mem_iff_getElem?.mp hs
    rw [editAt_of_read h hi hread]
    exact (isPatch_editOf_iff h).mpr hrefers

theorem isComment_editAt_iff (h : p.IsAssemblyOf source filename)
    (hlines : ∀ l ∈ source, IsLine l.toList) {l : String × Nat} (hl : l ∈ source.zipIdx 1) :
    isComment (editAt p l) = true ↔
      l ∈ (codeLines 1 source).drop 100 ∨ ∃ (i : Nat) (s : Statement),
        p.statements[i]? = some s ∧ Statement.Reads filename l s ∧ p.lastNonzero < i ∧
          s.operand.isSome = true := by
  constructor
  · intro hcomment
    rcases editAt_cases h hlines hl with ⟨-, hkeep⟩ | ⟨i, s, hs, hread, hedit⟩ | ⟨hdropped, -⟩
    · rw [hkeep] at hcomment
      exact absurd hcomment (by simp [isComment])
    · rw [hedit] at hcomment
      exact .inr ⟨i, s, hs, hread, (isComment_editOf_iff h hs).mp hcomment⟩
    · exact .inl hdropped
  · rintro (hdropped | ⟨i, s, hs, hread, hbehind⟩)
    · rw [editAt_of_dropped h hdropped]
      rfl
    · rw [editAt_of_read h hs hread]
      exact (isComment_editOf_iff h hs).mpr hbehind

end Which

/-! ### Single lines -/

theorem mem_zipIdx_edited {p : Program} {source : List String} {raw : String} {n : Nat}
    (h : (raw, n) ∈ source.zipIdx 1) :
    (editLine raw (editAt p (raw, n)), n) ∈ (edited p source).zipIdx 1 := by
  obtain ⟨hn, hget⟩ := List.mk_mem_zipIdx_iff_le_and_getElem?_sub.mp h
  refine List.mk_mem_zipIdx_iff_le_and_getElem?_sub.mpr ⟨hn, ?_⟩
  rw [edited, List.getElem?_map, List.getElem?_zipIdx, hget, Option.map_some, Option.map_some,
    Nat.add_sub_cancel' hn]

/-- The tag in front is dropped, and the blanks on both sides of the rest. -/
theorem patchBody_trimEnd {tag : Option String} (ht : ∀ t ∈ tag, Statement.IsName t)
    (rest : String) :
    patchBody (trimEnd (tag.getD "" ++ rest).toList) tag = trim rest.toList := by
  cases tag with
  | none =>
    rw [Option.getD_none, String.empty_append]
    exact trimStart_trimEnd rest.toList
  | some t =>
    have hword : IsWord t.toList := (ht t rfl).1
    rw [Option.getD_some, String.toList_append, trimEnd_append_of_isWord hword]
    show trimStart ((trimStart (t.toList ++ trimEnd rest.toList)).drop t.length) = _
    rw [trimStart_append_of_isWord hword, ← String.length_toList, List.drop_left,
      trimStart_trimEnd]

section Lines

variable {p : Program} {source : List String} {filename : String}

/-- Only lines of statements become data. -/
theorem exists_statement_of_patch (h : p.IsAssemblyOf source filename)
    (hlines : ∀ l ∈ source, IsLine l.toList) {l : String × Nat} (hl : l ∈ source.zipIdx 1)
    {word : Word} {tag : Option String} (he : editAt p l = .patch word tag) :
    ∃ i s, p.statements[i]? = some s ∧ Statement.Reads filename l s ∧
      editOf p i s = .patch word tag := by
  rcases editAt_cases h hlines hl with ⟨-, hkeep⟩ | ⟨i, s, hs, hread, hedit⟩ | ⟨-, hcomment⟩
  · exact absurd (hkeep.symm.trans he) (by simp)
  · exact ⟨i, s, hs, hread, hedit.symm.trans he⟩
  · exact absurd (hcomment.symm.trans he) (by simp)

/-- A rewritten line keeps its tag in front, and all else for its comment. -/
theorem exists_editLine_patch {raw : String} {n : Nat} {s : Statement}
    (hread : Statement.Reads filename (raw, n) s) (word : Word) :
    ∃ rest, raw = s.tag.getD "" ++ rest ∧ ¬AllBlank rest.toList ∧
      editLine raw (.patch word s.tag) =
        Statement.dataLine s.tag (padded 3 word.val) (String.ofList (trim rest.toList)) := by
  obtain ⟨rest, rfl, hrest⟩ := Statement.exists_behind_tag hread
  refine ⟨rest, rfl, hrest, ?_⟩
  rw [editLine_patch, patchBody_trimEnd (Statement.isName_of_tag hread)]

theorem amends_of_patch (h : p.IsAssemblyOf source filename) {i : Nat} {s : Statement}
    (hs : p.statements[i]? = some s) {raw : String} {n : Nat}
    (hread : Statement.Reads filename (raw, n) s) {word : Word} {tag : Option String}
    (he : editOf p i s = .patch word tag) :
    Amends p i s raw (editLine raw (.patch word tag)) := by
  obtain ⟨rfl, rfl, -⟩ := editOf_eq_patch he
  have htag : ∀ t ∈ s.tag, Statement.IsName t := Statement.isName_of_tag hread
  have hname := isName_padded 3 (p.image.read i).val
  obtain ⟨rest, hraw, -, hline⟩ := exists_editLine_patch hread (p.image.read i)
  rw [hline]
  refine { statement := hs, address_le := le_lastNonzero_of_patch h hs he, data := ?_,
           comment := ⟨rest, hraw, Statement.stripComment_dataLine htag hname _⟩ }
  intro line name
  obtain ⟨d, hd, hdtag, hdat, hoperand⟩ := Statement.parse_dataLine htag hname
    (String.ofList (trim rest.toList)) line name
  obtain ⟨literal, hliteral, htext⟩ := Option.map_eq_some_iff.mp hoperand
  refine ⟨d, literal, hd, hdtag, hdat, hliteral, ?_, ?_⟩
  · rw [htext]
    exact isNumeral_padded 3 _
  · rw [htext, ← digitsValue_eq_decimal, digitsValue_padded]

theorem editLine_comment (raw : String) (tag : Option String) :
    editLine raw (.comment tag) = omittedMark ++ "\t" ++ String.ofList (trim raw.toList) := by
  rw [← trimStart_trimEnd]
  rfl

theorem parse_editLine_comment (raw : String) (tag : Option String) (line : Int) (name : String) :
    Statement.parse (editLine raw (.comment tag)) line name = .ok none := by
  rw [Statement.parse_eq_none_iff, isCode_editLine (by rintro _ _ ⟨⟩)]
  rfl

theorem lines_text_pack (h : p.IsAssemblyOf source filename) (hne : source ≠ [])
    (hlines : ∀ l ∈ source, IsLine l.toList) :
    lines (p.pack source false).text = edited p source := by
  rw [text_pack]
  refine lines_unlines ?_ (isLine_edited hlines fun l _ => keepable_editAt h l)
  simpa [heading, edited] using hne

/-- Without a notice, the packed text lies beside its source line by line. -/
theorem laidOut (h : p.IsAssemblyOf source filename) (hne : source ≠ [])
    (hlines : ∀ l ∈ source, IsLine l.toList) :
    LaidOut p filename source (p.pack source false) := by
  have htext := lines_text_pack h hne hlines
  refine { length := ?_, mem_amended := ?_, mem_omitted := ?_, amended := ?_, omitted := ?_,
           kept := ?_, increasing := ?_, disjoint := disjoint_numbersOf p source }
  · rw [htext, edited, List.length_map, List.length_zipIdx]
  · intro n
    refine mem_numbersOf.trans (exists_congr fun raw => ?_)
    rw [exists_and_left]
    exact and_congr_right fun hraw => isPatch_editAt_iff h hlines hraw
  · intro n
    refine mem_numbersOf.trans (exists_congr fun raw => ?_)
    exact and_congr_right fun hraw => isComment_editAt_iff h hlines hraw
  · intro n hn
    obtain ⟨raw, hraw, hpatch⟩ := mem_numbersOf.mp hn
    obtain ⟨word, tag, hpatch⟩ := isPatch_eq_true_iff.mp hpatch
    obtain ⟨i, s, hs, hread, hedit⟩ := exists_statement_of_patch h hlines hraw hpatch
    have hout := mem_zipIdx_edited (p := p) hraw
    rw [hpatch] at hout
    rw [htext]
    exact ⟨raw, _, i, s, hraw, hout, hread, amends_of_patch h hs hread hedit⟩
  · intro n hn
    obtain ⟨raw, hraw, hcomment⟩ := mem_numbersOf.mp hn
    obtain ⟨tag, hcomment⟩ := isComment_eq_true_iff.mp hcomment
    have hout := mem_zipIdx_edited (p := p) hraw
    rw [hcomment] at hout
    rw [htext]
    exact ⟨raw, _, hraw, hout, editLine_comment raw tag, parse_editLine_comment raw tag⟩
  · intro raw n hraw hpatch hcomment
    have hout := mem_zipIdx_edited (p := p) hraw
    rw [htext]
    cases hedit : editAt p (raw, n) with
    | keep =>
      rw [hedit] at hout
      exact hout
    | patch word tag => exact absurd (mem_numbersOf.mpr ⟨raw, hraw, by rw [hedit]; rfl⟩) hpatch
    | comment tag => exact absurd (mem_numbersOf.mpr ⟨raw, hraw, by rw [hedit]; rfl⟩) hcomment
  · exact ⟨pairwise_numbersOf isPatch p source, pairwise_numbersOf isComment p source⟩

end Lines

/-! ### Boxes that are saved -/

/-- Every statement remains or its box is saved. -/
theorem saved_add_length (p : Program) :
    saved p + (remaining p).length = p.statements.length := by
  have hcount := List.length_eq_countP_add_countP (fun a : Statement × Nat =>
    isComment (editOf p a.2 a.1)) (l := p.statements.zipIdx)
  rw [List.length_zipIdx] at hcount
  rw [saved, statementEdits, List.countP_map, remaining, ← List.countP_eq_length_filter, hcount]
  simp [Function.comp_def]

end Packing

/-- The packed text has the lines of the source. A line that refers to a box behind the last one
that is not zero is rewritten: it is the data that it was assembled to, under the same tag and with
itself for a comment. A line with an operand behind that box, or with no room in memory, is a
comment. All others are as they were, but for the blanks at the end. With a notice or without, as
many boxes are saved as the packed program has fewer. -/
theorem pack_layout {source filename : String} {p : Program} (hne : source ≠ "")
    (h : assemble (lines source) filename = .ok p) :
    (∃ packed, pack (lines source) filename false = .ok packed ∧
      Packing.LaidOut p filename (lines source) packed) ∧
    ∀ notice, ∃ packed, pack (lines source) filename notice = .ok packed ∧
      ∀ name, ∃ q, assemble (lines packed.text) name = .ok q ∧
        (packed.saved : Int) = (p.size : Int) - q.size := by
  have hp := assemble_eq_ok_iff.mp h
  have hlines : ∀ l ∈ lines source, IsLine l.toList := fun l hl => isLine_of_mem_lines hl
  refine ⟨⟨_, pack_of_assemble h false, Packing.laidOut hp (lines_ne_nil hne) hlines⟩,
    fun notice => ⟨_, pack_of_assemble h notice, fun name => ?_⟩⟩
  obtain ⟨ss, hr, hq⟩ := Packing.exists_assemble_packed hp hlines notice name
  refine ⟨_, hq, ?_⟩
  have hsaved := Packing.saved_add_length p
  show (Packing.saved p : Int) = (p.statements.length : Int) - ss.length
  rw [← hr.length_eq]
  omega

/-- A reference to a zero at the end, with a tag and a comment, and the zero with a blank behind. -/
def totalSource : String := "top STO total # keep\n\tBR top\ntotal DAT 0 \n"

theorem pack_layout_total :
    totalSource ≠ "" ∧ ∃ p, assemble (lines totalSource) "total" = .ok p ∧
      (pack (lines totalSource) "total" false).map
        (fun packed => (packed.amendedLines, packed.omittedLines)) = .ok ([1], [3]) ∧
      (∃ packed, pack (lines totalSource) "total" false = .ok packed ∧
        Packing.LaidOut p "total" (lines totalSource) packed) ∧
      ∀ notice, ∃ packed, pack (lines totalSource) "total" notice = .ok packed ∧
        ∀ name, ∃ q, assemble (lines packed.text) name = .ok q ∧
          (packed.saved : Int) = (p.size : Int) - q.size := by
  have hne : totalSource ≠ "" := by decide +kernel
  have hrun : (assemble (lines totalSource) "total").map (fun p => p.size) = .ok 3 := by
    decide +kernel
  obtain ⟨p, hp, -⟩ := exists_of_map_eq_ok hrun
  exact ⟨hne, p, hp, by decide +kernel, pack_layout hne hp⟩

end LittleMan
