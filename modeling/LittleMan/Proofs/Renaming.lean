/-
Programs with other names.

The names of a program are its tags and the operands that stand for tags. Other operands are
literals, or do not count, and are no names. New names can be any words that are no mnemonics, as long
as different names remain different: the program then has the same image, and its tag table the new
names at the old addresses.

* `Statement.nameFields`, `Program.names`: the names of a program, and where in a line they stand;
* `Statement.respell`, `Program.respelled`: a line and a source with other names in their places;
* `Renaming`: new names that will do;
* `Rendering.rename`, `respell_text`: a line with other names is put together from the same pieces;
* `exists_parse_respell`: so it is read as the same statement with other names;
* `assemble_respelled`: and the source assembles to the same image.
-/
import LittleMan.Proofs.Agreement
import LittleMan.Proofs.Rendering
namespace LittleMan

open Text

namespace Statement

/-! ### Lines with other names -/

/-- The fields of a statement's line that are names, from right to left. -/
def nameFields (s : Statement) : List Field :=
  (if s.opcode.takesTag then s.operand.toList else []) ++ s.tag.toList.map (⟨·, 1⟩)

/-- A line with another word in the place of a field. -/
def replaceField (f : String → String) (line : String) (field : Field) : String :=
  let cs := line.toList
  String.ofList (cs.take (field.column - 1)) ++ (f field.text ++
    String.ofList (cs.drop (field.column - 1 + field.text.length)))

/-- The line of a statement with other names. From right to left, each field is still in its column
when it is replaced. -/
def respell (f : String → String) (s : Statement) (line : String) : String :=
  s.nameFields.foldl (replaceField f) line

/-- The names that a statement uses. -/
def names (s : Statement) : List String := s.nameFields.map Field.text

theorem mem_names_of_tag {s : Statement} {t : String} (h : t ∈ s.tag) : t ∈ s.names := by
  simp [names, nameFields, Option.mem_def.mp h]

theorem mem_names_of_operand {s : Statement} (htag : s.opcode.takesTag = true) {o : Field}
    (h : o ∈ s.operand) : o.text ∈ s.names := by
  simp [names, nameFields, htag, Option.mem_def.mp h]

theorem replaceField_append (f : String → String) (front word rest : String) :
    replaceField f (front ++ (word ++ rest)) ⟨word, front.length + 1⟩ =
      front ++ (f word ++ rest) := by
  rw [replaceField, Nat.add_sub_cancel, String.toList_append, String.toList_append]
  dsimp only
  rw [List.take_left' String.length_toList, ← List.append_assoc, List.drop_left',
    String.ofList_toList, String.ofList_toList]
  rw [List.length_append, String.length_toList, String.length_toList]

end Statement

/-- New names for some names: other names are other words again, and no mnemonics. -/
structure Renaming (names : List String) (f : String → String) : Prop where
  injective : ∀ t ∈ names, ∀ u ∈ names, f t = f u → t = u
  isName : ∀ t ∈ names, Statement.IsName (f t)
  not_mnemonic : ∀ t ∈ names, Statement.isMnemonic (f t) = false

namespace Statement

namespace Rendering

variable {r : Rendering} {f g : String → String} {line : Int} {filename : String} {s : Statement}

/-- The same pieces, but for tag and operand. -/
def rename (r : Rendering) (f g : String → String)
    (hf : ∀ t ∈ r.tag, IsName (f t) ∧ isMnemonic (f t) = false)
    (hg : ∀ e ∈ r.operand, IsName (g e.2)) : Rendering where
  tag := r.tag.map f
  indent := r.indent
  mnemonic := r.mnemonic
  operand := r.operand.map fun (gap, word) => (gap, g word)
  trailer := r.trailer
  comment := r.comment
  tag_isName := by
    intro t ht
    obtain ⟨u, hu, rfl⟩ := Option.map_eq_some_iff.mp ht
    exact (hf u hu).1
  indent_blank := r.indent_blank
  indent_ne := by
    intro t ht
    obtain ⟨u, hu, rfl⟩ := Option.map_eq_some_iff.mp ht
    exact r.indent_ne u hu
  mnemonic_isName := r.mnemonic_isName
  mnemonic_upper := r.mnemonic_upper
  operand_isName := by
    intro e he
    obtain ⟨e', he', rfl⟩ := Option.map_eq_some_iff.mp he
    obtain ⟨hblank, hne, -⟩ := r.operand_isName e' he'
    exact ⟨hblank, hne, hg e' he'⟩
  tag_upper := by
    intro _ t ht o ho
    obtain ⟨u, hu, rfl⟩ := Option.map_eq_some_iff.mp ht
    have hnot := (hf u hu).2
    rw [isMnemonic_iff.mpr ⟨o, ho⟩] at hnot
    exact absurd hnot (by simp)
  trailer_blank := r.trailer_blank

/-- With the operand in its place replaced, and then the tag in its own, the pieces of the line are
the renamed ones. -/
theorem respell_text (h : r.Writes line filename s)
    (hf : ∀ t ∈ r.tag, IsName (f t) ∧ isMnemonic (f t) = false)
    (hg : ∀ e ∈ r.operand, IsName (if s.opcode.takesTag then f e.2 else e.2)) :
    s.respell f r.text =
      (r.rename f (fun word => if s.opcode.takesTag then f word else word) hf hg).text := by
  let comment := r.comment.elim "" ("#" ++ ·)
  let operand := r.operand.elim "" fun (gap, word) =>
    gap ++ if s.opcode.takesTag then f word else word
  have hoperand : (if s.opcode.takesTag then s.operand.toList else []).foldl (replaceField f)
      r.text = r.before ++ (r.mnemonic ++ (operand ++ (r.trailer ++ comment))) := by
    rw [h.operand_eq, operandField, text, code, behind]
    cases htag : s.opcode.takesTag with
    | false =>
      cases ho : r.operand <;> simp [operand, comment, ho, htag, String.append_assoc]
    | true =>
      cases ho : r.operand with
      | none => simp [operand, comment, ho, String.append_assoc]
      | some e =>
        have hreplace := replaceField_append f (r.before ++ r.mnemonic ++ e.1) e.2
          (r.trailer ++ comment)
        simpa [operand, comment, ho, htag, String.append_assoc] using hreplace
  have hrenamed : (r.rename f (fun word => if s.opcode.takesTag then f word else word) hf hg).text =
      (r.tag.map f).getD "" ++ (r.indent ++ (r.mnemonic ++ (operand ++ (r.trailer ++ comment)))) := by
    rw [text, code, before, behind]
    cases ho : r.operand <;> simp [rename, operand, comment, ho, String.append_assoc]
  rw [respell, nameFields, List.foldl_append, hoperand, hrenamed, h.tag, before]
  cases ht : r.tag with
  | none => simp
  | some t =>
    have hreplace := replaceField_append f "" t
      (r.indent ++ (r.mnemonic ++ (operand ++ (r.trailer ++ comment))))
    simpa [String.append_assoc] using hreplace

end Rendering

/-- The line of a statement with other names is read as the statement with these names. -/
theorem exists_parse_respell {names : List String} {f : String → String} (hf : Renaming names f)
    {raw : String} {line : Int} {filename : String} {s : Statement} (hs : s.names ⊆ names)
    (h : parse (stripNewline raw) line filename = .ok (some s)) :
    isCode (s.respell f raw) = true ∧
      ∃ s', parse (stripNewline (s.respell f raw)) line filename = .ok (some s') ∧
        s.Renamed (· ∈ names) f s' := by
  have hcode : isCode raw = true := (isCode_stripNewline raw).symm.trans (isCode_of_parse h)
  -- the whole line is read as the same statement, and put together from pieces
  have hwhole : parse raw line filename = .ok (some
      { s with location := ⟨filename, line, s.location.column⟩, text := raw }) :=
    parse_of_shape (shape_stripNewline hcode).symm h
  obtain ⟨r, rfl, hwrites⟩ := exists_rendering_of_parse hwhole
  have htag : ∀ t ∈ r.tag, IsName (f t) ∧ isMnemonic (f t) = false := by
    intro t ht
    have hmem : t ∈ names := hs (mem_names_of_tag (hwrites.tag.trans ht))
    exact ⟨hf.isName t hmem, hf.not_mnemonic t hmem⟩
  have hoperand : ∀ e ∈ r.operand, IsName (if s.opcode.takesTag then f e.2 else e.2) := by
    intro e he
    split
    · next htakes =>
      have ho : s.operand = some ⟨e.2, (r.before ++ r.mnemonic ++ e.1).length + 1⟩ := by
        rw [show s.operand = r.operandField from hwrites.operand_eq, Rendering.operandField,
          Option.mem_def.mp he]
        rfl
      exact hf.isName e.2 (hs (mem_names_of_operand htakes ho))
    · exact (r.operand_isName e he).2.2
  have hrespell : s.respell f r.text = _ := Rendering.respell_text hwrites htag hoperand
  obtain ⟨s', hs', hwrites'⟩ := (r.rename f (fun word => if s.opcode.takesTag then f word else word)
    htag hoperand).exists_parse_text line filename
  have hcode' := isCode_of_parse hs'
  rw [hrespell]
  refine ⟨hcode', _, parse_of_shape (shape_stripNewline hcode') hs', ?_, ?_, ?_, ?_, ?_⟩
  · rw [show s.tag = r.tag from hwrites.tag]
    exact hwrites'.tag
  · exact Opcode.name_injective (hwrites'.opcode.trans hwrites.opcode.symm)
  · rw [show s.operand = r.operandField from hwrites.operand_eq, Rendering.operandField,
      Option.map_map]
    refine hwrites'.operand.trans ?_
    rw [Rendering.rename, Option.map_map]
    rfl
  · exact fun t ht => hs (mem_names_of_tag ht)
  · exact fun htakes o ho => hs (mem_names_of_operand htakes ho)

end Statement

/-! ### Sources with other names -/

namespace Program

/-- The names that the statements of a program use. -/
def names (p : Program) : List String := p.statements.flatMap Statement.names

/-- A numbered line of a source, with other names if a statement was assembled from it. -/
def respellLine (f : String → String) (p : Program) (l : String × Nat) : String :=
  match p.statements.find? (·.location.line == (l.2 : Int)) with
  | some s => s.respell f l.1
  | none => l.1

/-- The source of a program with other names. -/
def respelled (f : String → String) (p : Program) (lines : List String) : List String :=
  (lines.zipIdx 1).map (p.respellLine f)

variable {p : Program} {lines : List String} {filename : String} {s : Statement}

/-- A line from which a statement was assembled is read as this statement. -/
theorem IsAssemblyOf.reads_of_line (hp : p.IsAssemblyOf lines filename) {l : String × Nat}
    (hl : l ∈ lines.zipIdx 1) (hs : s ∈ p.statements) (hline : s.location.line = l.2) :
    Statement.Reads filename (Statement.stripNewline l.1, l.2) s := by
  obtain ⟨l', hl', hreads⟩ := hp.exists_reads hs
  have hnumber := (Statement.location_of_parse hreads).2
  have hcode := List.mem_of_mem_take hl'
  rw [codeLines_eq_map] at hcode
  obtain ⟨⟨raw, number⟩, hraw, rfl⟩ := List.mem_map.mp hcode
  obtain ⟨text, n⟩ := l
  obtain rfl : number = n := Int.ofNat_inj.mp (hnumber.symm.trans hline)
  rw [eq_of_mem_zipIdx hl (List.mem_filter.mp hraw).1]
  exact hreads

theorem IsAssemblyOf.find?_line (hp : p.IsAssemblyOf lines filename) (hs : s ∈ p.statements) :
    p.statements.find? (·.location.line == s.location.line) = some s := by
  obtain ⟨u, hu⟩ : ∃ u, p.statements.find? (·.location.line == s.location.line) = some u := by
    rw [← Option.isSome_iff_exists, List.find?_isSome]
    exact ⟨s, hs, beq_self_eq_true _⟩
  have hnd : (p.statements.map (·.location.line)).Nodup :=
    (pairwise_line_of_reads hp.read).imp fun h => Int.ne_of_lt h
  have hline : u.location.line = s.location.line := by simpa using List.find?_some hu
  rw [hu, List.inj_on_of_nodup_map hnd (List.mem_of_find?_eq_some hu) hs hline]

end Program

theorem zipIdx_map_zipIdx {α β : Type} (l : List α) (g : α × Nat → β) (k : Nat) :
    ((l.zipIdx k).map g).zipIdx k = (l.zipIdx k).map fun x => (g x, x.2) := by
  induction l generalizing k with
  | nil => rfl
  | cons a l ih => rw [List.zipIdx_cons, List.map_cons, List.zipIdx_cons, List.map_cons, ih]

section Sources

variable {f : String → String} {p : Program} {lines : List String} {filename : String}

theorem isCode_respellLine (hf : Renaming p.names f) (hp : p.IsAssemblyOf lines filename)
    {l : String × Nat} (hl : l ∈ lines.zipIdx 1) :
    Statement.isCode (p.respellLine f l) = Statement.isCode l.1 := by
  rw [Program.respellLine]
  split
  · next s hfind =>
    have hs := List.mem_of_find?_eq_some hfind
    have hline : s.location.line = l.2 := by simpa using List.find?_some hfind
    have hreads := hp.reads_of_line hl hs hline
    have hcode : Statement.isCode l.1 = true :=
      (Statement.isCode_stripNewline l.1).symm.trans (Statement.isCode_of_parse hreads)
    rw [hcode, (Statement.exists_parse_respell hf (fun t ht => List.mem_flatMap.mpr ⟨s, hs, ht⟩)
      hreads).1]
  · rfl

/-- The lines of code are the same, with other names in them. -/
theorem codeLines_respelled (hf : Renaming p.names f) (hp : p.IsAssemblyOf lines filename) :
    codeLines 1 (p.respelled f lines) =
      ((lines.zipIdx 1).filter fun l => Statement.isCode l.1).map fun l =>
        (Statement.stripNewline (p.respellLine f l), l.2) := by
  have hcode : ∀ l ∈ lines.zipIdx 1,
      ((fun l : String × Nat => Statement.isCode l.1) ∘ fun l => (p.respellLine f l, l.2)) l =
        Statement.isCode l.1 := fun l hl => isCode_respellLine hf hp hl
  rw [codeLines_eq_map, Program.respelled, zipIdx_map_zipIdx, List.filter_map,
    List.filter_congr hcode, List.map_map]
  rfl

theorem readAlike_respelled (hf : Renaming p.names f) (hp : p.IsAssemblyOf lines filename) :
    List.Forall₂ (Statement.ReadAlike (· ∈ p.names) f filename filename)
      ((codeLines 1 lines).take 100) ((codeLines 1 (p.respelled f lines)).take 100) := by
  have hread := hp.read
  rw [codeLines_eq_map, ← List.map_take] at hread ⊢
  rw [codeLines_respelled hf hp, ← List.map_take, List.forall₂_map_left_iff,
    List.forall₂_map_right_iff, List.forall₂_same]
  intro l hl
  -- the line is one of those that were assembled, so it is found again by its number
  obtain ⟨s, hs, hreads⟩ := exists_mem_of_forall₂ (List.forall₂_map_left_iff.mp hread).flip hl
  have hfind := hp.find?_line hs
  rw [(Statement.location_of_parse hreads).2] at hfind
  obtain ⟨-, s', hs', hrenamed⟩ := Statement.exists_parse_respell hf
    (fun t ht => List.mem_flatMap.mpr ⟨s, hs, ht⟩) hreads
  rw [Statement.ReadAlike, show Statement.parse _ _ filename = _ from hreads, Program.respellLine,
    hfind]
  dsimp only
  rw [hs']
  exact .ok (.some hrenamed)

/-- Names play no part in the machine code. If the tags of a program, and the operands that stand for
tags, are replaced by other words, no two of them by the same and none by a mnemonic, its source
assembles to the same image, and the new tags stand for the addresses of the old ones, in the same
order. -/
theorem assemble_respelled (h : assemble lines filename = .ok p) (hf : Renaming p.names f) :
    ∃ p', assemble (p.respelled f lines) filename = .ok p' ∧ p'.image = p.image ∧
      p'.tags.entries = p.tags.entries.map fun e => (f e.1, e.2) := by
  have hp := assemble_eq_ok_iff.mp h
  have hlength : (codeLines 1 (p.respelled f lines)).length = (codeLines 1 lines).length := by
    rw [codeLines_respelled hf hp, codeLines_eq_map, List.length_map, List.length_map]
  have hagree := agree_assemble (fun t u ht hu => hf.injective t ht u hu)
    (readAlike_respelled hf hp) hlength
  rw [h] at hagree
  generalize assemble (p.respelled f lines) filename = x at hagree ⊢
  cases hagree with
  | ok hrenamed => exact ⟨_, rfl, hrenamed.image, hrenamed.tags⟩

end Sources

/-- A tag that is a mnemonic, an operand that does not count, and a comment that looks like a tag. -/
def namedLines : List String := ["in OUT 3", "loop LDA x # x", "\tBRZ in", " IN x", "x DAT 7"]

/-- One of the tags gets the name of another, which gets one that looks like a literal. -/
def otherNames (t : String) : String := if t = "x" then "007" else if t = "in" then "x" else t

theorem assemble_respelled_namedLines :
    ∃ p p', assemble namedLines "f" = .ok p ∧ Renaming p.names otherNames ∧
      assemble ["x OUT 3", "loop LDA 007 # x", "\tBRZ x", " IN x", "007 DAT 7"] "f" = .ok p' ∧
      p'.image = p.image ∧ p.tags.entries = [("in", 0), ("loop", 1), ("x", 4)] ∧
      p'.tags.entries = [("x", 0), ("loop", 1), ("007", 4)] := by
  have hrun : (assemble namedLines "f").map
      (fun p => (p.names, p.tags.entries, p.respelled otherNames namedLines)) =
      .ok (["in", "x", "loop", "in", "x"], [("in", 0), ("loop", 1), ("x", 4)],
        ["x OUT 3", "loop LDA 007 # x", "\tBRZ x", " IN x", "007 DAT 7"]) := by
    decide +kernel
  obtain ⟨p, hp, hout⟩ := exists_of_map_eq_ok hrun
  simp only [Prod.mk.injEq] at hout
  obtain ⟨hnames, htags, hlines⟩ := hout
  have hrenaming : Renaming p.names otherNames := by
    rw [hnames]
    exact ⟨by decide +kernel, by decide +kernel, by decide +kernel⟩
  obtain ⟨p', hp', himage, htags'⟩ := assemble_respelled hp hrenaming
  rw [hlines] at hp'
  rw [htags] at htags'
  exact ⟨p, p', hp, hrenaming, hp', himage, htags, htags'.trans (by decide +kernel)⟩

end LittleMan
