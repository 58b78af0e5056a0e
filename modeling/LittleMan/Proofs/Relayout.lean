/-
Sources in another layout.

What counts in a line of code are its fields and whether it starts with a blank; how wide the blanks
are, what they are, what the comment says and how the line ends does not. The mnemonic may be in any
case. Lines without code do not count at all.

* `Statement.SameCode`: two lines of code that differ in their layout only;
* `agree_assign`, `agree_parse`: the fields of both are told apart in the same way, and both are read
  as the same statement, up to its place;
* `Statement.extends_of_keeps`: a line and the line with its terminator are such lines;
* `assemble_relayout`: so the layout makes no difference to an assembly.
-/
import LittleMan.Proofs.Agreement
import LittleMan.Proofs.Text.Lines
namespace LittleMan

open Text

/-! ### Letters -/

/-- The same text, as far as the case of ASCII letters does not count. -/
def SameLetters (a b : String) : Prop := a.toList.map Char.toLower = b.toList.map Char.toLower

instance (a b : String) : Decidable (SameLetters a b) := inferInstanceAs (Decidable (_ = _))

theorem upperChar_toLower (c : Char) : upperChar c.toLower = upperChar c := by
  by_cases hc : c.toNat < 128
  · have hall : ∀ n : Fin 128, upperChar (Char.ofNat n).toLower = upperChar (Char.ofNat n) := by
      decide +kernel
    have h := hall ⟨c.toNat, hc⟩
    rwa [Char.ofNat_toNat] at h
  · -- other letters are left as they are
    have hlower : c.toLower = c := by
      refine dif_neg fun h => hc ?_
      have hle : c.toNat ≤ 90 := UInt32.le_iff_toNat_le.mp h.2
      omega
    rw [hlower]

theorem upper_of_sameLetters {a b : String} (h : SameLetters a b) : upper a = upper b := by
  have hupper : ∀ text : String,
      text.toList.flatMap upperChar = (text.toList.map Char.toLower).flatMap upperChar := by
    intro text
    rw [List.flatMap_map]
    exact List.flatMap_congr fun c _ => (upperChar_toLower c).symm
  rw [upper, upper, hupper a, hupper b, h]

namespace Statement

/-! ### Lines of code -/

/-- A field of a line with the given fields, and a field of another line: their texts are the same,
or, if the first is in the mnemonic's place, their letters. -/
def SameField (indented : Bool) (fs : List Field) (f g : Field) : Prop :=
  f.text = g.text ∨ MnemonicAt indented fs f ∧ SameLetters f.text g.text

/-- Two lines of code in different layouts: both start with a blank or neither does, and their fields
are the same but for the case of the mnemonics. -/
structure SameCode (a b : String) : Prop where
  indented : (shape a).1 = (shape b).1
  fields : List.Forall₂ (SameField (shape a).1 (shape a).2) (shape a).2 (shape b).2

instance (indented : Bool) (fs : List Field) (f : Field) :
    Decidable (MnemonicAt indented fs f) :=
  decidable_of_iff (((assign indented fs).toOption.join.map (·.2.1)) = some f) <| by
    rw [mnemonicAt_iff]
    rcases assign indented fs with fault | _ | ⟨tag, mnemonic, operand⟩ <;>
      simp [Except.toOption, eq_comm]

instance (indented : Bool) (fs : List Field) (f g : Field) :
    Decidable (SameField indented fs f g) := inferInstanceAs (Decidable (_ ∨ _))

instance (a b : String) : Decidable (SameCode a b) :=
  decidable_of_iff ((shape a).1 = (shape b).1 ∧
      List.Forall₂ (SameField (shape a).1 (shape a).2) (shape a).2 (shape b).2)
    ⟨fun h => ⟨h.1, h.2⟩, fun h => ⟨h.indented, h.fields⟩⟩

section Fields

variable {indented : Bool} {fs gs : List Field} {f g : Field}

theorem SameField.letters (h : SameField indented fs f g) : SameLetters f.text g.text := by
  rcases h with h | ⟨-, h⟩
  · rw [h]
    rfl
  · exact h

/-- Fields apart from the mnemonic have the same text. -/
theorem SameField.text {mnemonic : Field} (h : SameField indented fs f g)
    (hm : MnemonicAt indented fs mnemonic) (hne : f ≠ mnemonic) : f.text = g.text :=
  h.resolve_right fun hf => hne (hf.1.unique hm)

theorem ofText?_of_sameLetters {a b : String} (h : SameLetters a b) :
    Opcode.ofText? a = Opcode.ofText? b := by
  rw [Opcode.ofText?, Opcode.ofText?, upper_of_sameLetters h]

theorem isMnemonic_of_sameLetters {a b : String} (h : SameLetters a b) :
    isMnemonic a = isMnemonic b := by
  rw [isMnemonic, isMnemonic, ofText?_of_sameLetters h]

/-- The same tag, mnemonic and operand, up to their columns. -/
structure SameParts (x y : Option Field × Field × Option Field) : Prop where
  tag : x.1.map Field.text = y.1.map Field.text
  mnemonic : SameLetters x.2.1.text y.2.1.text
  operand : x.2.2.map Field.text = y.2.2.map Field.text

/-- The fields of both lines are told apart in the same way. -/
theorem agree_assign (hnd : fs.Nodup) (h : List.Forall₂ (SameField indented fs) fs gs) :
    Agree (Option.Rel SameParts) (fun e e' : SourceFault => e'.kind = e.kind)
      (assign indented fs) (assign indented gs) := by
  -- one case for each number of fields; only the mnemonic may have another text
  rcases h with _ | @⟨a, a', _, _, ha, _ | @⟨b, b', _, _, hb, _ | @⟨c, c', _, _, hc, _ | _⟩⟩⟩
  · exact .ok .none
  · exact .ok (.some ⟨rfl, ha.letters, rfl⟩)
  · have hne : a ≠ b := by simpa using hnd
    rw [assign, assign, ← isMnemonic_of_sameLetters ha.letters,
      ← isMnemonic_of_sameLetters hb.letters]
    split
    · next hcond =>
      have hm : MnemonicAt indented [a, b] b :=
        mnemonicAt_iff.mpr ⟨some a, none, by rw [assign, if_pos hcond]⟩
      exact .ok (.some ⟨congrArg some (ha.text hm hne), hb.letters, rfl⟩)
    · next hcond =>
      have hm : MnemonicAt indented [a, b] a :=
        mnemonicAt_iff.mpr ⟨none, some b, by rw [assign, if_neg hcond]⟩
      exact .ok (.some ⟨rfl, ha.letters, congrArg some (hb.text hm hne.symm)⟩)
  · obtain ⟨⟨hab, -⟩, hbc⟩ : (a ≠ b ∧ a ≠ c) ∧ b ≠ c := by simpa using hnd
    rw [assign, assign]
    split
    · exact .error rfl
    · next hcond =>
      have hm : MnemonicAt indented [a, b, c] b :=
        mnemonicAt_iff.mpr ⟨some a, some c, by rw [assign, if_neg hcond]⟩
      exact .ok (.some
        ⟨congrArg some (ha.text hm hab), hb.letters, congrArg some (hc.text hm hbc.symm)⟩)
  · exact .error rfl

end Fields

/-- Lines that differ in their layout are read alike. -/
theorem readAlike_of_sameCode {l l' : String × Nat} (h : SameCode l.1 l'.1)
    (filename filename' : String) : ReadAlike (fun _ => True) id filename filename' l l' := by
  have hnd : (shape l.1).2.Nodup := nodup_fields _
  have hassign := agree_assign hnd h.fields
  rw [ReadAlike, parse_eq_ofFields, parse_eq_ofFields, ← h.indented]
  generalize assign (shape l.1).1 (shape l.1).2 = x at hassign ⊢
  generalize assign (shape l.1).1 (shape l'.1).2 = y at hassign ⊢
  cases hassign with
  | error hkind => exact .error hkind
  | ok hparts =>
    cases hparts with
    | none => exact .ok .none
    | @some parts _ hparts =>
      rw [ofFields, ofFields, ← ofText?_of_sameLetters hparts.mnemonic]
      cases Opcode.ofText? parts.2.1.text with
      | none => exact .error rfl
      | some opcode =>
        refine .ok (.some ⟨?_, rfl, ?_, fun _ _ => trivial, fun _ _ _ => trivial⟩)
        · rw [← hparts.tag]
          exact Option.map_id_apply.symm
        · rw [← hparts.operand]
          simp

/-! ### Ends of lines -/

theorem sameField_self {indented : Bool} {fs : List Field} (f : Field) :
    SameField indented fs f f := .inl rfl

theorem sameCode_of_shape {a b : String} (h : shape a = shape b) : SameCode a b := by
  refine ⟨by rw [h], ?_⟩
  rw [h]
  exact List.forall₂_same.mpr fun f _ => sameField_self f

theorem SameCode.isCode_eq {a b : String} (h : SameCode a b) : isCode a = isCode b := by
  have hlength := h.fields.length_eq
  rw [Bool.eq_iff_iff, isCode_iff_shape, isCode_iff_shape, ← List.length_pos_iff,
    ← List.length_pos_iff, hlength]

/-- The terminators of the lines make no difference. -/
theorem sameCode_stripNewline {a b : String} (h : SameCode a b) (hcode : isCode a = true) :
    SameCode (stripNewline a) (stripNewline b) := by
  have hb : isCode b = true := h.isCode_eq.symm.trans hcode
  refine ⟨?_, ?_⟩
  · rw [shape_stripNewline hcode, shape_stripNewline hb, h.indented]
  · rw [shape_stripNewline hcode, shape_stripNewline hb]
    exact h.fields

theorem extends_of_keeps {line kept : List Char} (h : Keeps line kept) :
    Extends (String.ofList line) (String.ofList kept) := by
  obtain ⟨ending, rfl, hending⟩ := h
  refine ⟨String.ofList ending, ?_, String.ofList_append⟩
  intro c hc
  rw [String.toList_ofList] at hc
  exact isBlank_of_isLineEnd (hending c hc)

end Statement

/-! ### Whole sources -/

/-- The same image, the same tags in the same order, and as many lines of code. -/
structure Program.Same (p p' : Program) : Prop where
  image : p'.image = p.image
  tags : p'.tags = p.tags
  size : p'.size = p.size
  truncated : p'.truncated = p.truncated

theorem Program.Renamed.same {names : String → Prop} {p p' : Program}
    (h : p.Renamed names id p') : p.Same p' := by
  refine ⟨h.image, ?_, h.statements.length_eq.symm, h.truncated⟩
  have hentries : p'.tags.entries = p.tags.entries := h.tags.trans (List.map_id _)
  exact congrArg TagTable.mk hentries

section Relayout

variable {lines lines' : List String}

theorem codeLines_of_sameCode
    (h : List.Forall₂ Statement.SameCode (lines.filter Statement.isCode)
      (lines'.filter Statement.isCode)) :
    List.Forall₂ (fun l l' : String × Nat => Statement.SameCode l.1 l'.1) (codeLines 1 lines)
      (codeLines 1 lines') := by
  have hcode : ∀ raw ∈ lines.filter Statement.isCode, Statement.isCode raw = true :=
    fun raw hraw => (List.mem_filter.mp hraw).2
  have hstripped : List.Forall₂ Statement.SameCode
      ((lines.filter Statement.isCode).map Statement.stripNewline)
      ((lines'.filter Statement.isCode).map Statement.stripNewline) := by
    rw [List.forall₂_map_left_iff, List.forall₂_map_right_iff]
    exact ((List.forall₂_and_left _ _).mpr ⟨hcode, h⟩).imp fun _ _ hab =>
      Statement.sameCode_stripNewline hab.2 hab.1
  rw [← map_fst_codeLines 1, ← map_fst_codeLines 1, List.forall₂_map_left_iff,
    List.forall₂_map_right_iff] at hstripped
  exact hstripped

theorem agree_of_sameCode
    (h : List.Forall₂ Statement.SameCode (lines.filter Statement.isCode)
      (lines'.filter Statement.isCode)) (filename filename' : String) :
    Agree Program.Same AssemblyError.SameKind (assemble lines filename)
      (assemble lines' filename') := by
  have hlines := codeLines_of_sameCode h
  have hread := (List.forall₂_take 100 hlines).imp fun _ _ hl =>
    Statement.readAlike_of_sameCode hl filename filename'
  exact (agree_assemble (fun _ _ _ _ h => h) hread hlines.length_eq.symm).imp fun _ _ hp => hp.same

/-- Where lines hold code, they hold the same with their terminators. -/
theorem sameCode_keptLines (text : String) :
    List.Forall₂ Statement.SameCode ((Text.lines text).filter Statement.isCode)
      ((keptLines text).filter Statement.isCode) := by
  have hall : List.Forall₂ Statement.Extends (Text.lines text) (keptLines text) := by
    rw [Text.lines, keptLines, List.forall₂_map_left_iff, List.forall₂_map_right_iff]
    exact (forall₂_splitKept text.toList).imp fun _ _ h => Statement.extends_of_keeps h
  have hfilter := List.rel_filter (p := Statement.isCode) (q := Statement.isCode)
    (fun _ _ h => Bool.eq_iff_iff.mp h.isCode_eq.symm) hall
  have hcode : ∀ raw ∈ (Text.lines text).filter Statement.isCode, Statement.isCode raw = true :=
    fun raw hraw => (List.mem_filter.mp hraw).2
  exact ((List.forall₂_and_left _ _).mpr ⟨hcode, hfilter⟩).imp fun _ _ h =>
    Statement.sameCode_of_shape (h.2.shape_eq h.1).symm

end Relayout

/-- The layout of a source makes no difference to its assembly: if its lines of code are those of
another source, whatever stands between them, around their fields and at their ends, and in whatever
case the mnemonics are, then both assemble to the same program, or both fail for an error of one
kind. So it does not matter either whether the lines of a text keep their terminators. -/
theorem assemble_relayout :
    (∀ (lines lines' : List String) (filename filename' : String),
      List.Forall₂ Statement.SameCode (lines.filter Statement.isCode)
        (lines'.filter Statement.isCode) →
      Agree Program.Same AssemblyError.SameKind (assemble lines filename)
        (assemble lines' filename')) ∧
    ∀ text filename : String, Agree Program.Same AssemblyError.SameKind
      (assemble (lines text) filename) (assemble (keptLines text) filename) :=
  ⟨fun _ _ filename filename' h => agree_of_sameCode h filename filename',
    fun text filename => agree_of_sameCode (sameCode_keptLines text) filename filename⟩

/-- Tabulators for spaces, small letters for capitals, other comments and other ends of lines. -/
def airyDoubler : List String :=
  ["# twice", "", "start IN", "      STO x # keep", "  ADD x", "x DAT 0 # 1"]

def tightDoubler : List String :=
  ["start\tin#start\r\n", " sTo\tx\n", "\u2003add x", "\t # here", "x dat\t0   "]

theorem assemble_relayout_doubler :
    List.Forall₂ Statement.SameCode (airyDoubler.filter Statement.isCode)
        (tightDoubler.filter Statement.isCode) ∧
      Agree Program.Same AssemblyError.SameKind (assemble airyDoubler "airy")
        (assemble tightDoubler "tight") ∧
      (assemble airyDoubler "airy").map (fun p => (p.image.toList.take 4, p.tags.entries)) =
        .ok ([901, 303, 103, 0], [("start", 0), ("x", 3)]) := by
  have hsame : List.Forall₂ Statement.SameCode (airyDoubler.filter Statement.isCode)
      (tightDoubler.filter Statement.isCode) := by
    decide +kernel
  exact ⟨hsame, assemble_relayout.1 _ _ "airy" "tight" hsame, by decide +kernel⟩

end LittleMan
