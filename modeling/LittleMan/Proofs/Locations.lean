/-
Where the errors of an assembly point to.

An error of a source tells the number of a line and quotes it. Unless the fields of the line do not
fit a statement at all, there is one word in the line that the error is about: the error tells the
column of its first character, and in the message a caret stands under it.

* `Culprit`: the word that an error is about, for each kind of error;
* `DefinedAt`: where the tag stands that another line defines once more;
* `Culprit.isPrefix`: the word stands in its line, from its column on;
* `Located`: an error that tells of its line, and of its culprit if it has one;
* `located_of_unreadable`, `located_of_duplicate`, `located_of_wordless`: all errors do;
* `error_location`: so an assembly that fails points at the culprit, in its error and in the message.
-/
import LittleMan.Proofs.LongLiterals
namespace LittleMan

open Text

/-! ### Lines of a text -/

section Lines

variable {text : String} {l : String × Nat}

theorem codeLines_lines (text : String) (number : Nat) :
    codeLines number (lines text) =
      ((lines text).zipIdx number).filter fun l => Statement.isCode l.1 :=
  codeLines_of_isLine (fun _ hl => isLine_of_mem_lines hl) number

/-- The lines of code of a text are lines of the text. -/
theorem mem_codeLines_lines {n : Nat} {line : String} :
    (line, n + 1) ∈ codeLines 1 (lines text) ↔
      (lines text)[n]? = some line ∧ Statement.isCode line = true := by
  rw [codeLines_lines, List.mem_filter, List.mk_mem_zipIdx_iff_le_and_getElem?_sub,
    Nat.add_sub_cancel]
  exact and_congr_left' (and_iff_right (Nat.le_add_left 1 n))

theorem exists_number_of_mem (h : l ∈ codeLines 1 (lines text)) : ∃ n, l = (l.1, n + 1) := by
  rw [codeLines_lines] at h
  have hzip : (l.1, l.2) ∈ (lines text).zipIdx 1 := (List.mem_filter.mp h).1
  have hpos := (List.mk_mem_zipIdx_iff_le_and_getElem?_sub.mp hzip).1
  exact ⟨l.2 - 1, by rw [Nat.sub_add_cancel hpos]⟩

/-- In front of a line of code stand those with lower numbers. -/
theorem mem_take_codeLines {number i : Nat} {ls : List String} {l' : String × Nat}
    (hl : (codeLines number ls)[i]? = some l) (hl' : l' ∈ codeLines number ls) :
    l' ∈ (codeLines number ls).take i ↔ l'.2 < l.2 := by
  have hnumbers := List.pairwise_map.mp (pairwise_number_codeLines number ls)
  obtain ⟨hi, rfl⟩ := List.getElem?_eq_some_iff.mp hl
  obtain ⟨j, hj, rfl⟩ := List.mem_iff_getElem.mp hl'
  constructor
  · intro hmem
    obtain ⟨k, hk, hget⟩ := List.mem_take_iff_getElem.mp hmem
    rw [← hget]
    exact List.pairwise_iff_getElem.mp hnumbers k i (by omega) hi (by omega)
  · intro hlt
    refine List.mem_take_iff_getElem.mpr ⟨j, ?_, rfl⟩
    have hji : ¬i ≤ j := by
      intro hle
      rcases Nat.eq_or_lt_of_le hle with rfl | hij
      · exact Nat.lt_irrefl _ hlt
      · have := List.pairwise_iff_getElem.mp hnumbers i j hi hj hij
        omega
    omega

end Lines

namespace Statement

/-! ### Words of a line -/

theorem MnemonicAt.mem {indented : Bool} {fs : List Field} {mnemonic : Field}
    (h : MnemonicAt indented fs mnemonic) : mnemonic ∈ fs := by
  cases h <;> simp

/-- A field stands in its line, from its column on. -/
theorem isPrefix_of_mem_shape {line : String} {f : Field} (h : f ∈ (shape line).2) :
    0 < f.column ∧ f.text.toList <+: line.toList.drop (f.column - 1) := by
  obtain ⟨-, before, behind, hcode, hcolumn⟩ := exists_of_mem_fieldsFrom h
  obtain ⟨comment, hline⟩ := List.takeWhile_prefix (· ≠ '#') (l := line.toList)
  refine ⟨by omega, behind ++ comment, ?_⟩
  have hfront : f.column - 1 = before.length := by omega
  rw [← hline, ← codePart, hcode, hfront]
  simp

/-- What a statement takes from its line. -/
structure StandsOn (filename : String) (l : String × Nat) (s : Statement) (mnemonic : Field) :
    Prop where
  mnemonicAt : MnemonicAt (shape l.1).1 (shape l.1).2 mnemonic
  opcode : Opcode.ofText? mnemonic.text = some s.opcode
  location : s.location = ⟨filename, l.2, mnemonic.column⟩
  text : s.text = l.1
  operand : ∀ o ∈ s.operand, o ∈ (shape l.1).2

theorem exists_standsOn {filename : String} {l : String × Nat} {s : Statement}
    (h : Reads filename l s) : ∃ mnemonic, StandsOn filename l s mnemonic := by
  obtain ⟨tag, mnemonic, operand, opcode, hassign, hopcode, rfl⟩ := parse_eq_some_iff.mp h
  have hfields := (fields_of_assign hassign).1
  refine ⟨mnemonic, mnemonicAt_iff.mpr ⟨tag, operand, hassign⟩, hopcode, rfl, rfl, ?_⟩
  intro o ho
  have hoperand : operand = some o := ho
  rw [hfields, hoperand]
  simp

end Statement

/-! ### Culprits -/

open Statement in
/-- Of the lines before the line at an index, the one at `k` defines a tag, and no other does; the
field is its mnemonic. -/
structure DefinedAt (filename : String) (ls : List String) (n : Nat) (t : String) (k : Nat)
    (mnemonic : Field) : Prop where
  before : k < n
  defines : ∃ line s, ls[k]? = some line ∧ Reads filename (line, k + 1) s ∧ s.tag = some t ∧
    MnemonicAt (shape line).1 (shape line).2 mnemonic
  only : ∀ j < n, ∀ line s, ls[j]? = some line → Reads filename (line, j + 1) s →
    s.tag = some t → j = k

open Statement in
/-- The word that a fault is about, in the line at an index. -/
inductive Culprit (filename : String) (ls : List String) (n : Nat) (line : String) :
    SourceFault → Field → Prop where
  | unknownOpcode {mnemonic : Field} (hm : MnemonicAt (shape line).1 (shape line).2 mnemonic)
      (hno : isMnemonic mnemonic.text = false) :
      Culprit filename ls n line (.unknownOpcode mnemonic.text) mnemonic
  /-- The tag was defined before; the mnemonic stands for the statement that defines it again. -/
  | duplicateTag {s : Statement} {t : String} {k : Nat} {mnemonic first : Field}
      (hs : Reads filename (line, n + 1) s) (ht : s.tag = some t)
      (hm : MnemonicAt (shape line).1 (shape line).2 mnemonic)
      (hfirst : DefinedAt filename ls n t k first) :
      Culprit filename ls n line (.duplicateTag t (some ⟨filename, k + 1, first.column⟩)) mnemonic
  | undefinedTag {s : Statement} {operand : Field} {similar : List String}
      (hs : Reads filename (line, n + 1) s) (htag : s.opcode.takesTag = true)
      (ho : s.operand = some operand) (hfield : operand ∈ (shape line).2) :
      Culprit filename ls n line (.undefinedTag operand.text similar) operand
  | missingOperand {s : Statement} {mnemonic : Field} (hs : Reads filename (line, n + 1) s)
      (ho : s.operand = none) (hm : MnemonicAt (shape line).1 (shape line).2 mnemonic)
      (hopcode : Opcode.ofText? mnemonic.text = some s.opcode) :
      Culprit filename ls n line (.missingOperand s.opcode.name) mnemonic
  | literalOutOfRange {s : Statement} {operand : Field} (hs : Reads filename (line, n + 1) s)
      (hliteral : s.opcode = .hlt ∨ s.opcode = .dat) (ho : s.operand = some operand)
      (hfield : operand ∈ (shape line).2) :
      Culprit filename ls n line (.literalOutOfRange operand.text) operand

section Culprits

variable {filename line : String} {ls : List String} {n : Nat} {fault : SourceFault}
  {culprit : Field}

theorem Culprit.kind_ne (h : Culprit filename ls n line fault culprit) : fault.kind ≠ .parse := by
  cases h <;> exact nofun

theorem Culprit.mem_shape (h : Culprit filename ls n line fault culprit) :
    culprit ∈ (Statement.shape line).2 := by
  cases h with
  | unknownOpcode hm _ => exact hm.mem
  | duplicateTag _ _ hm _ => exact hm.mem
  | undefinedTag _ _ _ hfield => exact hfield
  | missingOperand _ _ hm _ => exact hm.mem
  | literalOutOfRange _ _ _ hfield => exact hfield

end Culprits

/-- An error that names a line of the source and quotes it, and the column of its culprit, unless it
is one of the kind that has none. -/
inductive Located (filename : String) (ls : List String) : SourceError → Prop where
  | line {n : Nat} {line : String} {fault : SourceFault} (hline : ls[n]? = some line)
      (hkind : fault.kind = .parse) :
      Located filename ls ⟨fault, some ⟨filename, n + 1, 0⟩, some line⟩
  | word {n : Nat} {line : String} {fault : SourceFault} {culprit : Field}
      (hline : ls[n]? = some line) (h : Culprit filename ls n line fault culprit) :
      Located filename ls ⟨fault, some ⟨filename, n + 1, culprit.column⟩, some line⟩

/-! ### Errors of the first pass -/

section Passes

variable {text filename line : String} {n : Nat} {e : SourceError}

theorem located_of_unreadable (hl : (line, n + 1) ∈ codeLines 1 (lines text))
    (h : Statement.Unreadable filename (line, n + 1) e) : Located filename (lines text) e := by
  have hline := (mem_codeLines_lines.mp hl).1
  cases h with
  | tooManyFields _ => exact .line hline rfl
  | indentedTag _ _ => exact .line hline rfl
  | unknownOpcode hm ho => exact .word hline (.unknownOpcode hm ho)

theorem located_of_wordless {s : Statement} {tags : List String}
    (hl : (line, n + 1) ∈ codeLines 1 (lines text))
    (hs : Statement.Reads filename (line, n + 1) s) (h : s.Wordless tags e) :
    Located filename (lines text) e := by
  have hline := (mem_codeLines_lines.mp hl).1
  obtain ⟨mnemonic, hon⟩ := Statement.exists_standsOn hs
  cases h with
  | missingOperand _ ho =>
    rw [hon.location, hon.text]
    exact .word hline (.missingOperand hs ho hon.mnemonicAt hon.opcode)
  | @literalOutOfRange operand hop ho _ =>
    rw [Statement.operandLocation, ho, hon.location, hon.text]
    exact .word hline (.literalOutOfRange hs hop ho (hon.operand operand ho))
  | @undefinedTag operand htag ho _ =>
    rw [Statement.operandLocation, ho, hon.location, hon.text]
    exact .word hline (.undefinedTag hs htag ho (hon.operand operand ho))

theorem eq_of_tag {ss : List Statement} (hnd : (Draft.tagsOf ss).Nodup) {s u : Statement}
    {t : String} (hs : s ∈ ss) (hu : u ∈ ss) (hst : s.tag = some t) (hut : u.tag = some t) :
    s = u := by
  obtain ⟨j, hj⟩ := List.mem_iff_getElem?.mp hs
  obtain ⟨k, hk⟩ := List.mem_iff_getElem?.mp hu
  obtain rfl := Draft.index_of_tag_unique hnd hj hst hk hut
  exact Option.some_inj.mp (hj.symm.trans hk)

theorem definedAt_of_find? {i : Nat} {ss : List Statement} {first : Statement} {t : String}
    (hl : (codeLines 1 (lines text))[i]? = some (line, n + 1))
    (hread : List.Forall₂ (Statement.Reads filename) ((codeLines 1 (lines text)).take i) ss)
    (hnd : (Draft.tagsOf ss).Nodup) (hfirst : ss.find? (·.tag == some t) = some first) :
    ∃ (k : Nat) (mnemonic : Field), first.location = ⟨filename, k + 1, mnemonic.column⟩ ∧
      DefinedAt filename (lines text) n t k mnemonic := by
  have hmem := List.mem_of_find?_eq_some hfirst
  have htag : first.tag = some t := by simpa using List.find?_some hfirst
  obtain ⟨l₁, htake, hreads⟩ := exists_mem_of_forall₂ hread hmem
  have hcode := List.mem_of_mem_take htake
  obtain ⟨k, hk⟩ := exists_number_of_mem hcode
  obtain ⟨mnemonic, hon⟩ := Statement.exists_standsOn hreads
  have hlt := (mem_take_codeLines hl hcode).mp htake
  rw [hk] at hcode hlt
  refine ⟨k, mnemonic, ?_, Nat.lt_of_succ_lt_succ hlt, ?_, ?_⟩
  · rw [hon.location, hk]
    rfl
  · refine ⟨l₁.1, first, (mem_codeLines_lines.mp hcode).1, ?_, htag, hon.mnemonicAt⟩
    rw [← hk]
    exact hreads
  · intro m hm line' s hline' hs hst
    have hcode' := mem_codeLines_lines.mpr ⟨hline', Statement.isCode_of_parse hs⟩
    have htake' := (mem_take_codeLines hl hcode').mpr (Nat.succ_lt_succ hm)
    obtain ⟨u, hu, hu'⟩ := exists_mem_of_forall₂ hread.flip htake'
    obtain rfl := hs.unique hu'
    -- no two statements in front carry the same tag
    obtain rfl := eq_of_tag hnd hu hmem hst htag
    have hlocation := (Statement.location_of_parse hs).2
    rw [hon.location, hk] at hlocation
    have hnumber : ((k + 1 : Nat) : Int) = (m + 1 : Nat) := hlocation
    omega

theorem located_of_survey (h : Draft.survey filename (lines text) = .error e) :
    Located filename (lines text) e := by
  obtain ⟨i, l, ss, hl, hread, hnd, hunfit⟩ :=
    Draft.unfit_of_surveyFrom filename (lines text) 1 [] (Nat.zero_le 100) List.nodup_nil h
  rw [List.length_nil, Nat.sub_zero] at hl hread
  rw [List.nil_append] at hnd hunfit
  have hi : i < 100 := by
    have := (List.getElem?_eq_some_iff.mp hl).1
    rw [List.length_take] at this
    omega
  rw [List.getElem?_take_of_lt hi] at hl
  rw [List.take_take, Nat.min_eq_left hi.le] at hread
  have hcode := List.mem_of_getElem? hl
  obtain ⟨n, hn⟩ := exists_number_of_mem hcode
  rw [hn] at hl hcode hunfit
  cases hunfit with
  | unreadable h => exact located_of_unreadable hcode h
  | duplicateTag hs ht hfirst =>
    obtain ⟨k, first, hlocation, hdefined⟩ := definedAt_of_find? hl hread hnd hfirst
    obtain ⟨mnemonic, hon⟩ := Statement.exists_standsOn hs
    rw [hlocation, hon.location, hon.text]
    exact .word (mem_codeLines_lines.mp hcode).1 (.duplicateTag hs ht hon.mnemonicAt hdefined)

/-- Every error of a source tells of its line, whichever pass finds it. -/
theorem located_of_assemble (h : assemble (lines text) filename = .error (.source e)) :
    Located filename (lines text) e := by
  rw [assemble] at h
  cases hs : Draft.survey filename (lines text) with
  | error e' =>
    rw [hs] at h
    obtain rfl := AssemblyError.source.inj (Except.error.inj h)
    exact located_of_survey hs
  | ok d =>
    rw [hs] at h
    obtain ⟨ss, hread, -, rfl⟩ := Draft.survey_eq_ok_iff.mp hs
    obtain ⟨i, l, s, hl, hreads, hencode, -⟩ := exists_of_finish_error hread h
    have hcode := List.mem_of_mem_take (List.mem_of_getElem? hl)
    obtain ⟨n, hn⟩ := exists_number_of_mem hcode
    rw [hn] at hcode hreads
    cases Statement.encode_eq_error_iff_refused.mp hencode with
    | wordless _ hwordless => exact located_of_wordless hcode hreads hwordless

end Passes

/-! ### Messages -/

/-- The caret stands in a line of its own, right under the quoted line, which is moved as far to the
right as the caret. -/
theorem message_of_column {fault : SourceFault} {place : Location} {line : String}
    (h : 0 < place.column) :
    (AssemblyError.source ⟨fault, some place, some line⟩).message = "\n".intercalate
      ((SourceError.diagnostic ⟨fault, some place, some line⟩).headline :: ("    " ++ line) ::
        (String.ofList (List.replicate (3 + place.column.toNat) ' ') ++ "^") ::
        (SourceError.diagnostic ⟨fault, some place, some line⟩).hintLine) := by
  show "\n".intercalate (Diagnostic.lines _) = _
  rw [Diagnostic.lines]
  simp only [Diagnostic.excerpt, SourceError.diagnostic, if_pos h]
  rfl

/-- An error of a source text points at its culprit. It names a line of the text by its number and
quotes it; but for errors about the fields as a whole it tells the column of a word, the one it is
about, which stands in the line from this column on; and in the message the caret stands under the
first character of this word in the quoted line. -/
theorem error_location {text filename : String} {e : SourceError}
    (h : assemble (lines text) filename = .error (.source e)) :
    ∃ (n : Nat) (line : String) (column : Nat), (lines text)[n]? = some line ∧
      e.place = some ⟨filename, n + 1, column⟩ ∧ e.quoted = some line ∧
      (column = 0 ↔ e.fault.kind = .parse) ∧
      (0 < column → ∃ culprit : Field, Culprit filename (lines text) n line e.fault culprit ∧
        culprit ∈ (Statement.shape line).2 ∧ culprit.column = column ∧
        culprit.text.toList <+: line.toList.drop (column - 1) ∧
        ∃ position more, (AssemblyError.source e).message = "\n".intercalate
            (e.diagnostic.headline :: ("    " ++ line) ::
              (String.ofList (List.replicate position ' ') ++ "^") :: more) ∧
          culprit.text.toList <+: ("    " ++ line).toList.drop position) := by
  cases located_of_assemble h with
  | @line n line fault hline hkind =>
    refine ⟨n, line, 0, hline, rfl, rfl, by simp [hkind], fun hpos => ?_⟩
    exact absurd hpos (Nat.lt_irrefl 0)
  | @word n line fault culprit hline hculprit =>
    have hmem := hculprit.mem_shape
    obtain ⟨hpos, hprefix⟩ := Statement.isPrefix_of_mem_shape hmem
    have hcolumn : culprit.column = 0 ↔ fault.kind = .parse :=
      iff_of_false (by omega) hculprit.kind_ne
    refine ⟨n, line, culprit.column, hline, rfl, rfl, hcolumn, fun _ => ?_⟩
    refine ⟨culprit, hculprit, hmem, rfl, hprefix, 3 + culprit.column, _,
      message_of_column (Int.natCast_pos.mpr hpos), ?_⟩
    -- four blanks in front of the line, and the column counts from one
    have hshift : 3 + culprit.column = "    ".toList.length + (culprit.column - 1) := by
      rw [show "    ".toList.length = 4 from rfl]
      omega
    rw [String.toList_append, hshift, List.drop_length_add_append]
    exact hprefix

/-- The last line defines the tag of the first once more; what looks like it in the second line is a
comment. -/
def redefinition : String := "a HLT\r\n# a DAT 1\u2028  BRZ a\na\tDAT 7 # again"

theorem error_location_redefinition :
    assemble (lines redefinition) "f" = .error (.source ⟨.duplicateTag "a" (some ⟨"f", 1, 3⟩),
        some ⟨"f", 4, 3⟩, some "a\tDAT 7 # again"⟩) ∧
      ∃ (line : String) (culprit : Field), (lines redefinition)[3]? = some line ∧
        Culprit "f" (lines redefinition) 3 line (.duplicateTag "a" (some ⟨"f", 1, 3⟩)) culprit ∧
        culprit.text.toList <+: line.toList.drop 2 := by
  have herror : assemble (lines redefinition) "f" =
      .error (.source ⟨.duplicateTag "a" (some ⟨"f", 1, 3⟩), some ⟨"f", 4, 3⟩,
        some "a\tDAT 7 # again"⟩) := by
    decide +kernel
  obtain ⟨n, line, column, hline, hplace, -, -, hword⟩ := error_location herror
  obtain ⟨rfl, rfl⟩ : n = 3 ∧ column = 3 := by
    simp only [Option.some.injEq, Location.mk.injEq] at hplace
    omega
  obtain ⟨culprit, hculprit, -, -, hprefix, -⟩ := hword (by decide)
  exact ⟨herror, line, culprit, hline, hculprit, hprefix⟩

end LittleMan
