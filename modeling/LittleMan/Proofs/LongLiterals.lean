/-
Literals of more digits than are read.

A numeral of more than `maxNumeralLength` digits is not read at all, not even to find that it is out
of range. If the second pass comes to such a literal the assembly stops, and what stops it is no
error of the source.

* `Statement.Refused`, `encode_eq_error_iff_refused`: the statements that the second pass refuses,
  whatever their literals are;
* `StoppedBy`, `assemble_eq_error_iff`: the error that stops an assembly;
* `assemble_errors`: it is an error of the source as long as the literals can be read, and a literal
  that can be read is refused only for being none or out of range;
* `assemble_long_literal`: a line of data that is refused otherwise.
-/
import LittleMan.Proofs.Packing.Lines
import LittleMan.Proofs.Verdict
namespace LittleMan

open Text

/-! ### Statements -/

namespace Statement

/-- A halt or data statement with a literal of `n` digits, too many to be read. -/
structure HasLongLiteral (s : Statement) (n : Nat) : Prop where
  opcode : s.opcode = .hlt ∨ s.opcode = .dat
  numeral : ∃ operand, s.operand = some operand ∧ isNumeral operand.text.toList = true ∧
    operand.text.toList.length = n
  long : maxNumeralLength < n

/-- The second pass refuses a statement in a program of the given tags, for this error. -/
inductive Refused (tags : List String) (s : Statement) : AssemblyError → Prop where
  | long {n : Nat} (h : s.HasLongLiteral n) : Refused tags s (.numeral ⟨n⟩)
  | wordless {e : SourceError} (hshort : s.HasShortLiteral) (h : s.Wordless tags e) :
      Refused tags s (.source e)

variable {s : Statement} {n m : Nat} {tags : List String} {x x' : AssemblyError}

theorem HasLongLiteral.not_short (h : s.HasLongLiteral n) : ¬s.HasShortLiteral := by
  obtain ⟨operand, ho, hd, rfl⟩ := h.numeral
  intro hshort
  exact absurd (hshort h.opcode operand ho hd) (Nat.not_le_of_lt h.long)

theorem hasShortLiteral_or_long (s : Statement) : s.HasShortLiteral ∨ ∃ n, s.HasLongLiteral n := by
  by_contra hno
  rw [not_or, not_exists] at hno
  refine hno.1 fun hop operand ho hd => Nat.le_of_not_lt fun hlt => ?_
  exact hno.2 _ ⟨hop, ⟨operand, ho, hd, rfl⟩, hlt⟩

theorem HasLongLiteral.unique (h : s.HasLongLiteral n) (h' : s.HasLongLiteral m) : n = m := by
  obtain ⟨operand, ho, -, rfl⟩ := h.numeral
  obtain ⟨operand', ho', -, rfl⟩ := h'.numeral
  rw [Option.some_inj.mp (ho.symm.trans ho')]

theorem Refused.unique (h : s.Refused tags x) (h' : s.Refused tags x') : x = x' := by
  cases h with
  | long h =>
    cases h' with
    | long h' => rw [h.unique h']
    | wordless hshort _ => exact absurd hshort h.not_short
  | wordless hshort h =>
    cases h' with
    | long h' => exact absurd hshort h'.not_short
    | wordless _ h' => rw [h.unique h']

theorem encode_eq_encodeLiteral {operand : Field} (h : s.opcode = .hlt ∨ s.opcode = .dat)
    (ho : s.operand = some operand) (t : TagTable) : s.encode t = s.encodeLiteral operand := by
  have htransfer : ¬s.opcode.isTransfer = true := by rcases h with h | h <;> rw [h] <;> decide
  have htag : ¬s.opcode.takesTag = true := by rcases h with h | h <;> rw [h] <;> decide
  rw [encode, if_neg htransfer, ho]
  exact if_neg htag

theorem encode_of_long (h : s.HasLongLiteral n) (t : TagTable) :
    s.encode t = .error (.numeral ⟨n⟩) := by
  obtain ⟨operand, ho, hd, rfl⟩ := h.numeral
  rw [encode_eq_encodeLiteral h.opcode ho, encodeLiteral, readNumeral_of_lt h.long, hd]
  rfl

theorem encode_eq_error_iff_refused {t : TagTable} :
    s.encode t = .error x ↔ s.Refused t.names x := by
  rcases s.hasShortLiteral_or_long with hshort | ⟨n, hlong⟩
  · rw [encode_eq_error_iff hshort]
    constructor
    · rintro ⟨e, rfl, h⟩
      exact .wordless hshort h
    · rintro (h | ⟨-, h⟩)
      · exact absurd hshort h.not_short
      · exact ⟨_, rfl, h⟩
  · rw [encode_of_long hlong]
    constructor
    · intro h
      rw [← Except.error.inj h]
      exact .long hlong
    · intro h
      rw [h.unique (.long hlong)]

end Statement

/-! ### Whole assemblies -/

/-- The second pass refuses the statement on the line at an index. -/
def RefusedAt (filename : String) (ls : List (String × Nat)) (i : Nat) (x : AssemblyError) : Prop :=
  ∃ l s, ls[i]? = some l ∧ Statement.Reads filename l s ∧
    s.Refused (Draft.tagsOf (readable filename ls)) x

/-- The error that stops an assembly of these lines of code, whatever their literals are. -/
inductive StoppedBy (filename : String) (ls : List (String × Nat)) : AssemblyError → Prop where
  | first {e : SourceError} (h : Earliest (FirstPassFault filename ls) e) :
      StoppedBy filename ls (.source e)
  | second {i : Nat} {x : AssemblyError} (hnone : ∀ i e, ¬FirstPassFault filename ls i e)
      (h : RefusedAt filename ls i x) (hbefore : ∀ j < i, ∀ x', ¬RefusedAt filename ls j x') :
      StoppedBy filename ls x

section Errors

variable {filename : String} {ls : List (String × Nat)} {lines : List String} {i : Nat}
  {x x' : AssemblyError}

theorem RefusedAt.unique (h : RefusedAt filename ls i x) (h' : RefusedAt filename ls i x') :
    x = x' := by
  obtain ⟨l, s, hl, hs, hrefused⟩ := h
  obtain ⟨l', s', hl', hs', hrefused'⟩ := h'
  obtain rfl := Option.some_inj.mp (hl.symm.trans hl')
  obtain rfl := hs.unique hs'
  exact hrefused.unique hrefused'

theorem StoppedBy.unique (h : StoppedBy filename ls x) (h' : StoppedBy filename ls x') :
    x = x' := by
  cases h with
  | first h =>
    cases h' with
    | first h' => rw [h.unique h' FirstPassFault.unique]
    | second hnone _ _ =>
      obtain ⟨i, hi, -⟩ := h
      exact absurd hi (hnone i _)
  | @second i _ hnone h hbefore =>
    cases h' with
    | first h' =>
      obtain ⟨i, hi, -⟩ := h'
      exact absurd hi (hnone i _)
    | @second j _ _ h' hbefore' =>
      obtain rfl := earliest_index_unique h hbefore h' hbefore'
      exact h.unique h'

theorem stoppedBy_of_assemble (h : assemble lines filename = .error x) :
    StoppedBy filename ((codeLines 1 lines).take 100) x := by
  rw [assemble] at h
  cases hs : Draft.survey filename lines with
  | error e =>
    rw [hs] at h
    rw [← Except.error.inj h]
    exact .first (earliest_of_survey hs)
  | ok d =>
    rw [hs] at h
    obtain ⟨ss, hread, hnd, rfl⟩ := Draft.survey_eq_ok_iff.mp hs
    obtain ⟨i, l, s, hl, hreads, hencode, hbefore⟩ := exists_of_finish_error hread h
    rw [Statement.encode_eq_error_iff_refused, Draft.names_ofStatements,
      ← readable_of_reads hread] at hencode
    refine .second (fun i e => not_firstPassFault_of_reads hread hnd) ⟨l, s, hl, hreads, hencode⟩ ?_
    rintro j hj x' ⟨l', u, hl', hu, hrefused⟩
    rw [readable_of_reads hread, ← Draft.names_ofStatements ss,
      ← Statement.encode_eq_error_iff_refused] at hrefused
    obtain ⟨w, hw⟩ := hbefore j hj l' u hl' hu
    exact absurd (hw.symm.trans hrefused) (by simp)

theorem not_stoppedBy_of_assemble {p : Program} (h : assemble lines filename = .ok p) :
    ¬StoppedBy filename ((codeLines 1 lines).take 100) x := by
  have hp := assemble_eq_ok_iff.mp h
  intro hstopped
  cases hstopped with
  | first hfirst =>
    obtain ⟨i, hi, -⟩ := hfirst
    exact not_firstPassFault_of_reads hp.read hp.distinct hi
  | second _ hsecond _ =>
    obtain ⟨l, s, hl, hs, hrefused⟩ := hsecond
    rw [readable_of_reads hp.read, ← hp.names, ← Statement.encode_eq_error_iff_refused] at hrefused
    -- yet every statement has its word
    obtain ⟨words, hwords, -⟩ := hp.exists_words
    obtain ⟨s', hget, hs'⟩ := exists_getElem?_of_forall₂ hp.read hl
    obtain ⟨w, -, hw⟩ := exists_getElem?_of_forall₂ hwords hget
    rw [← hs.unique hs'] at hw
    exact absurd (hw.symm.trans hrefused) (by simp)

theorem assemble_eq_error_iff :
    assemble lines filename = .error x ↔
      StoppedBy filename ((codeLines 1 lines).take 100) x := by
  refine ⟨stoppedBy_of_assemble, fun hstopped => ?_⟩
  cases h : assemble lines filename with
  | ok p => exact absurd hstopped (not_stoppedBy_of_assemble h)
  | error x' => rw [hstopped.unique (stoppedBy_of_assemble h)]

/-- An assembly that fails is stopped by the earliest fault of the first pass, or, if there is none,
by the earliest statement that the second pass refuses. That is an error of the source, unless it is
a literal of too many digits. A literal of fewer digits gives its value if it is a decimal number up
to 999, and is out of range if not. -/
theorem assemble_errors (lines : List String) (filename : String) :
    (∀ x, assemble lines filename = .error x ↔
      StoppedBy filename ((codeLines 1 lines).take 100) x) ∧
    ((∀ s ∈ readable filename ((codeLines 1 lines).take 100), s.HasShortLiteral) →
      (∃ p, assemble lines filename = .ok p) ∨
        ∃ e, assemble lines filename = .error (.source e)) ∧
    ∀ (s : Statement) (operand : Field) (t : TagTable), (s.opcode = .hlt ∨ s.opcode = .dat) →
      s.operand = some operand → s.HasShortLiteral →
      (isNumeral operand.text.toList = true → decimal operand.text.toList ≤ 999 →
        ∃ w, s.encode t = .ok w ∧ w.val = decimal operand.text.toList) ∧
      ((isNumeral operand.text.toList = true → 999 < decimal operand.text.toList) →
        s.encode t = .error (.source
          ⟨.literalOutOfRange operand.text, some s.operandLocation, some s.text⟩)) := by
  refine ⟨fun x => assemble_eq_error_iff, fun hshort => ?_, fun s operand t hop ho hshort => ?_⟩
  · cases h : assemble lines filename with
    | ok p => exact .inl ⟨p, rfl⟩
    | error x =>
      obtain ⟨e, rfl, -⟩ := stopped_of_assemble hshort h
      exact .inr ⟨e, rfl⟩
  · refine ⟨fun hd hv => ?_, fun hv => ?_⟩
    · obtain ⟨w, hw⟩ := (Statement.exists_encode_iff hshort (t := t)).mpr (.literal hop ho hd hv)
      rw [Statement.encode_eq_encodeLiteral hop ho] at hw ⊢
      exact ⟨w, hw, (Statement.encodeLiteral_eq_ok_iff.mp hw).2.2⟩
    · exact (Statement.encode_eq_error_iff hshort).mpr ⟨_, rfl, .literalOutOfRange hop ho hv⟩

end Errors

/-- Leading zeros do not count, and a digit that is not of the ten makes no number. -/
def oddLiterals : List String := ["\tHLT 00999", "\tDAT \uFF19"]

theorem assemble_errors_odd_literals :
    (∀ s ∈ readable "f" ((codeLines 1 oddLiterals).take 100), s.HasShortLiteral) ∧
      (∃ e, assemble oddLiterals "f" = .error (.source e)) ∧
      StoppedBy "f" ((codeLines 1 oddLiterals).take 100)
        (.source ⟨.literalOutOfRange "\uFF19", some ⟨"f", 2, 6⟩, some "\tDAT \uFF19"⟩) := by
  have hshort : ∀ s ∈ readable "f" ((codeLines 1 oddLiterals).take 100), s.HasShortLiteral := by
    decide +kernel
  have herror : assemble oddLiterals "f" = .error
      (.source ⟨.literalOutOfRange "\uFF19", some ⟨"f", 2, 6⟩, some "\tDAT \uFF19"⟩) := by
    decide +kernel
  obtain ⟨hstopped, hsource, -⟩ := assemble_errors oddLiterals "f"
  refine ⟨hshort, (hsource hshort).resolve_left ?_, (hstopped _).mp herror⟩
  rintro ⟨p, hp⟩
  exact absurd (hp.symm.trans herror) (by simp)

/-! ### A line of data that is not read -/

/-- The line is code and has no tag, so the second pass comes to its literal. -/
theorem assemble_dataLine_of_long {number comment : String}
    (hd : isNumeral number.toList = true) (hlong : maxNumeralLength < number.toList.length)
    (hcomment : IsLine comment.toList) (filename : String) :
    assemble [Statement.dataLine none number comment] filename =
      .error (.numeral ⟨number.toList.length⟩) := by
  have hname : Statement.IsName number := isWord_of_isNumeral hd
  have htag : ∀ t ∈ (none : Option String), Statement.IsName t := by simp
  have hline : IsLine (Statement.dataLine none number comment).toList :=
    Statement.isLine_dataLine (by simp [IsLine]) (.of_not_blank hname.1.2) hcomment
  have hcode : codeLines 1 [Statement.dataLine none number comment] =
      [(Statement.dataLine none number comment, 1)] := by
    rw [codeLines_cons_of_isLine hline, if_pos (Statement.isCode_dataLine htag hname comment)]
    rfl
  obtain ⟨s, hs, hnone, hop, htext⟩ :=
    Statement.parse_dataLine htag hname comment 1 filename
  obtain ⟨operand, ho, rfl⟩ := Option.map_eq_some_iff.mp htext
  have hread : List.Forall₂ (Statement.Reads filename)
      [(Statement.dataLine none operand.text comment, 1)] [s] := .cons hs .nil
  have hdistinct : (Draft.tagsOf [s]).Nodup := by
    rw [Draft.tagsOf, List.filterMap_cons_none hnone]
    exact List.nodup_nil
  rw [assemble_eq_error_iff, hcode]
  refine .second (i := 0) (fun i e => not_firstPassFault_of_reads hread hdistinct)
    ⟨_, s, rfl, hs, .long ⟨.inr hop, ⟨operand, ho, hd, rfl⟩, hlong⟩⟩ ?_
  intro j hj
  exact absurd hj (Nat.not_lt_zero j)

/-- So a line of data can fail to assemble with an error that is none of the source. -/
theorem assemble_too_many_ones :
    assemble [Statement.dataLine none tooManyOnes "ones"] "f" = .error (.numeral ⟨4301⟩) := by
  have hlong : maxNumeralLength < tooManyOnes.toList.length := by
    rw [length_tooManyOnes]
    decide
  rw [assemble_dataLine_of_long isNumeral_tooManyOnes hlong (isLine_of_all (by decide +kernel)),
    length_tooManyOnes]

end LittleMan
