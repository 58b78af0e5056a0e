/-
What can be wrong with a line of code and with a statement, by the rules of the language.

* `SourceFault.kind`, `AssemblyError.kind`: the kinds of errors;
* `Statement.Unreadable`: the lines that cannot be read, each with its error;
* `parse_eq_error_iff`: reading fails for just these lines;
* `Statement.HasWord`, `Statement.Wordless`: the statements that have a word, and those that have an
  error in its place;
* `exists_encode_iff`, `encode_eq_error_iff`: the second pass keeps to them, if no literal is too
  long to be read at all.
-/
import LittleMan.Proofs.Assembly
namespace LittleMan

open Text

/-! ### Kinds of errors -/

/-- What kinds of errors an assembly may end with. -/
inductive ErrorKind where
  | parse
  | unknownOpcode
  | duplicateTag
  | undefinedTag
  | missingOperand
  | literalOutOfRange
  | numeralTooLong
deriving DecidableEq, Repr

/-- Fields that do not fit a statement are of one kind, whether there are too many or one of them
would be a tag where none can stand. -/
def SourceFault.kind : SourceFault → ErrorKind
  | tooManyFields _ => .parse
  | indentedTag => .parse
  | unknownOpcode _ => .unknownOpcode
  | duplicateTag _ _ => .duplicateTag
  | undefinedTag _ _ => .undefinedTag
  | missingOperand _ => .missingOperand
  | literalOutOfRange _ => .literalOutOfRange

def AssemblyError.kind : AssemblyError → ErrorKind
  | source e => e.fault.kind
  | numeral _ => .numeralTooLong

namespace Statement

/-! ### Lines that cannot be read -/

/-- Which field is in the mnemonic's place, given whether the code starts with a blank. A tag stands
before it only on lines that do not, if there are three fields or only the second is a mnemonic. -/
inductive MnemonicAt : Bool → List Field → Field → Prop where
  | alone {indented : Bool} {mnemonic : Field} : MnemonicAt indented [mnemonic] mnemonic
  | first {indented : Bool} {mnemonic operand : Field}
      (h : indented = true ∨ isMnemonic mnemonic.text = true ∨ isMnemonic operand.text = false) :
      MnemonicAt indented [mnemonic, operand] mnemonic
  | tagged {tag mnemonic : Field} (ht : isMnemonic tag.text = false)
      (hm : isMnemonic mnemonic.text = true) : MnemonicAt false [tag, mnemonic] mnemonic
  | middle {tag mnemonic operand : Field} : MnemonicAt false [tag, mnemonic, operand] mnemonic

/-- A numbered line of code cannot be read, for this error. -/
inductive Unreadable (filename : String) (l : String × Nat) : SourceError → Prop where
  | tooManyFields (h : 3 < (shape l.1).2.length) :
      Unreadable filename l
        ⟨.tooManyFields (shape l.1).2.length, some ⟨filename, l.2, 0⟩, some l.1⟩
  | indentedTag (hi : (shape l.1).1 = true) (h : (shape l.1).2.length = 3) :
      Unreadable filename l ⟨.indentedTag, some ⟨filename, l.2, 0⟩, some l.1⟩
  | unknownOpcode {mnemonic : Field} (hm : MnemonicAt (shape l.1).1 (shape l.1).2 mnemonic)
      (ho : isMnemonic mnemonic.text = false) :
      Unreadable filename l
        ⟨.unknownOpcode mnemonic.text, some ⟨filename, l.2, mnemonic.column⟩, some l.1⟩

/-- The parser finds the mnemonic where it is. -/
theorem mnemonicAt_iff {indented : Bool} {fs : List Field} {mnemonic : Field} :
    MnemonicAt indented fs mnemonic ↔
      ∃ tag operand, assign indented fs = .ok (some (tag, mnemonic, operand)) := by
  constructor
  · intro h
    cases h with
    | alone => exact ⟨none, none, rfl⟩
    | @first _ _ operand h =>
      refine ⟨none, some operand, ?_⟩
      rw [assign, if_neg]
      rcases h with h | h | h <;> simp [h]
    | @tagged tag _ ht hm =>
      refine ⟨some tag, none, ?_⟩
      rw [assign, if_pos (by simp [ht, hm])]
    | @middle tag _ operand => exact ⟨some tag, some operand, rfl⟩
  · rintro ⟨tag, operand, h⟩
    -- one case for each number of fields, as the parser distinguishes them
    rcases fs with _ | ⟨a, _ | ⟨b, _ | ⟨c, _ | ⟨d, rest⟩⟩⟩⟩
    · simp [assign] at h
    · obtain ⟨-, rfl, -⟩ := by simpa [assign] using h
      exact .alone
    · rw [assign] at h
      split at h
      · next hb =>
        obtain ⟨-, rfl, -⟩ := by simpa using h
        obtain ⟨⟨rfl, ht⟩, hm⟩ := by simpa using hb
        exact .tagged ht hm
      · next hb =>
        obtain ⟨-, rfl, -⟩ := by simpa using h
        refine .first ?_
        by_contra hno
        simp only [not_or, Bool.not_eq_true, Bool.not_eq_false] at hno
        exact hb (by simp [hno])
    · rw [assign] at h
      cases indented
      · obtain ⟨-, rfl, -⟩ := by simpa using h
        exact .middle
      · simp at h
    · simp [assign] at h

theorem MnemonicAt.unique {indented : Bool} {fs : List Field} {f g : Field}
    (hf : MnemonicAt indented fs f) (hg : MnemonicAt indented fs g) : f = g := by
  obtain ⟨tag, operand, hf⟩ := mnemonicAt_iff.mp hf
  obtain ⟨tag', operand', hg⟩ := mnemonicAt_iff.mp hg
  simp_all

theorem assign_eq_error_iff {indented : Bool} {fs : List Field} {fault : SourceFault} :
    assign indented fs = .error fault ↔
      (3 < fs.length ∧ fault = .tooManyFields fs.length) ∨
        (indented = true ∧ fs.length = 3 ∧ fault = .indentedTag) := by
  rcases fs with _ | ⟨a, _ | ⟨b, _ | ⟨c, _ | ⟨d, rest⟩⟩⟩⟩
  · simp [assign]
  · simp [assign]
  · rw [assign]
    split <;> simp
  · cases indented <;> simp [assign, eq_comm]
  · simp [assign, eq_comm]

/-- Reading fails for just the lines that cannot be read. -/
theorem parse_eq_error_iff {filename : String} {l : String × Nat} {e : SourceError} :
    parse l.1 l.2 filename = .error e ↔ Unreadable filename l e := by
  rw [parse_eq_ofFields]
  constructor
  · intro h
    rcases ha : assign (shape l.1).1 (shape l.1).2 with fault | _ | ⟨tag, mnemonic, operand⟩ <;>
      rw [ha, ofFields] at h
    · obtain rfl := Except.error.inj h
      rcases assign_eq_error_iff.mp ha with ⟨hlt, rfl⟩ | ⟨hi, hlen, rfl⟩
      · exact .tooManyFields hlt
      · exact .indentedTag hi hlen
    · simp at h
    · split at h
      · next ho =>
        obtain rfl := Except.error.inj h
        exact .unknownOpcode (mnemonicAt_iff.mpr ⟨tag, operand, ha⟩) (by rw [isMnemonic, ho]; rfl)
      · simp at h
  · intro h
    cases h with
    | tooManyFields h => rw [assign_eq_error_iff.mpr (.inl ⟨h, rfl⟩), ofFields]
    | indentedTag hi h => rw [assign_eq_error_iff.mpr (.inr ⟨hi, h, rfl⟩), ofFields]
    | unknownOpcode hm ho =>
      obtain ⟨tag, operand, ha⟩ := mnemonicAt_iff.mp hm
      rw [isMnemonic, Option.isSome_eq_false_iff, Option.isNone_iff_eq_none] at ho
      rw [ha, ofFields, ho]

/-- A line of code is read as a statement, or it cannot be read. -/
theorem reads_or_unreadable {l : String × Nat} (h : isCode l.1 = true) (filename : String) :
    (∃ s, Reads filename l s) ∨ ∃ e, Unreadable filename l e := by
  rcases hp : parse l.1 l.2 filename with e | _ | s
  · exact .inr ⟨e, parse_eq_error_iff.mp hp⟩
  · exact absurd (parse_eq_none_iff.mp hp) (by simp [h])
  · exact .inl ⟨s, hp⟩

theorem Unreadable.not_reads {filename : String} {l : String × Nat} {e : SourceError}
    (h : Unreadable filename l e) (s : Statement) : ¬Reads filename l s := by
  intro hs
  exact absurd ((parse_eq_error_iff.mpr h).symm.trans hs) (by simp)

/-! ### Statements without a word -/

/-- A statement has a word in a program of the given tags. -/
inductive HasWord (tags : List String) (s : Statement) : Prop where
  | transfer (h : s.opcode.isTransfer = true)
  | halt (h : s.opcode = .hlt) (ho : s.operand = none)
  | literal {operand : Field} (h : s.opcode = .hlt ∨ s.opcode = .dat)
      (ho : s.operand = some operand) (hd : isNumeral operand.text.toList = true)
      (hv : decimal operand.text.toList ≤ 999)
  | reference {operand : Field} (h : s.opcode.takesTag = true) (ho : s.operand = some operand)
      (ht : operand.text ∈ tags)

/-- A statement has no word in a program of the given tags, for this error. -/
inductive Wordless (tags : List String) (s : Statement) : SourceError → Prop where
  | missingOperand (h : s.opcode = .dat ∨ s.opcode.takesTag = true) (ho : s.operand = none) :
      Wordless tags s ⟨.missingOperand s.opcode.name, some s.location, some s.text⟩
  | literalOutOfRange {operand : Field} (h : s.opcode = .hlt ∨ s.opcode = .dat)
      (ho : s.operand = some operand)
      (hv : isNumeral operand.text.toList = true → 999 < decimal operand.text.toList) :
      Wordless tags s ⟨.literalOutOfRange operand.text, some s.operandLocation, some s.text⟩
  | undefinedTag {operand : Field} (h : s.opcode.takesTag = true) (ho : s.operand = some operand)
      (ht : operand.text ∉ tags) :
      Wordless tags s
        ⟨.undefinedTag operand.text (TagTable.similar operand.text tags), some s.operandLocation,
          some s.text⟩

/-- A literal of the statement is not longer than what is read at all. -/
def HasShortLiteral (s : Statement) : Prop :=
  (s.opcode = .hlt ∨ s.opcode = .dat) → ∀ operand ∈ s.operand,
    isNumeral operand.text.toList = true → operand.text.toList.length ≤ maxNumeralLength

instance (s : Statement) : Decidable s.HasShortLiteral := inferInstanceAs (Decidable (_ → _))

section Words

variable {tags : List String} {s : Statement} {e e' : SourceError}

/-- Of any two rules, opcode or operand decides which applies. -/
theorem HasWord.not_wordless (h : s.HasWord tags) : ¬s.Wordless tags e := by
  rintro (⟨h', ho'⟩ | ⟨h', ho', hv'⟩ | ⟨h', ho', ht'⟩) <;>
    rcases h with h | ⟨h, ho⟩ | ⟨h, ho, hd, hv⟩ | ⟨h, ho, ht⟩ <;>
    cases hop : s.opcode <;> simp_all [Opcode.isTransfer, Opcode.takesTag]
  all_goals omega

theorem Wordless.unique (h : s.Wordless tags e) (h' : s.Wordless tags e') : e = e' := by
  rcases h with ⟨h, ho⟩ | ⟨h, ho, hv⟩ | ⟨h, ho, ht⟩ <;>
    rcases h' with ⟨h', ho'⟩ | ⟨h', ho', hv'⟩ | ⟨h', ho', ht'⟩ <;>
    cases hop : s.opcode <;> simp_all [Opcode.takesTag]

/-- A literal that is read at all is a word or out of range. -/
theorem encodeLiteral_cases {operand : Field}
    (hshort : isNumeral operand.text.toList = true →
      operand.text.toList.length ≤ maxNumeralLength) :
    ((∃ w, s.encodeLiteral operand = .ok w) ∧ isNumeral operand.text.toList = true ∧
        decimal operand.text.toList ≤ 999) ∨
      s.encodeLiteral operand =
          .error (s.errorAt s.operandLocation (.literalOutOfRange operand.text)) ∧
        (isNumeral operand.text.toList = true → 999 < decimal operand.text.toList) := by
  rw [encodeLiteral]
  cases hd : isNumeral operand.text.toList with
  | false => exact .inr ⟨rfl, by simp⟩
  | true =>
    have hread : readNumeral operand.text.toList = .ok (digitsValue operand.text.toList) :=
      if_neg (Nat.not_lt.mpr (hshort hd))
    rw [hread, ← digitsValue_eq_decimal]
    simp only [Bool.not_true, Bool.false_eq_true, if_false]
    by_cases hv : digitsValue operand.text.toList ≤ 999
    · have hword : (Word.ofInt? (digitsValue operand.text.toList)).isSome = true := by
        rw [Word.isSome_ofInt?, isWord_iff]
        omega
      obtain ⟨w, hw⟩ := Option.isSome_iff_exists.mp hword
      exact .inl ⟨⟨w, by rw [hw]⟩, trivial, hv⟩
    · have hword : Word.ofInt? (digitsValue operand.text.toList) = none := by
        rw [← Option.not_isSome_iff_eq_none, Word.isSome_ofInt?, isWord_iff]
        omega
      exact .inr ⟨by rw [hword], fun _ => Nat.lt_of_not_le hv⟩

/-- Encoding a statement finds its word, or the error that it has in its place. -/
theorem encode_cases (hshort : s.HasShortLiteral) (t : TagTable) :
    ((∃ w, s.encode t = .ok w) ∧ s.HasWord t.names) ∨
      ∃ e, s.encode t = .error (.source e) ∧ s.Wordless t.names e := by
  rw [encode]
  -- transfers take no operand, halts and data a literal, the others a tag
  rcases s.opcode.cases_of with h | h | h
  · have htransfer : s.opcode.isTransfer = true := by rcases h with h | h <;> rw [h] <;> rfl
    rw [if_pos htransfer]
    exact .inl ⟨⟨_, rfl⟩, .transfer htransfer⟩
  · have htransfer : ¬s.opcode.isTransfer = true := by rcases h with h | h <;> rw [h] <;> decide
    have htag : ¬s.opcode.takesTag = true := by rcases h with h | h <;> rw [h] <;> decide
    rw [if_neg htransfer]
    cases ho : s.operand with
    | none =>
      rcases h with h | h
      · exact .inl ⟨⟨_, if_pos h⟩, .halt h ho⟩
      · exact .inr ⟨_, if_neg (by rw [h]; decide), .missingOperand (.inl h) ho⟩
    | some operand =>
      dsimp only
      rw [if_neg htag]
      rcases encodeLiteral_cases (s := s) (hshort h operand ho) with ⟨hw, hd, hv⟩ | ⟨he, hv⟩
      · exact .inl ⟨hw, .literal h ho hd hv⟩
      · exact .inr ⟨_, he, .literalOutOfRange h ho hv⟩
  · have htransfer : ¬s.opcode.isTransfer = true := by
      revert h
      cases s.opcode <;> decide
    have hhalt : s.opcode ≠ .hlt := by
      intro he
      rw [he] at h
      exact absurd h (by decide)
    rw [if_neg htransfer]
    cases ho : s.operand with
    | none => exact .inr ⟨_, if_neg hhalt, .missingOperand (.inr h) ho⟩
    | some operand =>
      dsimp only
      rw [if_pos h]
      cases ha : t.address? operand.text with
      | none =>
        exact .inr ⟨_, rfl, .undefinedTag h ho (TagTable.address?_eq_none_iff.mp ha)⟩
      | some a =>
        have hmem : operand.text ∈ t.names := by
          by_contra hno
          exact absurd ((TagTable.address?_eq_none_iff.mpr hno).symm.trans ha) (by simp)
        exact .inl ⟨⟨_, rfl⟩, .reference h ho hmem⟩

theorem exists_encode_iff (hshort : s.HasShortLiteral) {t : TagTable} :
    (∃ w, s.encode t = .ok w) ↔ s.HasWord t.names := by
  rcases encode_cases hshort t with ⟨hw, hword⟩ | ⟨e, he, hfault⟩
  · exact iff_of_true hw hword
  · refine iff_of_false ?_ fun hword => hword.not_wordless hfault
    rintro ⟨w, hw⟩
    exact absurd (he.symm.trans hw) (by simp)

theorem encode_eq_error_iff (hshort : s.HasShortLiteral) {t : TagTable} {x : AssemblyError} :
    s.encode t = .error x ↔ ∃ e, x = .source e ∧ s.Wordless t.names e := by
  rcases encode_cases hshort t with ⟨⟨w, hw⟩, hword⟩ | ⟨e, he, hfault⟩
  · refine iff_of_false ?_ ?_
    · rw [hw]
      simp
    · rintro ⟨e, -, hfault⟩
      exact hword.not_wordless hfault
  · rw [he]
    constructor
    · intro h
      exact ⟨e, (Except.error.inj h).symm, hfault⟩
    · rintro ⟨e', rfl, hfault'⟩
      rw [hfault.unique hfault']

end Words

end Statement

end LittleMan
