/-
What the parser of a line looks at, and what it makes of it.

* `Statement.shape`: whether the code starts with a blank, and its fields; nothing else counts
  (`parse_of_shape`);
* `parse_eq_some_iff`: when a line is read as a statement, and as which;
* `parse_eq_none_iff`: the lines without a statement are those without code;
* `Extends.shape_eq`: blanks at the end of a line of code do not count, so neither trimming it
  (`shape_trimEnd`) nor taking away its terminator (`shape_stripNewline`) makes a difference.
-/
import LittleMan.Source.Statement
import LittleMan.Proofs.Text.Fields
import LittleMan.Proofs.Text.Lines
namespace LittleMan

open Text

namespace Statement

/-- Whether the code of a line starts with a blank, and its fields. -/
def shape (text : String) : Bool × List Field :=
  ((codePart text.toList).head?.any isBlank, fields (codePart text.toList))

theorem isCode_iff {text : String} : isCode text = true ↔ fields (codePart text.toList) ≠ [] := by
  rw [Ne, fields_eq_nil_iff, isCode, Bool.not_eq_true', Bool.not_eq_true]

theorem not_allBlank_of_isCode {text : String} (h : isCode text = true) :
    ¬AllBlank text.toList := by
  intro hblank
  have hcode : AllBlank (codePart text.toList) :=
    fun c hc => hblank c ((List.takeWhile_sublist _).subset hc)
  rw [isCode, allBlank_iff.mp hcode] at h
  exact absurd h (by simp)

theorem isCode_iff_shape {text : String} : isCode text = true ↔ (shape text).2 ≠ [] := isCode_iff

/-! ### Reading a line -/

theorem assign_eq_none_iff {indented : Bool} {fs : List Field} :
    assign indented fs = .ok none ↔ fs = [] := by
  constructor
  · intro h
    rcases fs with _ | ⟨a, _ | ⟨b, _ | ⟨c, _ | ⟨d, rest⟩⟩⟩⟩
    · rfl
    · simp [assign] at h
    · simp only [assign] at h
      split at h <;> simp at h
    · simp only [assign] at h
      split at h <;> simp at h
    · simp [assign] at h
  · rintro rfl
    rfl

/-- Tag, mnemonic and operand are the fields of the line, in this order. Only a line that does not
start with a blank has a tag, and what stands alone in front of a mnemonic is one if it is no
mnemonic itself. -/
theorem fields_of_assign {indented : Bool} {fs : List Field} {tag operand : Option Field}
    {mnemonic : Field} (h : assign indented fs = .ok (some (tag, mnemonic, operand))) :
    fs = tag.toList ++ mnemonic :: operand.toList ∧ (tag.isSome → indented = false) ∧
      (operand = none → ∀ t ∈ tag, isMnemonic t.text = false) := by
  rcases fs with _ | ⟨a, _ | ⟨b, _ | ⟨c, _ | ⟨d, rest⟩⟩⟩⟩
  · simp [assign] at h
  · simp only [assign, Except.ok.injEq, Option.some.injEq, Prod.mk.injEq] at h
    obtain ⟨rfl, rfl, rfl⟩ := h
    simp
  · simp only [assign] at h
    split at h
    · next hcond =>
      simp only [Except.ok.injEq, Option.some.injEq, Prod.mk.injEq] at h
      obtain ⟨rfl, rfl, rfl⟩ := h
      simp_all
    · simp only [Except.ok.injEq, Option.some.injEq, Prod.mk.injEq] at h
      obtain ⟨rfl, rfl, rfl⟩ := h
      simp
  · simp only [assign] at h
    split at h
    · exact absurd h (by simp)
    · next hindented =>
      simp only [Except.ok.injEq, Option.some.injEq, Prod.mk.injEq] at h
      obtain ⟨rfl, rfl, rfl⟩ := h
      simpa using hindented
  · simp [assign] at h

/-- What fields that were told apart make of a line. -/
def ofFields (text : String) (line : Int) (filename : String) :
    Except SourceFault (Option (Option Field × Field × Option Field)) →
      Except SourceError (Option Statement)
  | .error fault => .error ⟨fault, some ⟨filename, line, 0⟩, some text⟩
  | .ok none => .ok none
  | .ok (some (tag, mnemonic, operand)) =>
    let location : Location := ⟨filename, line, mnemonic.column⟩
    match Opcode.ofText? mnemonic.text with
    | none => .error ⟨.unknownOpcode mnemonic.text, some location, some text⟩
    | some opcode => .ok (some { location, text, tag := tag.map Field.text, opcode, operand })

theorem parse_eq_ofFields (text : String) (line : Int) (filename : String) :
    parse text line filename =
      ofFields text line filename (assign (shape text).1 (shape text).2) := rfl

/-- A line is read as a statement if its fields can be told apart and the mnemonic is one. -/
theorem parse_eq_some_iff {text : String} {line : Int} {filename : String} {s : Statement} :
    parse text line filename = .ok (some s) ↔
      ∃ tag mnemonic operand opcode,
        assign (shape text).1 (shape text).2 = .ok (some (tag, mnemonic, operand)) ∧
        Opcode.ofText? mnemonic.text = some opcode ∧
        s = { location := ⟨filename, line, mnemonic.column⟩, text, tag := tag.map Field.text,
              opcode, operand } := by
  rw [parse_eq_ofFields]
  rcases assign (shape text).1 (shape text).2 with _ | (_ | ⟨tag, mnemonic, operand⟩)
  · simp [ofFields]
  · simp [ofFields]
  · constructor
    · intro h
      rw [ofFields] at h
      split at h
      · exact absurd h (by simp)
      · next opcode ho =>
        obtain rfl := Option.some_inj.mp (Except.ok.inj h)
        exact ⟨tag, mnemonic, operand, opcode, rfl, ho, rfl⟩
    · rintro ⟨_, _, _, opcode, h, ho, rfl⟩
      obtain ⟨rfl, rfl, rfl⟩ := by simpa using h
      rw [ofFields, ho]

/-- Only lines without code hold no statement. -/
theorem parse_eq_none_iff {text : String} {line : Int} {filename : String} :
    parse text line filename = .ok none ↔ isCode text = false := by
  have hassign : assign (shape text).1 (shape text).2 = .ok none ↔ (shape text).2 = [] :=
    assign_eq_none_iff
  rw [← Bool.not_eq_true, isCode_iff_shape, not_not, ← hassign, parse_eq_ofFields]
  rcases assign (shape text).1 (shape text).2 with _ | (_ | ⟨tag, mnemonic, operand⟩)
  · simp [ofFields]
  · simp [ofFields]
  · rw [ofFields]
    split <;> simp

theorem isCode_of_parse {text : String} {line : Int} {filename : String} {s : Statement}
    (h : parse text line filename = .ok (some s)) : isCode text = true := by
  by_contra hc
  have hnone : parse text line filename = .ok none :=
    parse_eq_none_iff.mpr (Bool.not_eq_true _ ▸ hc)
  exact absurd (h.symm.trans hnone) (by simp)

/-- Lines of the same shape are read alike, up to where they stand. -/
theorem parse_of_shape {text text' : String} {line line' : Int} {filename filename' : String}
    {s : Statement} (hs : shape text' = shape text)
    (h : parse text line filename = .ok (some s)) :
    parse text' line' filename' = .ok (some
      { s with location := ⟨filename', line', s.location.column⟩, text := text' }) := by
  obtain ⟨tag, mnemonic, operand, opcode, ha, ho, rfl⟩ := parse_eq_some_iff.mp h
  exact parse_eq_some_iff.mpr ⟨tag, mnemonic, operand, opcode, by rw [hs, ha], ho, rfl⟩

theorem location_of_parse {text : String} {line : Int} {filename : String} {s : Statement}
    (h : parse text line filename = .ok (some s)) :
    s.location.filename = filename ∧ s.location.line = line := by
  obtain ⟨_, _, _, _, _, _, rfl⟩ := parse_eq_some_iff.mp h
  exact ⟨rfl, rfl⟩

/-! ### The code of a line -/

theorem codePart_subset {cs : List Char} {c : Char} (h : c ∈ codePart cs) : c ∈ cs ∧ c ≠ '#' :=
  ⟨(List.takeWhile_sublist _).subset h, by simpa using List.mem_takeWhile_imp h⟩

theorem codePart_append_comment {cs : List Char} (h : '#' ∉ cs) (rest : List Char) :
    codePart (cs ++ '#' :: rest) = cs := by
  rw [codePart, List.takeWhile_append_of_pos]
  · simp
  · intro c hc
    have : c ≠ '#' := fun he => h (he ▸ hc)
    simpa using this

theorem codePart_append_blanks (cs : List Char) {bs : List Char} (hb : AllBlank bs) :
    ∃ bs', AllBlank bs' ∧ codePart (cs ++ bs) = codePart cs ++ bs' := by
  rw [codePart, List.takeWhile_append]
  split
  · next h =>
    refine ⟨bs.takeWhile (· ≠ '#'), fun c hc => hb c ((List.takeWhile_sublist _).subset hc), ?_⟩
    have := List.takeWhile_prefix (· ≠ '#') (l := cs)
    rw [codePart, this.eq_of_length h]
  · exact ⟨[], by simp [AllBlank], by rw [codePart, List.append_nil]⟩

/-- A line, and the same line with blanks at its end. -/
def Extends (line longer : String) : Prop :=
  ∃ blanks : String, AllBlank blanks.toList ∧ longer = line ++ blanks

theorem Extends.isCode_eq {line longer : String} (h : Extends line longer) :
    isCode longer = isCode line := by
  obtain ⟨blanks, hb, rfl⟩ := h
  obtain ⟨bs, hbs, hc⟩ := codePart_append_blanks line.toList hb
  rw [isCode, isCode, String.toList_append, hc, List.all_append, allBlank_iff.mp hbs,
    Bool.and_true]

theorem Extends.shape_eq {line longer : String} (h : Extends line longer)
    (hcode : isCode line = true) : shape longer = shape line := by
  obtain ⟨blanks, hb, rfl⟩ := h
  obtain ⟨bs, hbs, hc⟩ := codePart_append_blanks line.toList hb
  rw [isCode_iff] at hcode
  have hne : codePart line.toList ≠ [] := by
    rintro he
    rw [he] at hcode
    exact hcode (by simp [fields, fieldsFrom])
  -- the code is not empty, so its first character is not one of the blanks
  rw [shape, shape, String.toList_append, hc, List.head?_append_of_ne_nil _ hne, fields, fields,
    fieldsFrom_append_blanks hbs]

theorem extends_trimEnd (cs : List Char) :
    Extends (String.ofList (trimEnd cs)) (String.ofList cs) := by
  obtain ⟨bs, hb, hcs⟩ := exists_trimEnd_append cs
  refine ⟨String.ofList bs, by rwa [String.toList_ofList], ?_⟩
  rw [← String.ofList_append, ← hcs]

theorem isCode_trimEnd (cs : List Char) :
    isCode (String.ofList (trimEnd cs)) = isCode (String.ofList cs) :=
  (extends_trimEnd cs).isCode_eq.symm

theorem shape_trimEnd {cs : List Char} (h : isCode (String.ofList cs) = true) :
    shape (String.ofList (trimEnd cs)) = shape (String.ofList cs) :=
  ((extends_trimEnd cs).shape_eq ((isCode_trimEnd cs).trans h)).symm

/-- The terminator of a line is blank. -/
theorem extends_stripNewline (raw : String) : Extends (stripNewline raw) raw := by
  refine ⟨String.ofList (raw.toList.rtakeWhile fun c => c = '\r' || c = '\n'), ?_, ?_⟩
  · intro c hc
    rw [String.toList_ofList] at hc
    have hend := List.mem_rtakeWhile_imp hc
    rcases (by simpa using hend) with rfl | rfl <;> rfl
  · show raw = String.ofList (raw.toList.rdropWhile _) ++ _
    rw [← String.ofList_append, List.rdropWhile_append_rtakeWhile, String.ofList_toList]

theorem isCode_stripNewline (raw : String) : isCode (stripNewline raw) = isCode raw :=
  (extends_stripNewline raw).isCode_eq.symm

theorem shape_stripNewline {raw : String} (h : isCode raw = true) :
    shape (stripNewline raw) = shape raw :=
  ((extends_stripNewline raw).shape_eq ((isCode_stripNewline raw).trans h)).symm

theorem stripNewline_of_isLine {l : String} (h : IsLine l.toList) : stripNewline l = l := by
  have hstrip : l.toList.rdropWhile (fun c => c = '\r' || c = '\n') = l.toList := by
    rw [List.rdropWhile_eq_self_iff]
    intro hne hc
    have hl := h _ (List.getLast_mem hne)
    rcases (by simpa using hc) with hc | hc <;> rw [hc] at hl <;> exact absurd hl (by decide)
  rw [stripNewline]
  show String.ofList (l.toList.rdropWhile _) = l
  rw [hstrip, String.ofList_toList]

end Statement

end LittleMan
