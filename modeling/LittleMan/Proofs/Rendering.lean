/-
How statements are written: tag, mnemonic and operand with blanks between them, then a comment.

* `Statement.Rendering`: the text of a line, put together from such pieces;
* `Rendering.Writes`: which statement that line writes;
* `shape_text`: what the parser looks at in it;
* `exists_rendering_of_parse`: every line that is read as a statement is put together that way;
* `parse_exact`: so reading a line undoes writing it, and whatever is read was written.
-/
import LittleMan.Proofs.Parsing
import LittleMan.Proofs.Results
namespace LittleMan

open Text

/-! ### Mnemonics -/

theorem Opcode.ofText?_eq_some_iff {text : String} {o : Opcode} :
    ofText? text = some o ↔ upper text = o.name := ofName?_eq_some

theorem Statement.isMnemonic_iff {text : String} :
    isMnemonic text = true ↔ ∃ o : Opcode, upper text = o.name := by
  rw [isMnemonic, Option.isSome_iff_exists]
  exact exists_congr fun o => Opcode.ofText?_eq_some_iff

namespace Statement

/-- A text that can be a field: it is not empty and holds neither blanks nor a comment sign. -/
def IsName (text : String) : Prop := IsWord text.toList ∧ '#' ∉ text.toList

instance (text : String) : Decidable (IsName text) :=
  inferInstanceAs (Decidable (IsWord text.toList ∧ '#' ∉ text.toList))

/-- A line put together from the words of a statement, blanks and a comment. -/
structure Rendering where
  tag : Option String
  /-- The blanks in front of the mnemonic, behind the tag if there is one. -/
  indent : String
  mnemonic : String
  /-- The blanks in front of the operand, and the operand. -/
  operand : Option (String × String)
  /-- The blanks behind the last word. -/
  trailer : String
  /-- What the comment says behind its sign. -/
  comment : Option String
  tag_isName : ∀ t ∈ tag, IsName t
  indent_blank : AllBlank indent.toList
  indent_ne : ∀ t ∈ tag, indent ≠ ""
  mnemonic_isName : IsName mnemonic
  mnemonic_upper : ∃ o : Opcode, upper mnemonic = o.name
  operand_isName : ∀ e ∈ operand, AllBlank e.1.toList ∧ e.1 ≠ "" ∧ IsName e.2
  /-- In front of a mnemonic alone, a word that is a mnemonic too would not be a tag. -/
  tag_upper : operand = none → ∀ t ∈ tag, ∀ o : Opcode, upper t ≠ o.name
  trailer_blank : AllBlank trailer.toList

namespace Rendering

/-- What stands in front of the mnemonic. -/
def before (r : Rendering) : String := r.tag.getD "" ++ r.indent

/-- What stands between the mnemonic and the comment. -/
def behind (r : Rendering) : String :=
  (r.operand.elim "" fun (gap, word) => gap ++ word) ++ r.trailer

/-- The line up to its comment. -/
def code (r : Rendering) : String := r.before ++ (r.mnemonic ++ r.behind)

/-- The whole line. -/
def text (r : Rendering) : String := r.code ++ r.comment.elim "" ("#" ++ ·)

/-- The column of the mnemonic's first character. -/
def column (r : Rendering) : Nat := r.before.length + 1

/-- The column of the operand's first character; 0 if there is no operand. -/
def operandColumn (r : Rendering) : Nat :=
  r.operand.elim 0 fun (gap, _) => (r.before ++ r.mnemonic ++ gap).length + 1

/-- The line with this number writes that statement. -/
structure Writes (r : Rendering) (line : Int) (filename : String) (s : Statement) : Prop where
  location : s.location = ⟨filename, line, r.column⟩
  text : s.text = r.text
  tag : s.tag = r.tag
  opcode : s.opcode.name = upper r.mnemonic
  operand : s.operand.map Field.text = r.operand.map Prod.snd
  operandColumn : s.operandColumn = r.operandColumn

/-! ### Reading what was written -/

section Reading

variable (r : Rendering)

/-- The tag as a field of the line. -/
def tagField : Option Field := r.tag.map (⟨·, 1⟩)

/-- The mnemonic as a field of the line. -/
def mnemonicField : Field := ⟨r.mnemonic, r.column⟩

/-- The operand as a field of the line. -/
def operandField : Option Field :=
  r.operand.map fun (gap, word) => ⟨word, (r.before ++ r.mnemonic ++ gap).length + 1⟩

theorem map_text_operandField : r.operandField.map Field.text = r.operand.map Prod.snd := by
  rw [operandField, Option.map_map]
  rfl

theorem column_operandField : (r.operandField.map Field.column).getD 0 = r.operandColumn := by
  rw [operandField, operandColumn]
  cases r.operand <;> rfl

theorem head?_behind : ∀ c ∈ r.behind.toList.head?, isBlank c = true := by
  intro c hc
  rw [behind, String.toList_append] at hc
  cases ho : r.operand with
  | none =>
    rw [ho, Option.elim_none, String.toList_empty, List.nil_append] at hc
    exact r.trailer_blank c (List.mem_of_mem_head? hc)
  | some e =>
    obtain ⟨hblank, hne, -⟩ := r.operand_isName e ho
    rw [ho, Option.elim_some, String.toList_append, List.append_assoc,
      List.head?_append_of_ne_nil _ (String.toList_eq_nil_iff.not.mpr hne)] at hc
    exact hblank c (List.mem_of_mem_head? hc)

theorem fieldsFrom_behind :
    fieldsFrom (r.column + r.mnemonic.length) r.behind.toList = r.operandField.toList := by
  rw [behind, operandField, String.toList_append]
  cases ho : r.operand with
  | none => exact fieldsFrom_allBlank r.trailer_blank _
  | some e =>
    obtain ⟨hblank, -, hname⟩ := r.operand_isName e ho
    have htrailer : ∀ c ∈ r.trailer.toList.head?, isBlank c = true :=
      fun c hc => r.trailer_blank c (List.mem_of_mem_head? hc)
    have hcolumn : r.column + r.mnemonic.length + e.1.toList.length =
        (r.before ++ r.mnemonic ++ e.1).length + 1 := by
      rw [column, String.length_append, String.length_append, String.length_toList]
      omega
    rw [Option.elim_some, String.toList_append, List.append_assoc,
      fieldsFrom_gap_word hblank hname.1 htrailer, fieldsFrom_allBlank r.trailer_blank, hcolumn,
      String.ofList_toList]
    rfl

theorem fields_code :
    fields r.code.toList = r.tagField.toList ++ r.mnemonicField :: r.operandField.toList := by
  have hmnemonic : ∀ column, column + r.indent.length = r.column →
      fieldsFrom column (r.indent.toList ++ (r.mnemonic.toList ++ r.behind.toList)) =
        r.mnemonicField :: r.operandField.toList := by
    intro column hcolumn
    rw [fieldsFrom_gap_word r.indent_blank r.mnemonic_isName.1 r.head?_behind,
      String.length_toList, String.length_toList, hcolumn, r.fieldsFrom_behind,
      String.ofList_toList]
    rfl
  rw [fields, code, before, String.toList_append, String.toList_append, String.toList_append,
    List.append_assoc]
  cases ht : r.tag with
  | none =>
    rw [Option.getD_none, String.toList_empty, List.nil_append, tagField, ht]
    refine hmnemonic 1 ?_
    rw [column, before, ht, Option.getD_none, String.length_append, String.length_empty]
    omega
  | some t =>
    have hindent : ∀ c ∈ (r.indent.toList ++ (r.mnemonic.toList ++ r.behind.toList)).head?,
        isBlank c = true := by
      intro c hc
      rw [List.head?_append_of_ne_nil _ (String.toList_eq_nil_iff.not.mpr (r.indent_ne t ht))] at hc
      exact r.indent_blank c (List.mem_of_mem_head? hc)
    have hcolumn : 1 + t.toList.length + r.indent.length = r.column := by
      rw [column, before, ht, Option.getD_some, String.length_append, String.length_toList]
      omega
    rw [Option.getD_some, fieldsFrom_word (r.tag_isName t ht).1 hindent, String.ofList_toList,
      hmnemonic _ hcolumn, tagField, ht]
    rfl

/-- There is no comment sign in front of the comment. -/
theorem not_mem_code : '#' ∉ r.code.toList := by
  have hblank : ∀ {bs : List Char}, AllBlank bs → '#' ∉ bs :=
    fun hb hm => absurd (hb '#' hm) (by decide)
  have htag : '#' ∉ (r.tag.getD "").toList := by
    cases ht : r.tag with
    | none => simp
    | some t => exact (r.tag_isName t ht).2
  have hoperand : '#' ∉ (r.operand.elim "" fun (gap, word) => gap ++ word).toList := by
    cases ho : r.operand with
    | none => simp
    | some e =>
      obtain ⟨hgap, -, hname⟩ := r.operand_isName e ho
      simp [hblank hgap, hname.2]
  simp [code, before, behind, htag, hblank r.indent_blank, r.mnemonic_isName.2, hoperand,
    hblank r.trailer_blank]

theorem codePart_text : codePart r.text.toList = r.code.toList := by
  rw [text]
  cases hc : r.comment with
  | none =>
    rw [Option.elim_none, String.append_empty, codePart, List.takeWhile_eq_self_iff]
    intro c hm
    have : c ≠ '#' := fun he => r.not_mem_code (he ▸ hm)
    simpa using this
  | some comment =>
    rw [Option.elim_some, String.toList_append, String.toList_append]
    exact codePart_append_comment r.not_mem_code comment.toList

/-- What the parser looks at; a line with a tag does not start with a blank. -/
theorem shape_text : ∃ indented, (r.tag.isSome → indented = false) ∧ shape r.text =
    (indented, r.tagField.toList ++ r.mnemonicField :: r.operandField.toList) := by
  refine ⟨_, fun ht => ?_, by rw [shape, r.codePart_text, r.fields_code]⟩
  obtain ⟨t, ht⟩ := Option.isSome_iff_exists.mp ht
  obtain ⟨hne, hword⟩ := (r.tag_isName t ht).1
  obtain ⟨c, cs, hc⟩ := List.exists_cons_of_ne_nil hne
  have hfirst : isBlank c = false := hword c (by rw [hc]; exact List.mem_cons_self)
  simp [code, before, ht, hc, hfirst]

theorem assign_shape_text :
    assign (shape r.text).1 (shape r.text).2 =
      .ok (some (r.tagField, r.mnemonicField, r.operandField)) := by
  obtain ⟨indented, hindented, hshape⟩ := r.shape_text
  have hmnemonic : isMnemonic r.mnemonicField.text = true := isMnemonic_iff.mpr r.mnemonic_upper
  rw [hshape, tagField, operandField]
  cases ht : r.tag with
  | none =>
    cases ho : r.operand with
    | none => rfl
    | some e => simp [assign, hmnemonic]
  | some t =>
    obtain rfl := hindented (by rw [ht]; rfl)
    cases ho : r.operand with
    | none =>
      -- the tag is not taken for the mnemonic
      have htag : isMnemonic t = false := by
        rw [Bool.eq_false_iff, Ne, isMnemonic_iff]
        rintro ⟨o, h⟩
        exact r.tag_upper ho t ht o h
      simp [assign, hmnemonic, htag]
    | some e => simp [assign]

/-- Reading a line gives the statement that it writes. -/
theorem exists_parse_text (line : Int) (filename : String) :
    ∃ s, parse r.text line filename = .ok (some s) ∧ r.Writes line filename s := by
  obtain ⟨opcode, ho⟩ := r.mnemonic_upper
  refine ⟨_, parse_eq_some_iff.mpr ⟨_, _, _, opcode, r.assign_shape_text,
    Opcode.ofText?_eq_some_iff.mpr ho, rfl⟩, ?_⟩
  refine { location := rfl, text := rfl, tag := ?_, opcode := ho.symm,
           operand := r.map_text_operandField, operandColumn := r.column_operandField }
  rw [tagField]
  cases r.tag <;> rfl

variable {r}

/-- A line writes but one statement. -/
theorem Writes.unique {line : Int} {filename : String} {s s' : Statement}
    (h : r.Writes line filename s) (h' : r.Writes line filename s') : s = s' := by
  obtain ⟨location, text, tag, opcode, operand⟩ := s
  obtain ⟨location', text', tag', opcode', operand'⟩ := s'
  obtain ⟨rfl, rfl, rfl, hopcode, hoperand, hcolumn⟩ := h
  obtain ⟨rfl, rfl, rfl, hopcode', hoperand', hcolumn'⟩ := h'
  obtain rfl : opcode = opcode' := Opcode.name_injective (hopcode.trans hopcode'.symm)
  have htext := hoperand.trans hoperand'.symm
  have hplace := hcolumn.trans hcolumn'.symm
  cases operand with
  | none =>
    obtain rfl : operand' = none := by simpa using htext.symm
    rfl
  | some f =>
    obtain ⟨f', rfl, hf⟩ := Option.map_eq_some_iff.mp htext.symm
    obtain ⟨text, column⟩ := f
    obtain ⟨text', column'⟩ := f'
    obtain rfl : text' = text := hf
    obtain rfl : column = column' := hplace
    rfl

/-- The operand of the statement that a line writes is a field of the line. -/
theorem Writes.operand_eq {line : Int} {filename : String} {s : Statement}
    (h : r.Writes line filename s) : s.operand = r.operandField := by
  have h' : r.Writes line filename { s with operand := r.operandField } :=
    { h with operand := r.map_text_operandField, operandColumn := r.column_operandField }
  exact congrArg Statement.operand (h.unique h')

end Reading

end Rendering

/-! ### Writing what was read -/

theorem exists_comment (text : String) :
    ∃ comment : Option String,
      text = String.ofList (codePart text.toList) ++ comment.elim "" ("#" ++ ·) := by
  have hsplit := List.takeWhile_append_dropWhile (p := (· ≠ '#')) (l := text.toList)
  have hsign := List.head?_dropWhile_not (· ≠ '#') text.toList
  cases hrest : text.toList.dropWhile (· ≠ '#') with
  | nil =>
    refine ⟨none, String.toList_inj.mp ?_⟩
    rw [hrest, List.append_nil] at hsplit
    simpa [codePart] using hsplit.symm
  | cons c comment =>
    rw [hrest] at hsplit hsign
    obtain rfl : c = '#' := by simpa using hsign
    refine ⟨some (String.ofList comment), String.toList_inj.mp ?_⟩
    simpa [codePart] using hsplit.symm

theorem isName_of_mem_fields {cs : List Char} {f : Field} (h : f ∈ fields (codePart cs)) :
    IsName f.text := by
  obtain ⟨hword, hsub⟩ := mem_fieldsFrom h
  exact ⟨hword, fun hm => (codePart_subset (hsub hm)).2 rfl⟩

/-- A line without a blank in front. -/
theorem eq_nil_of_head?_any {gap rest : List Char} (hgap : AllBlank gap)
    (h : (gap ++ rest).head?.any isBlank = false) : gap = [] := by
  cases gap with
  | nil => rfl
  | cons c gap =>
    rw [List.cons_append, List.head?_cons, Option.any_some, hgap c List.mem_cons_self] at h
    exact absurd h (by simp)

/-- Where the fields start with a tag and a mnemonic, or with a mnemonic, so does the code. -/
theorem exists_indent {code : List Char} {tag : Option Field} {mnemonic : Field}
    {more : List Field} (h : fieldsFrom 1 code = tag.toList ++ mnemonic :: more)
    (hstart : tag.isSome → code.head?.any isBlank = false) :
    ∃ indent rest column, AllBlank indent ∧ (∀ t ∈ tag, indent ≠ []) ∧
      code = ((tag.map Field.text).getD "").toList ++ (indent ++ (mnemonic.text.toList ++ rest)) ∧
      (∀ c ∈ rest.head?, isBlank c = true) ∧ fieldsFrom column rest = more := by
  cases tag with
  | none =>
    obtain ⟨indent, rest, hblank, -, rfl, -, hrest, hmore⟩ := exists_of_fieldsFrom_eq_cons h
    exact ⟨indent, rest, _, hblank, by simp, rfl, hrest, hmore⟩
  | some t =>
    obtain ⟨gap, behind, hgap, -, rfl, -, hbehind, hmore⟩ := exists_of_fieldsFrom_eq_cons h
    obtain ⟨indent, rest, hblank, hword, rfl, -, hrest, hmore⟩ :=
      exists_of_fieldsFrom_eq_cons hmore
    obtain rfl := eq_nil_of_head?_any hgap (hstart rfl)
    exact ⟨indent, rest, _, hblank, fun _ _ => ne_nil_of_head?_blank hword hbehind, rfl, hrest,
      hmore⟩

/-- What stands behind the mnemonic: blanks and the operand, if there is one, and blanks again. -/
theorem exists_gap {column : Nat} {rest : List Char} {operand : Option Field}
    (h : fieldsFrom column rest = operand.toList) (hrest : ∀ c ∈ rest.head?, isBlank c = true) :
    ∃ (gap trailer : List Char), AllBlank gap ∧ AllBlank trailer ∧ (∀ f ∈ operand, gap ≠ []) ∧
      rest = (operand.elim "" fun f => String.ofList gap ++ f.text).toList ++ trailer := by
  cases operand with
  | none =>
    have hblank : AllBlank rest := allBlank_iff.mpr (fieldsFrom_eq_nil_iff.mp h)
    exact ⟨[], rest, by simp [AllBlank], hblank, by simp, rfl⟩
  | some f =>
    obtain ⟨gap, trailer, hgap, hword, rfl, -, -, htrailer⟩ := exists_of_fieldsFrom_eq_cons h
    refine ⟨gap, trailer, hgap, allBlank_iff.mpr (fieldsFrom_eq_nil_iff.mp htrailer),
      fun _ _ => ne_nil_of_head?_blank hword hrest, ?_⟩
    simp

/-- A line that is read as a statement is put together from its fields. -/
theorem exists_rendering_text {text : String} {line : Int} {filename : String} {s : Statement}
    (h : parse text line filename = .ok (some s)) : ∃ r : Rendering, r.text = text := by
  obtain ⟨tag, mnemonic, operand, opcode, hassign, hopcode, rfl⟩ := parse_eq_some_iff.mp h
  obtain ⟨hfields, hstart, htag⟩ := fields_of_assign hassign
  obtain ⟨comment, htext⟩ := exists_comment text
  have hname : ∀ f ∈ tag.toList ++ mnemonic :: operand.toList, IsName f.text :=
    fun f hf => isName_of_mem_fields (hfields ▸ hf)
  obtain ⟨indent, rest, _, hindent, hne, hcode, hrest, hmore⟩ := exists_indent hfields hstart
  obtain ⟨gap, trailer, hgap, htrailer, hgap', hbehind⟩ := exists_gap hmore hrest
  have htagName : ∀ t ∈ tag.map Field.text, IsName t := by
    rintro _ ht
    obtain ⟨f, hf, rfl⟩ := Option.map_eq_some_iff.mp ht
    exact hname f (by simp [hf])
  have hindent' : ∀ t ∈ tag.map Field.text, String.ofList indent ≠ "" := by
    rintro _ ht he
    obtain ⟨f, hf, -⟩ := Option.map_eq_some_iff.mp ht
    exact hne f hf (by simpa using he)
  have hoperand : ∀ e ∈ operand.map fun f => (String.ofList gap, f.text),
      AllBlank e.1.toList ∧ e.1 ≠ "" ∧ IsName e.2 := by
    rintro _ he
    obtain ⟨f, hf, rfl⟩ := Option.map_eq_some_iff.mp he
    refine ⟨by rwa [String.toList_ofList], fun hempty => ?_, hname f (by simp [hf])⟩
    exact hgap' f hf (by simpa using hempty)
  have hupper : (operand.map fun f => (String.ofList gap, f.text)) = none →
      ∀ t ∈ tag.map Field.text, ∀ o : Opcode, upper t ≠ o.name := by
    rintro ho _ ht o hupper
    obtain ⟨f, hf, rfl⟩ := Option.map_eq_some_iff.mp ht
    have hnot := htag (by simpa using ho) f hf
    rw [isMnemonic_iff.mpr ⟨o, hupper⟩] at hnot
    exact absurd hnot (by simp)
  refine ⟨{
    tag := tag.map Field.text
    indent := String.ofList indent
    mnemonic := mnemonic.text
    operand := operand.map fun f => (String.ofList gap, f.text)
    trailer := String.ofList trailer
    comment
    tag_isName := htagName
    indent_blank := by rwa [String.toList_ofList]
    indent_ne := hindent'
    mnemonic_isName := hname _ (by simp)
    mnemonic_upper := ⟨opcode, Opcode.ofText?_eq_some_iff.mp hopcode⟩
    operand_isName := hoperand
    tag_upper := hupper
    trailer_blank := by rwa [String.toList_ofList] }, ?_⟩
  have hcode' : codePart text.toList = ((tag.map Field.text).getD "" ++ String.ofList indent ++
      (mnemonic.text ++ ((operand.map fun f => (String.ofList gap, f.text)).elim ""
        (fun (gap, word) => gap ++ word) ++ String.ofList trailer))).toList := by
    rw [hcode, hbehind]
    cases operand <;> simp
  refine Eq.trans ?_ htext.symm
  rw [hcode', String.ofList_toList]
  rfl

theorem exists_rendering_of_parse {text : String} {line : Int} {filename : String} {s : Statement}
    (h : parse text line filename = .ok (some s)) :
    ∃ r : Rendering, r.text = text ∧ r.Writes line filename s := by
  obtain ⟨r, rfl⟩ := exists_rendering_text h
  obtain ⟨s', hs', hwrites⟩ := r.exists_parse_text line filename
  obtain rfl : s' = s := Option.some_inj.mp (Except.ok.inj (hs'.symm.trans h))
  exact ⟨r, rfl, hwrites⟩

/-- Tags are words of the line. -/
theorem isName_of_tag {text : String} {line : Int} {filename : String} {s : Statement}
    (h : parse text line filename = .ok (some s)) : ∀ t ∈ s.tag, IsName t := by
  obtain ⟨r, -, hwrites⟩ := exists_rendering_of_parse h
  rw [hwrites.tag]
  exact r.tag_isName

/-- A tag starts the line, and the mnemonic is behind it. -/
theorem exists_behind_tag {text : String} {line : Int} {filename : String} {s : Statement}
    (h : parse text line filename = .ok (some s)) :
    ∃ rest, text = s.tag.getD "" ++ rest ∧ ¬AllBlank rest.toList := by
  obtain ⟨r, rfl, hwrites⟩ := exists_rendering_of_parse h
  refine ⟨r.indent ++ (r.mnemonic ++ r.behind) ++ r.comment.elim "" ("#" ++ ·), ?_, ?_⟩
  · rw [hwrites.tag, Rendering.text, Rendering.code, Rendering.before]
    simp only [String.append_assoc]
  · intro hblank
    obtain ⟨hne, hword⟩ := r.mnemonic_isName.1
    obtain ⟨c, cs, hc⟩ := List.exists_cons_of_ne_nil hne
    have hfirst : isBlank c = false := hword c (by rw [hc]; exact List.mem_cons_self)
    exact absurd (hblank c (by simp [hc])) (by simp [hfirst])

/-- Reading undoes writing: a line is read as a statement exactly when it is a rendering that writes
the statement, and as none exactly when there is nothing but blanks in front of its comment. -/
theorem parse_exact (text : String) (line : Int) (filename : String) :
    (∀ s, parse text line filename = .ok (some s) ↔
      ∃ r : Rendering, r.text = text ∧ r.Writes line filename s) ∧
    (parse text line filename = .ok none ↔ AllBlank (stripComment text).toList) := by
  refine ⟨fun s => ⟨exists_rendering_of_parse, ?_⟩, ?_⟩
  · rintro ⟨r, rfl, hwrites⟩
    obtain ⟨s', hs', hwrites'⟩ := r.exists_parse_text line filename
    rw [hwrites.unique hwrites', hs']
  · rw [parse_eq_none_iff, isCode, Bool.not_eq_false', stripComment, String.toList_ofList,
      allBlank_iff]

/-- A wide blank, a letter whose capital is that of another, and a comment right behind. -/
def subtractionLine : String := "in\u2003\u017Fub\tx# y"

theorem parse_exact_subtraction :
    ∃ s, parse subtractionLine 3 "sums" = .ok (some s) ∧ s.tag = some "in" ∧ s.opcode = .sub ∧
      s.location.column = 4 ∧ s.operandColumn = 8 ∧
      ∃ r : Rendering, r.text = subtractionLine ∧ r.Writes 3 "sums" s := by
  have hrun : (parse subtractionLine 3 "sums").map
      (Option.map fun s => (s.tag, s.opcode, s.location.column, s.operandColumn)) =
      .ok (some (some "in", .sub, 4, 8)) := by
    decide +kernel
  obtain ⟨o, ho, hread⟩ := exists_of_map_eq_ok hrun
  obtain ⟨s, rfl, hout⟩ := Option.map_eq_some_iff.mp hread
  simp only [Prod.mk.injEq] at hout
  obtain ⟨htag, hopcode, hcolumn, hoperand⟩ := hout
  exact ⟨s, ho, htag, hopcode, hcolumn, hoperand,
    ((parse_exact subtractionLine 3 "sums").1 s).mp ho⟩

/-! ### Data lines -/

/-- A line that starts with a tag or a tabulator, then `DAT`, a number and a comment. -/
def dataLine (tag : Option String) (number comment : String) : String :=
  tag.getD "" ++ "\tDAT\t" ++ number ++ " # " ++ comment

theorem allBlank_tabulator : AllBlank "\t".toList := allBlank_iff.mpr (by decide +kernel)

/-- The pieces of a data line. -/
def Rendering.ofData {tag : Option String} (ht : ∀ t ∈ tag, IsName t) {number : String}
    (hn : IsName number) (comment : String) : Rendering where
  tag
  indent := "\t"
  mnemonic := "DAT"
  operand := some ("\t", number)
  trailer := " "
  comment := some (" " ++ comment)
  tag_isName := ht
  indent_blank := allBlank_tabulator
  indent_ne := by simp
  mnemonic_isName := by decide +kernel
  mnemonic_upper := ⟨.dat, by decide +kernel⟩
  operand_isName := by
    rintro _ ⟨⟩
    exact ⟨allBlank_tabulator, by simp, hn⟩
  tag_upper := by simp
  trailer_blank := allBlank_iff.mpr (by decide +kernel)

section DataLine

variable {tag : Option String} {number : String}

theorem Rendering.text_ofData (ht : ∀ t ∈ tag, IsName t) (hn : IsName number) (comment : String) :
    (ofData ht hn comment).text = dataLine tag number comment := by
  have hdat : "\t" ++ "DAT" ++ "\t" = "\tDAT\t" := by decide +kernel
  have hsign : " " ++ "#" ++ " " = " # " := by decide +kernel
  rw [dataLine, ← hdat, ← hsign]
  simp only [text, code, before, behind, ofData, Option.elim_some, String.append_assoc]

/-- A data line is read as its tag and number. -/
theorem parse_dataLine (ht : ∀ t ∈ tag, IsName t) (hn : IsName number) (comment : String)
    (line : Int) (filename : String) :
    ∃ s, parse (dataLine tag number comment) line filename = .ok (some s) ∧
      s.tag = tag ∧ s.opcode = .dat ∧ s.operand.map Field.text = some number := by
  obtain ⟨s, hs, hwrites⟩ := (Rendering.ofData ht hn comment).exists_parse_text line filename
  rw [Rendering.text_ofData] at hs
  have hdat : upper "DAT" = Opcode.dat.name := by decide +kernel
  exact ⟨s, hs, hwrites.tag, Opcode.name_injective (hwrites.opcode.trans hdat), hwrites.operand⟩

theorem isCode_dataLine (ht : ∀ t ∈ tag, IsName t) (hn : IsName number) (comment : String) :
    isCode (dataLine tag number comment) = true := by
  obtain ⟨s, hs, -⟩ := parse_dataLine ht hn comment 1 ""
  exact isCode_of_parse hs

theorem stripComment_dataLine (ht : ∀ t ∈ tag, IsName t) (hn : IsName number)
    (comment : String) :
    dataLine tag number comment =
      stripComment (dataLine tag number comment) ++ "# " ++ comment := by
  have hcode := (Rendering.ofData ht hn comment).codePart_text
  rw [Rendering.text_ofData] at hcode
  have hsign : "#" ++ " " = "# " := by decide +kernel
  rw [stripComment, hcode, String.ofList_toList, ← hsign]
  conv_lhs => rw [← Rendering.text_ofData ht hn comment]
  simp only [Rendering.text, Rendering.ofData, Option.elim_some, String.append_assoc]

end DataLine

end Statement

end LittleMan
