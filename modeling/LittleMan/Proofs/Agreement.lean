/-
Two assemblies side by side.

Both passes look at nothing but tag, opcode and operand of a statement, and at a name only to tell it
from other names. So two sources whose lines are read as the same statements, up to where they stand
and with names replaced one for one, go the same way through both.

* `Draft.survey_eq`: the first pass, as a pass over the lines of code for which there is room;
* `Statement.Renamed`, `TagTable.Renamed`, `Program.Renamed`: the same with other names;
* `address?_of_renamed`: a new name stands for what the old one stood for;
* `agree_add`, `agree_encode`, `agree_finish`: what one pass does to one statement, and to all;
* `agree_assemble`: so both assemblies fail for errors of one kind, or both succeed with the same
  image.
-/
import LittleMan.Proofs.Faults
import LittleMan.Proofs.Truncation
namespace LittleMan

open Text

/-! ### The first pass over lines of code -/

namespace Draft

/-- Reads a line of code and adds its statement. -/
def addLine (filename : String) (d : Draft) (l : String × Nat) : Except SourceError Draft := do
  match ← Statement.parse l.1 l.2 filename with
  | none => return d
  | some s => d.add s

theorem surveyFrom_eq (filename : String) (lines : List String) :
    ∀ (number : Nat) (d : Draft), d.statements.length ≤ 100 → d.dropped = none →
      surveyFrom filename number lines d =
        (((codeLines number lines).take (100 - d.statements.length)).foldlM (addLine filename)
          d).map fun d' => { d' with
            dropped := ((codeLines number lines).drop
              (100 - d.statements.length)).head?.map Prod.snd } := by
  induction lines with
  | nil =>
    intro number d _ hdropped
    rw [codeLines_nil, List.take_nil, List.drop_nil]
    show Except.ok d = .ok { d with dropped := none }
    rw [← hdropped]
  | cons raw rest ih =>
    intro number d hfit hdropped
    cases hcode : Statement.isCode (Statement.stripNewline raw) with
    | false =>
      rw [surveyFrom_blank hcode, codeLines_cons_of_blank hcode]
      exact ih (number + 1) d hfit hdropped
    | true =>
      rw [codeLines_cons_of_code hcode]
      rcases Nat.lt_or_ge d.statements.length 100 with hlt | hge
      · obtain ⟨k, hk⟩ : ∃ k, 100 - d.statements.length = k + 1 :=
          ⟨99 - d.statements.length, by omega⟩
        rw [hk, List.take_succ_cons, List.drop_succ_cons, List.foldlM_cons, addLine, surveyFrom]
        simp only [hcode, Bool.not_true, Bool.false_eq_true, if_false,
          if_neg (Nat.not_le.mpr hlt)]
        cases hp : Statement.parse (Statement.stripNewline raw) number filename with
        | error e => rfl
        | ok o =>
          cases o with
          | none => exact absurd (Statement.parse_eq_none_iff.mp hp) (by simp [hcode])
          | some s =>
            cases ha : d.add s with
            | error e => simp only [bind, Except.bind, ha]; rfl
            | ok next =>
              -- the statement takes up the room of its line
              obtain ⟨hlength, hnext⟩ := of_add ha
              have hk' : 100 - next.statements.length = k := by omega
              simp only [bind, Except.bind, ha]
              rw [ih (number + 1) next (by omega) (hnext.trans hdropped), hk']
      · rw [surveyFrom_full hcode filename number rest hge,
          show 100 - d.statements.length = 0 by omega]
        rfl

theorem survey_eq (filename : String) (lines : List String) :
    survey filename lines =
      (((codeLines 1 lines).take 100).foldlM (addLine filename) {}).map fun d =>
        { d with dropped := ((codeLines 1 lines).drop 100).head?.map Prod.snd } :=
  surveyFrom_eq filename lines 1 {} (Nat.zero_le 100) rfl

end Draft

/-! ### Names and what they stand for -/

/-- No two of the names are replaced by the same. -/
def KeepsApart (names : String → Prop) (f : String → String) : Prop :=
  ∀ t u, names t → names u → f t = f u → t = u

/-- A table with the same addresses for other names. -/
structure TagTable.Renamed (names : String → Prop) (f : String → String) (t t' : TagTable) :
    Prop where
  entries : t'.entries = t.entries.map fun e => (f e.1, e.2)
  known : ∀ name ∈ t.names, names name

/-- A statement with another tag, and another operand if its operand is a tag. -/
structure Statement.Renamed (names : String → Prop) (f : String → String) (s s' : Statement) :
    Prop where
  tag : s'.tag = s.tag.map f
  opcode : s'.opcode = s.opcode
  operand : s'.operand.map Field.text =
    s.operand.map fun o => if s.opcode.takesTag then f o.text else o.text
  known_tag : ∀ t ∈ s.tag, names t
  known_operand : s.opcode.takesTag = true → ∀ o ∈ s.operand, names o.text

/-- Errors of the same kind. -/
def SourceError.SameKind (e e' : SourceError) : Prop := e'.fault.kind = e.fault.kind

/-- Errors of the same kind, also those that tell nothing about the source. -/
def AssemblyError.SameKind (e e' : AssemblyError) : Prop := e'.kind = e.kind

variable {names : String → Prop} {f : String → String}

namespace TagTable

variable {t t' : TagTable} {name : String}

theorem address?_of_renamed (hf : KeepsApart names f) (h : t.Renamed names f t')
    (hname : names name) : t'.address? (f name) = t.address? name := by
  obtain ⟨entries⟩ := t
  obtain ⟨hentries, hknown⟩ := h
  rw [address?, address?, hentries]
  clear hentries
  induction entries with
  | nil => rfl
  | cons e rest ih =>
    have he : names e.1 := hknown e.1 List.mem_cons_self
    have hrest := ih fun n hn => hknown n (List.mem_cons_of_mem e.1 hn)
    rw [List.map_cons, List.lookup_cons, List.lookup_cons, hrest]
    by_cases heq : name = e.1
    · rw [heq, beq_self_eq_true, beq_self_eq_true]
    · rw [beq_false_of_ne heq, beq_false_of_ne fun hfe => heq (hf _ _ hname he hfe)]

/-- New names go to the end of both tables. -/
theorem Renamed.insert (h : t.Renamed names f t') (hname : names name)
    (hold : t.address? name = none) (hnew : t'.address? (f name) = none) (address : Int) :
    (t.insert name address).Renamed names f (t'.insert (f name) address) := by
  rw [insert_of_not_mem (address?_eq_none_iff.mp hold),
    insert_of_not_mem (address?_eq_none_iff.mp hnew)]
  refine ⟨?_, fun n hn => ?_⟩
  · rw [h.entries, List.map_append]
    rfl
  · rw [TagTable.names, List.map_append, List.mem_append] at hn
    rcases hn with hn | hn
    · exact h.known n hn
    · obtain rfl := List.mem_singleton.mp hn
      exact hname

end TagTable

/-! ### The first pass -/

/-- Drafts of the same statements with other names. -/
structure Draft.Renamed (names : String → Prop) (f : String → String) (d d' : Draft) : Prop where
  statements : List.Forall₂ (Statement.Renamed names f) d.statements d'.statements
  tags : d.tags.Renamed names f d'.tags
  dropped : d'.dropped.isSome = d.dropped.isSome

theorem agree_add {d d' : Draft} {s s' : Statement} (hf : KeepsApart names f)
    (hd : d.Renamed names f d') (hs : s.Renamed names f s') :
    Agree (Draft.Renamed names f) SourceError.SameKind (d.add s) (d'.add s') := by
  have hmore := List.rel_append hd.statements (.cons hs .nil)
  rw [Draft.add, Draft.add, hs.tag]
  cases ht : s.tag with
  | none => exact .ok ⟨hmore, hd.tags, hd.dropped⟩
  | some t =>
    have hname := hs.known_tag t ht
    have hlookup := TagTable.address?_of_renamed hf hd.tags hname
    simp only [Option.map_some, hlookup]
    cases ha : d.tags.address? t with
    | some a => exact .error rfl
    | none =>
      rw [← hd.statements.length_eq]
      exact .ok ⟨hmore, hd.tags.insert hname ha (hlookup.trans ha) _, hd.dropped⟩

/-- Two lines are read as the same statement with other names, or neither can be read. -/
def Statement.ReadAlike (names : String → Prop) (f : String → String) (filename filename' : String)
    (l l' : String × Nat) : Prop :=
  Agree (Option.Rel (Renamed names f)) SourceError.SameKind (parse l.1 l.2 filename)
    (parse l'.1 l'.2 filename')

section Assemblies

variable {filename filename' : String} {lines lines' : List String}

theorem agree_addLine {d d' : Draft} {l l' : String × Nat} (hf : KeepsApart names f)
    (hd : d.Renamed names f d') (hl : Statement.ReadAlike names f filename filename' l l') :
    Agree (Draft.Renamed names f) SourceError.SameKind (d.addLine filename l)
      (d'.addLine filename' l') := by
  refine Agree.bind hl fun o o' ho => ?_
  cases ho with
  | none => exact .ok hd
  | some hs => exact agree_add hf hd hs

theorem agree_survey (hf : KeepsApart names f)
    (hread : List.Forall₂ (Statement.ReadAlike names f filename filename')
      ((codeLines 1 lines).take 100) ((codeLines 1 lines').take 100))
    (hlength : (codeLines 1 lines').length = (codeLines 1 lines).length) :
    Agree (Draft.Renamed names f) SourceError.SameKind (Draft.survey filename lines)
      (Draft.survey filename' lines') := by
  have hempty : Draft.Renamed names f {} {} := ⟨.nil, ⟨rfl, by simp [TagTable.names]⟩, rfl⟩
  rw [Draft.survey_eq, Draft.survey_eq]
  refine (agree_foldlM hread (fun _ _ _ _ hd hl => agree_addLine hf hd hl) hempty).map
    fun d d' hd => ⟨hd.statements, hd.tags, ?_⟩
  -- lines are left out if there are more than a hundred, whatever they are
  show (Option.map _ _).isSome = (Option.map _ _).isSome
  rw [Option.isSome_map, Option.isSome_map, List.head?_drop, List.head?_drop,
    Bool.eq_iff_iff, isSome_getElem?, isSome_getElem?, hlength]

/-! ### The second pass -/

theorem agree_encodeLiteral {s s' : Statement} {o o' : Field} (h : o'.text = o.text) :
    Agree (· = ·) AssemblyError.SameKind (s.encodeLiteral o) (s'.encodeLiteral o') := by
  rw [Statement.encodeLiteral, Statement.encodeLiteral, h]
  split
  · exact .error rfl
  · split
    · exact .error rfl
    · split
      · exact .ok rfl
      · exact .error rfl

theorem agree_encode {t t' : TagTable} {s s' : Statement} (hf : KeepsApart names f)
    (ht : t.Renamed names f t') (hs : s.Renamed names f s') :
    Agree (· = ·) AssemblyError.SameKind (s.encode t) (s'.encode t') := by
  have hoperand := hs.operand
  rw [Statement.encode, Statement.encode, hs.opcode]
  split
  · exact .ok rfl
  · cases ho : s.operand with
    | none =>
      obtain ho' : s'.operand = none := by simpa [ho] using hoperand
      rw [ho']
      dsimp only
      split
      · exact .ok rfl
      · exact .error rfl
    | some o =>
      obtain ⟨o', ho', htext⟩ : ∃ o', s'.operand = some o' ∧
          o'.text = if s.opcode.takesTag then f o.text else o.text := by
        simpa [ho] using hoperand
      rw [ho']
      dsimp only
      split
      · next htag =>
        rw [if_pos htag] at htext
        rw [htext, TagTable.address?_of_renamed hf ht (hs.known_operand htag o ho)]
        split
        · exact .ok rfl
        · exact .error rfl
      · next htag =>
        rw [if_neg htag] at htext
        exact agree_encodeLiteral htext

/-- The same program with other names. -/
structure Program.Renamed (names : String → Prop) (f : String → String) (p p' : Program) :
    Prop where
  image : p'.image = p.image
  tags : p'.tags.entries = p.tags.entries.map fun e => (f e.1, e.2)
  statements : List.Forall₂ (Statement.Renamed names f) p.statements p'.statements
  truncated : p'.truncated = p.truncated

theorem agree_finish {d d' : Draft} (hf : KeepsApart names f) (hd : d.Renamed names f d') :
    Agree (Program.Renamed names f) AssemblyError.SameKind (d.finish filename)
      (d'.finish filename') := by
  have hwords := agree_mapM hd.statements fun s s' hs => agree_encode hf hd.tags hs
  refine hwords.bind fun words words' heq => ?_
  obtain rfl := List.forall₂_eq_eq_eq ▸ heq
  exact .ok ⟨rfl, hd.tags.entries, hd.statements, hd.dropped⟩

/-- Sources whose lines of code are read alike, as far as they are read, are assembled alike. -/
theorem agree_assemble (hf : KeepsApart names f)
    (hread : List.Forall₂ (Statement.ReadAlike names f filename filename')
      ((codeLines 1 lines).take 100) ((codeLines 1 lines').take 100))
    (hlength : (codeLines 1 lines').length = (codeLines 1 lines).length) :
    Agree (Program.Renamed names f) AssemblyError.SameKind (assemble lines filename)
      (assemble lines' filename') := by
  have hsurvey := agree_survey hf hread hlength
  rw [assemble, assemble]
  generalize Draft.survey filename lines = x at hsurvey
  generalize Draft.survey filename' lines' = y at hsurvey
  cases hsurvey with
  | ok hd => exact agree_finish hf hd
  | error hkind => exact .error hkind

end Assemblies

end LittleMan
