/-
The second pass, and with it what a whole assembly makes of a source.

* `Statement.Encodes`: the rules of encoding, the tags taken from the statements themselves;
* `Statement.encode_eq_ok_iff`: the second pass follows them;
* `Program.IsAssemblyOf`: the first hundred lines of code are read, no tag comes twice, and every
  statement has its word by those rules in the image;
* `assemble_eq_ok_iff`: this is just when an assembly succeeds, and with which program.
-/
import LittleMan.Proofs.Results
import LittleMan.Proofs.Survey
import LittleMan.Proofs.Text.Decimal
namespace LittleMan

open Text

theorem exists_getElem?_of_forall₂ {α β : Type} {R : α → β → Prop} {l : List α} {l' : List β}
    (h : List.Forall₂ R l l') {i : Nat} {a : α} (ha : l[i]? = some a) :
    ∃ b, l'[i]? = some b ∧ R a b := by
  obtain ⟨hlt, rfl⟩ := List.getElem?_eq_some_iff.mp ha
  have hlt' : i < l'.length := h.length_eq ▸ hlt
  exact ⟨l'[i], List.getElem?_eq_getElem hlt', h.get hlt hlt'⟩

theorem exists_mem_of_forall₂ {α β : Type} {R : α → β → Prop} {l : List α} {l' : List β}
    (h : List.Forall₂ R l l') {b : β} (hb : b ∈ l') : ∃ a ∈ l, R a b := by
  obtain ⟨i, hi⟩ := List.mem_iff_getElem?.mp hb
  obtain ⟨a, ha, hab⟩ := exists_getElem?_of_forall₂ h.flip hi
  exact ⟨a, List.mem_of_getElem? ha, hab⟩

/-! ### Looking up tags -/

theorem mem_of_lookup_eq_some {α β : Type} [BEq α] [LawfulBEq α] {l : List (α × β)} {k : α} {v : β}
    (h : l.lookup k = some v) : (k, v) ∈ l := by
  obtain ⟨before, after, heq, _⟩ := List.lookup_eq_some_iff.mp h
  rw [heq]
  exact List.mem_append_right before List.mem_cons_self

/-- Where no key comes twice, looking up finds just what is there. -/
theorem lookup_eq_some_iff_mem {α β : Type} [BEq α] [LawfulBEq α] {l : List (α × β)}
    (h : (l.map Prod.fst).Nodup) {k : α} {v : β} : l.lookup k = some v ↔ (k, v) ∈ l := by
  induction l with
  | nil => simp
  | cons e rest ih =>
    obtain ⟨n, w⟩ := e
    obtain ⟨hn, hrest⟩ := List.nodup_cons.mp h
    rw [List.lookup_cons, List.mem_cons]
    by_cases he : k = n
    · subst he
      have hno : ∀ v, (k, v) ∉ rest := fun v hv => hn (List.mem_map.mpr ⟨(k, v), hv, rfl⟩)
      simp [hno, eq_comm]
    · rw [beq_false_of_ne he]
      simpa [he] using ih hrest

namespace Draft

theorem mem_tagEntries {address : Nat} {ss : List Statement} {t : String} {a : Int} :
    (t, a) ∈ tagEntries address ss ↔
      ∃ (j : Nat) (s : Statement), ss[j]? = some s ∧ s.tag = some t ∧
        a = ((address + j : Nat) : Int) := by
  rw [tagEntries, List.mem_filterMap]
  constructor
  · rintro ⟨⟨s, k⟩, hm, hs⟩
    obtain ⟨t', ht, he⟩ := Option.map_eq_some_iff.mp hs
    obtain ⟨rfl, rfl⟩ := Prod.mk.inj he
    obtain ⟨hle, hget⟩ := List.mk_mem_zipIdx_iff_le_and_getElem?_sub.mp hm
    exact ⟨k - address, s, hget, ht, by omega⟩
  · rintro ⟨j, s, hget, ht, rfl⟩
    exact ⟨(s, address + j), List.mk_add_mem_zipIdx_iff_getElem?.mpr hget, by simp [ht]⟩

/-- A tag stands for the index of the statement that carries it. -/
theorem address?_eq_some_iff {ss : List Statement} (hnd : (tagsOf ss).Nodup) {t : String}
    {a : Int} :
    TagTable.address? ⟨tagEntries 0 ss⟩ t = some a ↔
      ∃ (j : Nat) (s : Statement), ss[j]? = some s ∧ s.tag = some t ∧ a = (j : Int) := by
  have hnames : (TagTable.names ⟨tagEntries 0 ss⟩).Nodup := by
    rw [TagTable.names, map_fst_tagEntries]
    exact hnd
  rw [TagTable.address?, lookup_eq_some_iff_mem hnames, mem_tagEntries]
  simp

theorem index_of_tag_unique {ss : List Statement} (hnd : (tagsOf ss).Nodup) {j k : Nat}
    {s u : Statement} {t : String} (hj : ss[j]? = some s) (hs : s.tag = some t)
    (hk : ss[k]? = some u) (hu : u.tag = some t) : k = j := by
  have h1 := (address?_eq_some_iff hnd).mpr ⟨j, s, hj, hs, rfl⟩
  have h2 := (address?_eq_some_iff hnd).mpr ⟨k, u, hk, hu, rfl⟩
  exact Int.ofNat_inj.mp (Option.some_inj.mp (h2.symm.trans h1))

/-- To look for a tag among statements is to look at the one that carries it. -/
theorem exists_tag_iff {ss : List Statement} (hnd : (tagsOf ss).Nodup) {i : Nat} {s : Statement}
    {t : String} (hs : ss[i]? = some s) (ht : s.tag = some t) {P : Nat → Statement → Prop} :
    (∃ (j : Nat) (u : Statement), ss[j]? = some u ∧ u.tag = some t ∧ P j u) ↔ P i s := by
  constructor
  · rintro ⟨j, u, hu, hut, hP⟩
    obtain rfl := index_of_tag_unique hnd hs ht hu hut
    obtain rfl := Option.some_inj.mp (hs.symm.trans hu)
    exact hP
  · exact fun hP => ⟨i, s, hs, ht, hP⟩

end Draft

/-! ### The rules of encoding -/

theorem Opcode.cases_of (o : Opcode) :
    (o = .inp ∨ o = .out) ∨ (o = .hlt ∨ o = .dat) ∨ o.takesTag = true := by
  cases o <;> simp [Opcode.takesTag]

namespace Statement

/-- The word of a statement in a program of given statements. -/
inductive Encodes (program : List Statement) (s : Statement) : Nat → Prop where
  /-- An operand beside `IN` or `OUT` does not count. -/
  | input (h : s.opcode = .inp) : Encodes program s 901
  | output (h : s.opcode = .out) : Encodes program s 902
  | halt (h : s.opcode = .hlt) (ho : s.operand = none) : Encodes program s 0
  /-- `HLT` with a literal is `DAT` with that literal. -/
  | literal {operand : Field} (h : s.opcode = .hlt ∨ s.opcode = .dat)
      (ho : s.operand = some operand) (hd : isNumeral operand.text.toList = true)
      (hl : operand.text.toList.length ≤ maxNumeralLength)
      (hv : decimal operand.text.toList ≤ 999) :
      Encodes program s (decimal operand.text.toList)
  /-- The statement at `j`, and no other, carries the operand as its tag. -/
  | reference {operand : Field} {j : Nat} {target : Statement} (h : s.opcode.takesTag = true)
      (ho : s.operand = some operand) (hj : program[j]? = some target)
      (ht : target.tag = some operand.text)
      (hu : ∀ k other, program[k]? = some other → other.tag = some operand.text → k = j) :
      Encodes program s (s.opcode.base + j)

theorem encodeLiteral_eq_ok_iff {s : Statement} {operand : Field} {w : Word} :
    s.encodeLiteral operand = .ok w ↔
      isNumeral operand.text.toList = true ∧
      operand.text.toList.length ≤ maxNumeralLength ∧ w.val = decimal operand.text.toList := by
  rw [encodeLiteral, ← digitsValue_eq_decimal]
  cases hd : isNumeral operand.text.toList with
  | false => simp
  | true =>
    simp only [Bool.not_true, Bool.false_eq_true, if_false, true_and, readNumeral]
    by_cases hl : operand.text.toList.length > maxNumeralLength
    · simp [hl]
    · simp only [if_neg hl, Nat.not_lt.mp hl, true_and]
      by_cases hv : (digitsValue operand.text.toList : Int) ≤ 999
      · simp only [Word.ofInt?, Int.natCast_nonneg, hv, and_self, dite_true, Except.ok.injEq,
          Fin.ext_iff, Int.toNat_natCast, eq_comm]
      · have hw := w.isLt
        simp only [Word.ofInt?, hv, and_false, dite_false, reduceCtorEq, false_iff]
        omega

section Inversion

variable {program : List Statement} {s : Statement} {n : Nat}

theorem encodes_iff_of_input (h : s.opcode = .inp) : s.Encodes program n ↔ n = 901 := by
  constructor
  · rintro (_ | h' | h' | h' | h')
    · rfl
    all_goals simp [h, Opcode.takesTag] at h'
  · rintro rfl
    exact .input h

theorem encodes_iff_of_output (h : s.opcode = .out) : s.Encodes program n ↔ n = 902 := by
  constructor
  · rintro (h' | _ | h' | h' | h')
    rotate_left
    · rfl
    all_goals simp [h, Opcode.takesTag] at h'
  · rintro rfl
    exact .output h

theorem encodes_iff_of_halt (h : s.opcode = .hlt) (ho : s.operand = none) :
    s.Encodes program n ↔ n = 0 := by
  constructor
  · intro he
    cases he with
    | input h' => simp [h] at h'
    | output h' => simp [h] at h'
    | halt _ _ => rfl
    | literal _ ho' => simp [ho] at ho'
    | reference _ ho' => simp [ho] at ho'
  · rintro rfl
    exact .halt h ho

theorem not_encodes_of_missing (h : s.opcode = .dat) (ho : s.operand = none) :
    ¬s.Encodes program n := by
  intro he
  cases he with
  | input h' => simp [h] at h'
  | output h' => simp [h] at h'
  | halt h' _ => simp [h] at h'
  | literal _ ho' => simp [ho] at ho'
  | reference _ ho' => simp [ho] at ho'

theorem encodes_iff_of_literal {operand : Field} (h : s.opcode = .hlt ∨ s.opcode = .dat)
    (ho : s.operand = some operand) :
    s.Encodes program n ↔
      isNumeral operand.text.toList = true ∧ operand.text.toList.length ≤ maxNumeralLength ∧
        n = decimal operand.text.toList ∧ n ≤ 999 := by
  constructor
  · intro he
    cases he with
    | input h' => simp [h'] at h
    | output h' => simp [h'] at h
    | halt _ ho' => simp [ho] at ho'
    | literal _ ho' hd hl hv =>
      obtain rfl := Option.some_inj.mp (ho.symm.trans ho')
      exact ⟨hd, hl, rfl, hv⟩
    | reference h' => rcases h with h | h <;> simp [h, Opcode.takesTag] at h'
  · rintro ⟨hd, hl, rfl, hv⟩
    exact .literal h ho hd hl hv

theorem encodes_iff_of_takesTag (h : s.opcode.takesTag = true) :
    s.Encodes program n ↔
      ∃ (operand : Field) (j : Nat) (target : Statement), s.operand = some operand ∧
        program[j]? = some target ∧ target.tag = some operand.text ∧
        (∀ k other, program[k]? = some other → other.tag = some operand.text → k = j) ∧
        n = s.opcode.base + j := by
  constructor
  · intro he
    cases he with
    | input h' => simp [h', Opcode.takesTag] at h
    | output h' => simp [h', Opcode.takesTag] at h
    | halt h' _ => simp [h', Opcode.takesTag] at h
    | literal h' => rcases h' with h' | h' <;> simp [h', Opcode.takesTag] at h
    | reference _ ho hj ht hu => exact ⟨_, _, _, ho, hj, ht, hu, rfl⟩
  · rintro ⟨operand, j, target, ho, hj, ht, hu, rfl⟩
    exact .reference h ho hj ht hu

end Inversion

/-- The second pass follows the rules of encoding, if the table is that of the statements. -/
theorem encode_eq_ok_iff {ss : List Statement} (hnd : (Draft.tagsOf ss).Nodup)
    (hfit : ss.length ≤ 100) {s : Statement} {w : Word} :
    s.encode ⟨Draft.tagEntries 0 ss⟩ = .ok w ↔ s.Encodes ss w.val := by
  rw [encode]
  -- the order of the tests in the second pass: transfer, no operand, tag, literal
  rcases s.opcode.cases_of with (h | h) | h | h
  · rw [encodes_iff_of_input h, h, if_pos (show Opcode.inp.isTransfer = true from rfl),
      Except.ok.injEq, Fin.ext_iff]
    exact eq_comm
  · rw [encodes_iff_of_output h, h, if_pos (show Opcode.out.isTransfer = true from rfl),
      Except.ok.injEq, Fin.ext_iff]
    exact eq_comm
  · have htr : s.opcode.isTransfer = false := by rcases h with h | h <;> rw [h] <;> rfl
    have htt : s.opcode.takesTag = false := by rcases h with h | h <;> rw [h] <;> rfl
    rw [htr, if_neg Bool.false_ne_true]
    cases ho : s.operand with
    | none =>
      rcases h with h | h
      · rw [encodes_iff_of_halt h ho]
        simp only [h, if_true, Except.ok.injEq, Fin.ext_iff]
        exact eq_comm
      · simp only [h, reduceCtorEq, if_false, false_iff]
        exact not_encodes_of_missing h ho
    | some operand =>
      simp only [htt, Bool.false_eq_true, if_false]
      rw [encodeLiteral_eq_ok_iff, encodes_iff_of_literal h ho]
      have := w.isLt
      constructor
      · rintro ⟨hd, hl, hw⟩
        exact ⟨hd, hl, hw, by omega⟩
      · rintro ⟨hd, hl, hw, _⟩
        exact ⟨hd, hl, hw⟩
  · have htr : s.opcode.isTransfer = false := by
      revert h
      cases s.opcode <;> decide
    have hne : s.opcode ≠ .hlt := by
      rintro he
      rw [he] at h
      exact absurd h (by decide)
    rw [htr, if_neg Bool.false_ne_true, encodes_iff_of_takesTag h]
    cases ho : s.operand with
    | none => simp [hne]
    | some operand =>
      simp only [h, if_true]
      cases ha : TagTable.address? ⟨Draft.tagEntries 0 ss⟩ operand.text with
      | none =>
        simp only [reduceCtorEq, false_iff]
        rintro ⟨_, j, target, ho', hj, ht, _, _⟩
        obtain rfl := Option.some_inj.mp ho'
        have := (Draft.address?_eq_some_iff hnd).mpr ⟨j, target, hj, ht, rfl⟩
        exact absurd (ha.symm.trans this) (by simp)
      | some a =>
        -- the address that the table gives is the index of a statement, so it does not go round
        obtain ⟨j, target, hj, ht, rfl⟩ := (Draft.address?_eq_some_iff hnd).mp ha
        have hlt : j < 100 := by
          have := (List.getElem?_eq_some_iff.mp hj).1
          omega
        have hval : (s.opcode.wordAt (Address.wrap j)).val = s.opcode.base + j := by
          have hw := Address.wrap_val (j : Int)
          rw [Opcode.wordAt_val h]
          omega
        simp only [Except.ok.injEq]
        constructor
        · rintro rfl
          refine ⟨operand, j, target, rfl, hj, ht, ?_, hval⟩
          intro k other hk hu
          exact Draft.index_of_tag_unique hnd hj ht hk hu
        · rintro ⟨_, k, other, ho', hk, hu, _, hw⟩
          obtain rfl := Option.some_inj.mp ho'
          obtain rfl := Draft.index_of_tag_unique hnd hj ht hk hu
          exact Fin.ext (hval.trans hw.symm)

end Statement

/-! ### Whole assemblies -/

theorem Draft.finish_eq_ok_iff {filename : String} {d : Draft} {p : Program} :
    d.finish filename = .ok p ↔
      ∃ words, List.Forall₂ (fun s w => Statement.encode d.tags s = .ok w) d.statements words ∧
        p = { image := .ofWords words, tags := d.tags, statements := d.statements,
              dropped := d.dropped, filename } := by
  rw [finish]
  cases hm : d.statements.mapM (Statement.encode d.tags) with
  | error e =>
    simp only [bind, Except.bind, reduceCtorEq, false_iff]
    rintro ⟨words, hw, _⟩
    exact absurd (hm.symm.trans (mapM_eq_ok_iff.mpr hw)) (by simp)
  | ok ws =>
    simp only [bind, Except.bind, pure, Except.pure, Except.ok.injEq]
    constructor
    · rintro rfl
      exact ⟨ws, mapM_eq_ok_iff.mp hm, rfl⟩
    · rintro ⟨words, hw, rfl⟩
      rw [Except.ok.inj (hm.symm.trans (mapM_eq_ok_iff.mpr hw))]

/-- A program that lines assemble to. -/
structure Program.IsAssemblyOf (lines : List String) (filename : String) (p : Program) : Prop where
  /-- The statements are the first hundred lines of code, read one by one. -/
  read : List.Forall₂ (Statement.Reads filename) ((codeLines 1 lines).take 100) p.statements
  distinct : (Draft.tagsOf p.statements).Nodup
  /-- A statement's word, at the statement's index, is the one that the rules give it. -/
  encoded : ∀ (a : Address) (s : Statement), p.statements[a.val]? = some s →
    s.Encodes p.statements (p.image.get a).val
  /-- Memory is zero behind the statements. -/
  zeros : ∀ a : Address, p.statements.length ≤ a.val → p.image.get a = 0
  tags : p.tags = ⟨Draft.tagEntries 0 p.statements⟩
  /-- The line of code after the first hundred. -/
  dropped : p.dropped = ((codeLines 1 lines).drop 100).head?.map Prod.snd
  filename : p.filename = filename

namespace Program.IsAssemblyOf

variable {lines : List String} {filename : String} {p : Program}

theorem length_le (h : p.IsAssemblyOf lines filename) : p.statements.length ≤ 100 := by
  rw [← h.read.length_eq]
  exact List.length_take_le 100 _

theorem names (h : p.IsAssemblyOf lines filename) :
    p.tags.names = Draft.tagsOf p.statements := by
  rw [h.tags, TagTable.names, Draft.map_fst_tagEntries]

/-- Every statement was read from one of the lines of code. -/
theorem exists_reads (h : p.IsAssemblyOf lines filename) {s : Statement} (hs : s ∈ p.statements) :
    ∃ l ∈ (codeLines 1 lines).take 100, Statement.Reads filename l s :=
  exists_mem_of_forall₂ h.read hs

theorem encode_eq_ok_iff (h : p.IsAssemblyOf lines filename) {s : Statement} {w : Word} :
    s.encode p.tags = .ok w ↔ s.Encodes p.statements w.val := by
  rw [h.tags]
  exact Statement.encode_eq_ok_iff h.distinct h.length_le

/-- The words of the statements, in order. -/
theorem exists_words (h : p.IsAssemblyOf lines filename) :
    ∃ words, List.Forall₂ (fun s w => Statement.encode p.tags s = .ok w) p.statements words ∧
      p.image = .ofWords words := by
  have hfit := h.length_le
  -- the words can be read off the image, since it holds nothing else
  refine ⟨p.image.toList.take p.statements.length, ?_, Memory.ext_get fun a => ?_⟩
  · refine List.forall₂_iff_get.mpr ⟨?_, fun i hi hw => ?_⟩
    · rw [List.length_take, Memory.length_toList]
      omega
    · rw [h.encode_eq_ok_iff]
      have := h.encoded ⟨i, by omega⟩ _ (List.getElem?_eq_getElem hi)
      simpa [Memory.get, Memory.toList] using this
  · rw [Memory.get_ofWords]
    rcases Nat.lt_or_ge a.val p.statements.length with hlt | hge
    · simp [hlt, Memory.toList, Memory.get]
    · rw [h.zeros a hge, List.getElem?_eq_none (by rw [List.length_take]; omega)]
      rfl

end Program.IsAssemblyOf

theorem Memory.get_ofWords_of_le {words : List Word} {a : Address} (h : words.length ≤ a.val) :
    (Memory.ofWords words).get a = 0 := by
  rw [get_ofWords, List.getElem?_eq_none h]
  rfl

/-- What it takes for lines to assemble, and what they assemble to. -/
theorem assemble_eq_ok_iff {lines : List String} {filename : String} {p : Program} :
    assemble lines filename = .ok p ↔ p.IsAssemblyOf lines filename := by
  rw [assemble]
  constructor
  · intro h
    cases hs : Draft.survey filename lines with
    | error e =>
      rw [hs] at h
      exact absurd h (by simp)
    | ok d =>
      rw [hs] at h
      obtain ⟨ss, hread, hnd, rfl⟩ := Draft.survey_eq_ok_iff.mp hs
      obtain ⟨words, hwords, rfl⟩ := Draft.finish_eq_ok_iff.mp h
      have hfit : ss.length ≤ 100 := by
        rw [← hread.length_eq]
        exact List.length_take_le 100 _
      refine ⟨hread, hnd, fun a s hs => ?_, fun a ha => ?_, rfl, rfl, rfl⟩
      · obtain ⟨w, hw, henc⟩ := exists_getElem?_of_forall₂ hwords hs
        show s.Encodes ss ((Memory.ofWords words).get a).val
        rw [Memory.get_ofWords, hw]
        exact (Statement.encode_eq_ok_iff hnd hfit).mp henc
      · exact Memory.get_ofWords_of_le (hwords.length_eq ▸ ha)
  · intro h
    obtain ⟨words, hwords, himage⟩ := h.exists_words
    rw [Draft.survey_eq_ok_iff.mpr ⟨p.statements, h.read, h.distinct, rfl⟩]
    rw [h.tags] at hwords
    refine Draft.finish_eq_ok_iff.mpr ⟨words, hwords, ?_⟩
    calc p = ⟨p.image, p.tags, p.statements, p.dropped, p.filename⟩ := rfl
      _ = _ := by
        rw [himage, h.tags, h.dropped, h.filename]
        rfl

end LittleMan
