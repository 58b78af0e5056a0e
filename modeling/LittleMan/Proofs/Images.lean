/-
Three ways to an image.

A list of numbers becomes an image if all of it is checked first, if it is loaded into memory box by
box, or if it is written as a source with one line of data for each number. Up to a hundred numbers
are accepted in each way if they are words, and make the same memory. Of more numbers the first two
ways say that they are too many; the source is cut off behind the first hundred.

* `Memory.Holds`: the numbers in the boxes from 0 on, zeros behind them; no two memories hold the
  same numbers (`Holds.unique`), and it takes words (`exists_holds_iff`);
* `loadWords_eq_ok_iff`, `Machine.ofImage_eq_ok_iff`: what the first two ways make of a list;
* `numberLines`: the source of a list; `Statement.encodes_of_isNumber`: the word of each of its lines;
* `exists_assemble_of_holds`, `holds_of_assemble`: what the source assembles to;
* `images_agree`: all three ways side by side.
-/
import LittleMan.Proofs.Assembly
import LittleMan.Proofs.Loading
import LittleMan.Proofs.Packing.Lines
namespace LittleMan

open Text

/-! ### Memory that holds a list -/

theorem Word.ofInt?_eq_some_iff {v : Int} {w : Word} : Word.ofInt? v = some w ↔ (w.val : Int) = v := by
  rw [Word.ofInt?]
  by_cases h : 0 ≤ v ∧ v ≤ 999
  · rw [dif_pos h, Option.some_inj, Fin.ext_iff]
    show v.toNat = w.val ↔ (w.val : Int) = v
    omega
  · rw [dif_neg h]
    have hw := w.isLt
    refine iff_of_false (by simp) ?_
    omega

namespace Memory

/-- Memory with the given numbers in the boxes from 0 on and zeros in those behind. -/
structure Holds (m : Memory) (values : List Int) : Prop where
  room : values.length ≤ 100
  box : ∀ a : Address, ((m.get a).val : Int) = values[a.val]?.getD 0

section Holds

variable {m n : Memory} {values : List Int}

theorem Holds.unique (h : m.Holds values) (h' : n.Holds values) : m = n := by
  apply ext_get
  intro a
  have hm := h.box a
  have hn := h'.box a
  apply Fin.ext
  omega

theorem Holds.isWord (h : m.Holds values) : ∀ v ∈ values, isWord v = true := by
  intro v hv
  obtain ⟨i, hi, rfl⟩ := List.getElem_of_mem hv
  have hroom := h.room
  have hbox := h.box ⟨i, by omega⟩
  have hw := (m.get ⟨i, by omega⟩).isLt
  rw [List.getElem?_eq_getElem hi, Option.getD_some] at hbox
  rw [isWord_iff]
  omega

theorem Holds.map_toList (h : m.Holds values) :
    m.toList.map (fun w => (w.val : Int)) = values ++ List.replicate (100 - values.length) 0 := by
  have hroom := h.room
  apply List.ext_getElem
  · rw [List.length_map, length_toList, List.length_append, List.length_replicate]
    omega
  · intro i hi hi'
    rw [List.length_map, length_toList] at hi
    have hbox := h.box ⟨i, hi⟩
    rw [List.getElem_map]
    show ((m.get ⟨i, hi⟩).val : Int) = _
    rw [hbox]
    show values[i]?.getD 0 = _
    by_cases hlt : i < values.length
    · rw [List.getElem?_eq_getElem hlt, Option.getD_some, List.getElem_append_left hlt]
    · rw [List.getElem?_eq_none (by omega), Option.getD_none,
        List.getElem_append_right (by omega), List.getElem_replicate]

/-- A memory put together from words holds their values. -/
theorem holds_ofWords {words : List Word} (h : words.length ≤ 100) :
    (ofWords words).Holds (words.map fun w => (w.val : Int)) := by
  refine ⟨by rwa [List.length_map], ?_⟩
  intro a
  rw [get_ofWords, List.getElem?_map]
  cases words[a.val]? <;> rfl

theorem exists_words_of_isWord (h : ∀ v ∈ values, LittleMan.isWord v = true) :
    ∃ words : List Word, words.map (fun w => (w.val : Int)) = values := by
  induction values with
  | nil => exact ⟨[], rfl⟩
  | cons v values ih =>
    obtain ⟨hv, hvalues⟩ := List.forall_mem_cons.mp h
    obtain ⟨words, rfl⟩ := ih hvalues
    rw [← Word.isSome_ofInt?, Option.isSome_iff_exists] at hv
    obtain ⟨w, hw⟩ := hv
    obtain rfl := Word.ofInt?_eq_some_iff.mp hw
    exact ⟨w :: words, rfl⟩

/-- Some memory holds a list if it is not too long and made of words. -/
theorem exists_holds_iff :
    (∃ m : Memory, m.Holds values) ↔
      values.length ≤ 100 ∧ ∀ v ∈ values, LittleMan.isWord v = true := by
  constructor
  · rintro ⟨m, h⟩
    exact ⟨h.room, h.isWord⟩
  · rintro ⟨hroom, hwords⟩
    obtain ⟨words, rfl⟩ := exists_words_of_isWord hwords
    exact ⟨_, holds_ofWords (by rwa [List.length_map] at hroom)⟩

/-- What was zero holds the words that were put over it from box 0 on. -/
theorem Overwritten.holds (hroom : values.length ≤ 100) (h : zero.Overwritten 0 values m) :
    m.Holds values := by
  refine ⟨hroom, ?_⟩
  intro a
  have ha := a.isLt
  by_cases hlt : a.val < values.length
  · rw [h.written a.val values[a.val] (List.getElem?_eq_getElem hlt) a (by omega),
      List.getElem?_eq_getElem hlt, Option.getD_some]
  · rw [h.kept a (fun i hi => by omega), get_zero, List.getElem?_eq_none (by omega)]
    rfl

end Holds

end Memory

/-! ### Checking and loading -/

section Lists

variable {values : List Int} {m : Memory}

theorem loadWords.check_eq_ok_iff {box : Nat} {done : List Word} :
    loadWords.check box values done = .ok m ↔
      ∃ words : List Word, words.map (fun w => (w.val : Int)) = values ∧
        m = .ofWords (done.reverse ++ words) := by
  induction values generalizing box done with
  | nil =>
    rw [loadWords.check, Except.ok.injEq]
    constructor
    · rintro rfl
      exact ⟨[], rfl, by rw [List.append_nil]⟩
    · rintro ⟨words, hwords, rfl⟩
      rw [List.map_eq_nil_iff.mp hwords, List.append_nil]
  | cons v values ih =>
    rw [loadWords.check]
    cases hv : Word.ofInt? v with
    | none =>
      refine iff_of_false (by simp) ?_
      rintro ⟨words, hwords, -⟩
      obtain ⟨w, -, -, hw, -⟩ := List.map_eq_cons_iff.mp hwords
      rw [Word.ofInt?_eq_some_iff.mpr hw] at hv
      exact absurd hv (by simp)
    | some w =>
      have hw := Word.ofInt?_eq_some_iff.mp hv
      show loadWords.check (box + 1) values (w :: done) = .ok m ↔ _
      rw [ih, List.reverse_cons]
      constructor
      · rintro ⟨words, rfl, rfl⟩
        exact ⟨w :: words, by rw [List.map_cons, hw], by rw [List.append_assoc]; rfl⟩
      · rintro ⟨words, hwords, rfl⟩
        obtain ⟨w', words, rfl, hw', hvalues⟩ := List.map_eq_cons_iff.mp hwords
        obtain rfl : w' = w := Fin.ext (by omega)
        exact ⟨words, hvalues, by rw [List.append_assoc]; rfl⟩

theorem loadWords_eq_ok_iff : loadWords values = .ok m ↔ m.Holds values := by
  rw [loadWords]
  by_cases hlong : values.length > 100
  · rw [if_pos hlong]
    refine iff_of_false (by simp) ?_
    intro h
    have hroom := h.room
    omega
  · rw [if_neg hlong, loadWords.check_eq_ok_iff]
    constructor
    · rintro ⟨words, rfl, rfl⟩
      rw [List.length_map] at hlong
      exact Memory.holds_ofWords (Nat.le_of_not_lt hlong)
    · intro h
      obtain ⟨words, rfl⟩ := Memory.exists_words_of_isWord h.isWord
      rw [List.length_map] at hlong
      exact ⟨words, rfl, h.unique (Memory.holds_ofWords (Nat.le_of_not_lt hlong))⟩

theorem Machine.ofImage_eq_ok_iff {s : Machine} :
    Machine.ofImage values = .ok s ↔ ∃ m : Memory, m.Holds values ∧ s = { memory := m } := by
  rw [Machine.ofImage]
  by_cases hlong : values.length > 100
  · rw [if_pos hlong]
    refine iff_of_false (by simp) ?_
    rintro ⟨m, h, -⟩
    have hroom := h.room
    omega
  · rw [if_neg hlong]
    have hroom := Nat.le_of_not_lt hlong
    by_cases hwords : ∀ v ∈ values, isWord v = true
    · obtain ⟨after, hload, hafter⟩ := Memory.zero.exists_load_of_words 0 hroom hwords
      have hholds := hafter.holds hroom
      rw [hload]
      constructor
      · intro h
        exact ⟨after, hholds, (Except.ok.inj h).symm⟩
      · rintro ⟨m, hm, rfl⟩
        rw [hm.unique hholds]
    · -- the first number that is no word stops the loading
      obtain ⟨front, v, back, rfl, hfront, hv⟩ :=
        exists_first_not (P := fun v => isWord v = true) (by simpa using hwords)
      obtain ⟨after, hload, -⟩ := Memory.zero.exists_load_of_not_isWord 0 hroom hfront
        (Bool.eq_false_iff.mpr hv)
      rw [hload]
      refine iff_of_false (by simp) ?_
      rintro ⟨m, hm, -⟩
      exact hwords hm.isWord

theorem Machine.exists_ofImage_iff :
    (∃ s, Machine.ofImage values = .ok s) ↔ ∃ m : Memory, m.Holds values := by
  constructor
  · rintro ⟨s, hs⟩
    obtain ⟨m, hm, -⟩ := Machine.ofImage_eq_ok_iff.mp hs
    exact ⟨m, hm⟩
  · rintro ⟨m, hm⟩
    exact ⟨_, Machine.ofImage_eq_ok_iff.mpr ⟨m, hm, rfl⟩⟩

end Lists

/-! ### Writing a source -/

/-- An indented line of data. -/
def numberLine (indent : String) (v : Int) : String := indent ++ "DAT " ++ toString v

/-- A line of data for each number. -/
def numberLines (indent : String) (values : List Int) : List String :=
  values.map (numberLine indent)

/-- Blanks, at least one, in front of a line. -/
structure IsIndent (indent : String) : Prop where
  ne : indent ≠ ""
  blank : AllBlank indent.toList
  line : IsLine indent.toList

theorem allBlank_space : AllBlank " ".toList := allBlank_iff.mpr (by decide +kernel)

namespace Statement

/-- A data statement without a tag, its operand the given number. -/
structure IsNumber (s : Statement) (v : Int) : Prop where
  opcode : s.opcode = .dat
  tag : s.tag = none
  operand : s.operand.map Field.text = some (toString v)

theorem isName_dat : IsName "DAT" := by decide +kernel

theorem exists_upper_dat : ∃ o : Opcode, upper "DAT" = o.name := ⟨.dat, by decide +kernel⟩

/-- The pieces of a line with a number. -/
def Rendering.ofNumber {indent : String} (h : IsIndent indent) (v : Int) : Rendering where
  tag := none
  indent
  mnemonic := "DAT"
  operand := some (" ", toString v)
  trailer := ""
  comment := none
  tag_isName := by simp
  indent_blank := h.blank
  indent_ne := by simp
  mnemonic_isName := isName_dat
  mnemonic_upper := exists_upper_dat
  operand_isName := by
    rintro _ ⟨⟩
    exact ⟨allBlank_space, by simp, isWord_toString v⟩
  tag_upper := by simp
  trailer_blank := by simp [AllBlank]

section Lines

variable {indent filename : String} {v : Int} {n : Nat} {s : Statement}

theorem Rendering.text_ofNumber (h : IsIndent indent) (v : Int) :
    (ofNumber h v).text = numberLine indent v := by
  have hdat : "DAT" ++ " " = "DAT " := by decide +kernel
  rw [numberLine, ← hdat]
  simp only [text, code, before, behind, ofNumber, Option.elim_some, Option.elim_none,
    Option.getD_none, String.append_assoc, String.empty_append, String.append_empty]

theorem exists_reads_numberLine (h : IsIndent indent) (v : Int) (n : Nat) (filename : String) :
    ∃ s, Reads filename (numberLine indent v, n) s ∧ s.IsNumber v := by
  obtain ⟨s, hs, hwrites⟩ := (Rendering.ofNumber h v).exists_parse_text n filename
  rw [Rendering.text_ofNumber] at hs
  have hdat : upper "DAT" = Opcode.dat.name := by decide +kernel
  exact ⟨s, hs, Opcode.name_injective (hwrites.opcode.trans hdat), hwrites.tag, hwrites.operand⟩

theorem isNumber_of_reads (h : IsIndent indent) (hs : Reads filename (numberLine indent v, n) s) :
    s.IsNumber v := by
  obtain ⟨s', hs', hnumber⟩ := exists_reads_numberLine h v n filename
  have heq : parse (numberLine indent v) n filename = .ok (some s') := hs'
  rw [Reads, heq] at hs
  rwa [← Option.some_inj.mp (Except.ok.inj hs)]

theorem isCode_numberLine (h : IsIndent indent) (v : Int) : isCode (numberLine indent v) = true := by
  obtain ⟨s, hs, -⟩ := exists_reads_numberLine h v 1 ""
  exact isCode_of_parse hs

theorem isLine_numberLine (h : IsIndent indent) (v : Int) : IsLine (numberLine indent v).toList := by
  have hdat : IsLine "DAT ".toList := isLine_of_all (by decide +kernel)
  rw [numberLine, String.toList_append, String.toList_append]
  exact (h.line.append hdat).append (IsLine.of_not_blank (isWord_toString v).1.2)

/-- The word of a number is the number, if it is a word. -/
theorem encodes_of_isNumber {program : List Statement} {k : Nat} (h : s.IsNumber v) :
    s.Encodes program k ↔ (k : Int) = v ∧ k ≤ 999 := by
  obtain ⟨operand, hs, htext⟩ := Option.map_eq_some_iff.mp h.operand
  rw [encodes_iff_of_literal (.inr h.opcode) hs, htext, isNumeral_toString_iff]
  constructor
  · rintro ⟨hv, -, rfl, hk⟩
    exact ⟨decimal_toString hv, hk⟩
  · rintro ⟨rfl, hk⟩
    have hv : (0 : Int) ≤ k := Int.natCast_nonneg k
    have hdecimal := decimal_toString hv
    have hlength : (digits k).length ≤ 3 := length_digits_le (by decide) (by omega)
    refine ⟨hv, ?_, by omega, hk⟩
    rw [toList_toString hv, Int.toNat_natCast]
    exact Nat.le_trans hlength (by decide)

end Lines

end Statement

section Source

variable {indent filename : String} {values : List Int} {lines : List String} {number : Nat}
  {ss : List Statement} {p : Program}

/-- All lines of the source hold code. -/
theorem codeLines_numberLines (h : IsIndent indent) (number : Nat) (values : List Int) :
    codeLines number (numberLines indent values) =
      (numberLines indent values).zipIdx number := by
  have hline : ∀ l ∈ numberLines indent values, IsLine l.toList := by
    intro l hl
    obtain ⟨v, -, rfl⟩ := List.mem_map.mp hl
    exact Statement.isLine_numberLine h v
  rw [codeLines_of_isLine hline, List.filter_eq_self]
  rintro ⟨l, n⟩ hl
  obtain ⟨v, -, rfl⟩ := List.mem_map.mp (List.fst_mem_of_mem_zipIdx hl)
  exact Statement.isCode_numberLine h v

theorem forall₂_isNumber (h : IsIndent indent)
    (hread : List.Forall₂ (Statement.Reads filename)
      ((numberLines indent values).zipIdx number) ss) :
    List.Forall₂ Statement.IsNumber ss values := by
  induction values generalizing number ss with
  | nil =>
    rw [List.forall₂_nil_left_iff.mp hread]
    exact .nil
  | cons v values ih =>
    obtain ⟨s, more, hs, hmore, rfl⟩ := List.forall₂_cons_left_iff.mp hread
    exact .cons (Statement.isNumber_of_reads h hs) (ih hmore)

/-- The source as lines, and as a text. -/
def IsSourceOf (indent : String) (values : List Int) (lines : List String) : Prop :=
  lines = numberLines indent values ∨ lines = Text.lines (unlines (numberLines indent values))

theorem IsSourceOf.codeLines_eq (h : IsIndent indent) (hlines : IsSourceOf indent values lines) :
    codeLines 1 lines = (numberLines indent values).zipIdx 1 := by
  rw [← codeLines_numberLines h]
  rcases hlines with rfl | rfl
  · rfl
  · refine codeLines_lines_unlines ?_ 1
    intro l hl
    obtain ⟨v, -, rfl⟩ := List.mem_map.mp hl
    exact Statement.isLine_numberLine h v

theorem take_zipIdx (n : Nat) (l : List String) (number : Nat) :
    (l.zipIdx number).take n = (l.take n).zipIdx number := by
  induction l generalizing n number with
  | nil => rw [List.zipIdx_nil, List.take_nil, List.take_nil, List.zipIdx_nil]
  | cons a l ih =>
    cases n with
    | zero => rfl
    | succ n =>
      rw [List.zipIdx_cons, List.take_succ_cons, List.take_succ_cons, List.zipIdx_cons, ih]

/-- The statements of the source are those of the first hundred numbers. -/
theorem IsSourceOf.take_codeLines (h : IsIndent indent) (hlines : IsSourceOf indent values lines) :
    (codeLines 1 lines).take 100 = (numberLines indent (values.take 100)).zipIdx 1 := by
  rw [hlines.codeLines_eq h, take_zipIdx, numberLines, numberLines, List.map_take]

theorem holds_of_assemble (h : IsIndent indent) (hlines : IsSourceOf indent values lines)
    (hp : assemble lines filename = .ok p) : p.image.Holds (values.take 100) := by
  have hassembly := assemble_eq_ok_iff.mp hp
  have hread := hassembly.read
  rw [hlines.take_codeLines h] at hread
  have hnumbers := forall₂_isNumber h hread
  have hlength := hnumbers.length_eq
  refine ⟨List.length_take_le 100 values, ?_⟩
  intro a
  by_cases hlt : a.val < p.statements.length
  · have hs := List.getElem?_eq_getElem hlt
    obtain ⟨v, hv, hnumber⟩ := exists_getElem?_of_forall₂ hnumbers hs
    rw [hv, Option.getD_some]
    exact ((Statement.encodes_of_isNumber hnumber).mp (hassembly.encoded a _ hs)).1
  · rw [hassembly.zeros a (Nat.le_of_not_lt hlt), List.getElem?_eq_none (by omega)]
    rfl

/-- A program with no tags at all, and a word for each of its statements. -/
theorem exists_assemble_of_holds {m : Memory} (h : IsIndent indent)
    (hlines : IsSourceOf indent values lines) (hm : m.Holds (values.take 100))
    (filename : String) : ∃ p, assemble lines filename = .ok p ∧ p.image = m := by
  have hreads : ∀ l ∈ (codeLines 1 lines).take 100, ∃ s, Statement.Reads filename l s := by
    rw [hlines.take_codeLines h]
    rintro ⟨l, n⟩ hl
    obtain ⟨v, -, rfl⟩ := List.mem_map.mp (List.fst_mem_of_mem_zipIdx hl)
    obtain ⟨s, hs, -⟩ := Statement.exists_reads_numberLine h v n filename
    exact ⟨s, hs⟩
  obtain ⟨ss, hread⟩ := exists_forall₂_iff.mpr hreads
  have hnumbers : List.Forall₂ Statement.IsNumber ss (values.take 100) := by
    rw [hlines.take_codeLines h] at hread
    exact forall₂_isNumber h hread
  have htags : Draft.tagsOf ss = [] := by
    rw [Draft.tagsOf, List.filterMap_eq_nil_iff]
    intro s hs
    obtain ⟨v, -, hnumber⟩ := exists_mem_of_forall₂ hnumbers.flip hs
    exact hnumber.tag
  refine ⟨⟨m, ⟨Draft.tagEntries 0 ss⟩, ss, ((codeLines 1 lines).drop 100).head?.map Prod.snd,
    filename⟩, assemble_eq_ok_iff.mpr ?_, rfl⟩
  refine ⟨hread, ?_, ?_, ?_, rfl, rfl, rfl⟩
  · rw [htags]
    exact List.nodup_nil
  · intro a s hs
    obtain ⟨v, hv, hnumber⟩ := exists_getElem?_of_forall₂ hnumbers hs
    have hbox := hm.box a
    have hw := (m.get a).isLt
    rw [hv, Option.getD_some] at hbox
    exact (Statement.encodes_of_isNumber hnumber).mpr ⟨hbox, by omega⟩
  · intro a ha
    have hbox := hm.box a
    rw [List.getElem?_eq_none (hnumbers.length_eq ▸ ha), Option.getD_none] at hbox
    apply Fin.ext
    show (m.get a).val = 0
    omega

theorem exists_assemble_iff (h : IsIndent indent) (hlines : IsSourceOf indent values lines) :
    (∃ p, assemble lines filename = .ok p) ↔ ∃ m : Memory, m.Holds (values.take 100) := by
  constructor
  · rintro ⟨p, hp⟩
    exact ⟨p.image, holds_of_assemble h hlines hp⟩
  · rintro ⟨m, hm⟩
    obtain ⟨p, hp, -⟩ := exists_assemble_of_holds h hlines hm filename
    exact ⟨p, hp⟩

theorem truncated_iff (h : IsIndent indent) (hlines : IsSourceOf indent values lines)
    (hp : assemble lines filename = .ok p) : p.truncated = true ↔ 100 < values.length := by
  rw [Program.truncated, (assemble_eq_ok_iff.mp hp).dropped, hlines.codeLines_eq h,
    Option.isSome_map, List.isSome_head?, Ne, List.drop_eq_nil_iff, List.length_zipIdx,
    numberLines, List.length_map, Nat.not_le]

end Source

/-- Up to a hundred numbers are an image in all three ways or in none, and it takes words; then all
three make the same memory, the numbers with zeros behind them. More than a hundred numbers are too
many for the first two ways, whatever they are; a source of so many words assembles to the first
hundred. -/
theorem images_agree {indent : String} (h : IsIndent indent) (values : List Int)
    {lines : List String} (hlines : IsSourceOf indent values lines) (filename : String) :
    (values.length ≤ 100 →
      ((∃ m, loadWords values = .ok m) ↔ ∃ s, Machine.ofImage values = .ok s) ∧
      ((∃ s, Machine.ofImage values = .ok s) ↔ ∃ p, assemble lines filename = .ok p) ∧
      ((∃ p, assemble lines filename = .ok p) ↔ ∀ v ∈ values, isWord v = true) ∧
      ∀ m s p, loadWords values = .ok m → Machine.ofImage values = .ok s →
        assemble lines filename = .ok p →
          s.memory = m ∧ p.image = m ∧ m.toList.map (fun w => (w.val : Int)) =
            values ++ List.replicate (100 - values.length) 0) ∧
    (100 < values.length →
      loadWords values = .error (.tooLarge values.length) ∧
      Machine.ofImage values = .error (.tooLarge values.length) ∧
      ((∀ v ∈ values, isWord v = true) → ∃ p, assemble lines filename = .ok p ∧
        p.truncated = true ∧ p.image.toList.map (fun w => (w.val : Int)) = values.take 100)) := by
  refine ⟨fun hroom => ?_, fun hlong => ⟨if_pos hlong, if_pos hlong, fun hwords => ?_⟩⟩
  · have hall : values.take 100 = values := List.take_of_length_le hroom
    -- each way succeeds just when some memory holds the numbers
    have hload : (∃ m, loadWords values = .ok m) ↔ ∃ m : Memory, m.Holds values :=
      exists_congr fun m => loadWords_eq_ok_iff
    have hassemble : (∃ p, assemble lines filename = .ok p) ↔ ∃ m : Memory, m.Holds values := by
      rw [exists_assemble_iff h hlines, hall]
    have hwords : (∃ m : Memory, m.Holds values) ↔ ∀ v ∈ values, isWord v = true := by
      rw [Memory.exists_holds_iff, and_iff_right hroom]
    refine ⟨hload.trans Machine.exists_ofImage_iff.symm,
      Machine.exists_ofImage_iff.trans hassemble.symm, hassemble.trans hwords, ?_⟩
    intro m s p hm hs hp
    have hholds := loadWords_eq_ok_iff.mp hm
    obtain ⟨n, hn, rfl⟩ := Machine.ofImage_eq_ok_iff.mp hs
    have hsource := holds_of_assemble h hlines hp
    rw [hall] at hsource
    exact ⟨hn.unique hholds, hsource.unique hholds, hholds.map_toList⟩
  · obtain ⟨m, hm⟩ : ∃ m : Memory, m.Holds (values.take 100) :=
      Memory.exists_holds_iff.mpr
        ⟨List.length_take_le 100 values, fun v hv => hwords v (List.mem_of_mem_take hv)⟩
    obtain ⟨p, hp, rfl⟩ := exists_assemble_of_holds h hlines hm filename
    have hfull : 100 - (values.take 100).length = 0 := by
      rw [List.length_take]
      omega
    refine ⟨p, hp, (truncated_iff h hlines hp).mpr hlong, ?_⟩
    rw [hm.map_toList, hfull, List.replicate_zero, List.append_nil]

/-- Two words as a text, a number below zero, and one word too many. -/
theorem images_agree_two_words :
    (∃ m s p, loadWords [503, 42] = .ok m ∧ Machine.ofImage [503, 42] = .ok s ∧
      assemble (Text.lines " DAT 503\n DAT 42\n") "f" = .ok p ∧ s.memory = m ∧ p.image = m) ∧
    (¬∃ p, assemble ["\t DAT -1"] "f" = .ok p) ∧
    ∃ p, assemble (numberLines " " (List.replicate 101 7)) "f" = .ok p ∧ p.truncated = true := by
  have hspace : IsIndent " " :=
    ⟨by simp, allBlank_space, isLine_of_all (by decide +kernel)⟩
  have hwide : IsIndent "\t " :=
    ⟨by simp, allBlank_iff.mpr (by decide +kernel), isLine_of_all (by decide +kernel)⟩
  have htext : IsSourceOf " " [503, 42] (Text.lines " DAT 503\n DAT 42\n") := by
    right
    decide +kernel
  have hline : IsSourceOf "\t " [-1] ["\t DAT -1"] := by
    left
    decide +kernel
  have hmany : 100 < (List.replicate 101 (7 : Int)).length := by
    rw [List.length_replicate]
    omega
  obtain ⟨hload, himage, hwords, hsame⟩ := (images_agree hspace [503, 42] htext "f").1 (by decide)
  obtain ⟨p, hp⟩ := hwords.mpr (by decide)
  obtain ⟨s, hs⟩ := himage.mpr ⟨p, hp⟩
  obtain ⟨m, hm⟩ := hload.mpr ⟨s, hs⟩
  obtain ⟨hmemory, hprogram, -⟩ := hsame m s p hm hs hp
  obtain ⟨-, -, hnegative, -⟩ := (images_agree hwide [-1] hline "f").1 (by decide)
  obtain ⟨-, -, hcut⟩ := (images_agree hspace (List.replicate 101 7) (.inl rfl) "f").2 hmany
  obtain ⟨q, hq, htruncated, -⟩ := hcut (fun v hv => by rw [List.eq_of_mem_replicate hv]; rfl)
  exact ⟨⟨m, s, p, hm, hs, hp, hmemory, hprogram⟩, hnegative.not.mpr (by decide), q, hq, htruncated⟩

end LittleMan
