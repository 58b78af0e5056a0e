/-
A test file is read exactly, and what is written to one is read back.

Lines without a case only move the number of the next one, so a file is the list of its other lines
with their numbers, and each of them is read by itself. What is asked of a line is that no number in
it has more digits than are read; a name may hold any digits.

* `Skipped`, `Sound`: the lines that hold no case, and the lines that are accepted;
* `parseFrom_eq_mapM`: a file is read record by record;
* `parseFile_eq_ok_iff`, `exists_parseFile_iff`, `parseFile_bad`: what is read, when, and which line
  is blamed otherwise;
* `parseFile_render`: cases that are written one on a line are read back;
* `parseFile_exact`: all of this together.
-/
import LittleMan.Proofs.Grading.Record
import LittleMan.Proofs.Text.Lines
namespace LittleMan

open Text

namespace Case

/-! ### Lines of a file -/

/-- A line that holds no case: it is blank or a comment. -/
def Skipped (l : String) : Prop := AllBlank l.toList ∨ (trim l.toList).head? = some '#'

theorem skipped_iff {l : String} :
    ((trim l.toList).isEmpty || (trim l.toList).head? == some '#') = true ↔ Skipped l := by
  rw [Bool.or_eq_true, isEmpty_trim_iff, beq_iff_eq, Skipped]

instance : DecidablePred Skipped := fun _ => decidable_of_iff _ skipped_iff

/-- No number of a record has too many digits to be read. -/
def ShortNumbers (l : String) : Prop := ∀ field ∈ (splitOn ';' l.toList).tail, ShortDigits field

theorem shortNumbers_of_shortDigits {l : String} (h : ShortDigits l.toList) : ShortNumbers l :=
  fun _ hfield => h.of_isInfix (isInfix_of_mem_splitOn (List.mem_of_mem_tail hfield))

/-- A line that may stand in a test file. -/
def Sound (l : String) : Prop := Skipped l ∨ ∃ c, IsRecord l.toList c

/-- The lines that hold a case, with their numbers. -/
def records (number : Nat) (lines : List String) : List (String × Nat) :=
  (lines.zipIdx number).filter fun l => ¬Skipped l.1

section Records

variable {number : Nat} {lines before after : List String} {l : String}

theorem records_cons_of_skipped (h : Skipped l) :
    records number (l :: lines) = records (number + 1) lines := by
  rw [records, List.zipIdx_cons, List.filter_cons_of_neg (by simpa using h), records]

theorem records_cons (h : ¬Skipped l) :
    records number (l :: lines) = (l, number) :: records (number + 1) lines := by
  rw [records, List.zipIdx_cons, List.filter_cons_of_pos (by simpa using h), records]

theorem records_append :
    records number (before ++ after) =
      records number before ++ records (number + before.length) after := by
  rw [records, List.zipIdx_append, List.filter_append, records, records]

theorem mem_of_mem_records {r : String × Nat} (h : r ∈ records number lines) :
    r.1 ∈ lines ∧ ¬Skipped r.1 := by
  obtain ⟨hr, hskip⟩ := List.mem_filter.mp h
  exact ⟨List.fst_mem_of_mem_zipIdx hr, by simpa using hskip⟩

theorem exists_mem_records (hl : l ∈ lines) (hskip : ¬Skipped l) :
    ∃ r ∈ records number lines, r.1 = l := by
  rw [← List.zipIdx_map_fst number lines] at hl
  obtain ⟨r, hr, rfl⟩ := List.mem_map.mp hl
  exact ⟨r, List.mem_filter.mpr ⟨hr, by simpa using hskip⟩, rfl⟩

end Records

/-! ### Reading a file -/

variable {number : Nat} {lines before after : List String} {l : String} {cases : List Case}

/-- A file is read record by record. -/
theorem parseFrom_eq_mapM :
    parseFrom number lines = (records number lines).mapM fun r => parse r.1 r.2 := by
  induction lines generalizing number with
  | nil => rfl
  | cons raw rest ih =>
    rw [parseFrom, ih]
    by_cases h : Skipped raw
    · rw [records_cons_of_skipped h]
      exact if_pos (skipped_iff.mpr h)
    · rw [records_cons h, List.mapM_cons, parse_trim]
      exact if_neg (mt skipped_iff.mp h)

theorem parseFile_eq_ok_iff (hshort : ∀ l ∈ lines, ShortNumbers l) :
    parseFile lines = .ok cases ↔
      List.Forall₂ (fun r c => IsRecord r.1.toList c ∧ c.line = r.2) (records 1 lines) cases := by
  rw [parseFile, parseFrom_eq_mapM]
  refine mapM_eq_ok_iff_of_forall fun r hr c => ?_
  have hl : r.1 ∈ lines := List.fst_mem_of_mem_zipIdx (List.mem_of_mem_filter hr)
  exact (parse_exactly (hshort r.1 hl)).ok_iff c

theorem IsRecord.withLine {cs : List Char} {c : Case} (h : IsRecord cs c) (line : Int) :
    IsRecord cs { c with line } := by
  obtain ⟨hfields, hblank, hname, hinputs, houtputs, hlimit⟩ := h
  exact .mk hfields hblank hname hinputs houtputs hlimit

/-- A file is accepted if all of its lines are. -/
theorem exists_parseFile_iff (hshort : ∀ l ∈ lines, ShortNumbers l) :
    (∃ cases, parseFile lines = .ok cases) ↔ ∀ l ∈ lines, Sound l := by
  simp only [parseFile_eq_ok_iff hshort, exists_forall₂_iff]
  constructor
  · refine fun h l hl => or_iff_not_imp_left.mpr fun hskip => ?_
    obtain ⟨r, hr, rfl⟩ : ∃ r ∈ records 1 lines, r.1 = l := exists_mem_records hl hskip
    obtain ⟨c, hc, -⟩ := h r hr
    exact ⟨c, hc⟩
  · intro h r hr
    obtain ⟨hl, hskip⟩ := mem_of_mem_records hr
    obtain ⟨c, hc⟩ := (h r.1 hl).resolve_left hskip
    exact ⟨_, hc.withLine r.2, rfl⟩

/-- The first line that is not sound is blamed. -/
theorem parseFile_bad (hshort : ∀ m ∈ before ++ l :: after, ShortNumbers m)
    (hbefore : ∀ m ∈ before, Sound m) (hbad : ¬Sound l) :
    ∃ defect, parseFile (before ++ l :: after) = .error (.record defect (before.length + 1)) := by
  obtain ⟨hskip, hno⟩ := not_or.mp hbad
  -- the lines before it are read
  have hread : ∃ cases, parseFile before = .ok cases :=
    (exists_parseFile_iff fun m hm => hshort m (by simp [hm])).mpr hbefore
  obtain ⟨first, hfirst⟩ := hread
  rw [parseFile, parseFrom_eq_mapM, mapM_eq_ok_iff] at hfirst
  obtain ⟨defect, hdefect⟩ : ∃ defect, parse l (1 + before.length : Nat) =
      .error (.record defect (1 + before.length : Nat)) :=
    (parse_exactly (hshort l (by simp))).exists_defect fun c hc => hno ⟨c, hc.1⟩
  refine ⟨defect, ?_⟩
  rw [parseFile, parseFrom_eq_mapM, records_append, records_cons hskip]
  refine mapM_eq_error_iff.mpr ⟨_, _, _, rfl, fun r hr => ?_, ?_⟩
  · exact exists_forall₂_iff.mp ⟨first, hfirst⟩ r hr
  · rw [hdefect]
    push_cast
    rw [Int.add_comm]

/-! ### Writing a file -/

/-- Numbers as a list is written. -/
def renderValues (values : List Int) : String := ",".intercalate (values.map toString)

/-- A limit as it is written, which is not at all if there is none. -/
def renderLimit (limit : Option Int) : String := (limit.map toString).getD ""

/-- The fields that a case is written as. -/
def fields (c : Case) : List String :=
  [c.name, renderValues c.inputs, renderValues c.outputs, renderLimit c.maxSteps]

/-- The line that a case is written on. -/
def render (c : Case) : String := ";".intercalate c.fields

/-- A case that can be written on a line. Its name may hold any digits, its limit not too many to be
read. -/
structure Writable (c : Case) : Prop where
  ne_nil : c.name.toList ≠ []
  trimmed : trim c.name.toList = c.name.toList
  isLine : IsLine c.name.toList
  noSeparator : ';' ∉ c.name.toList
  noComment : c.name.toList.head? ≠ some '#'
  inputs : ∀ v ∈ c.inputs, isWord v = true
  outputs : ∀ v ∈ c.outputs, isWord v = true
  limit : ∀ n ∈ c.maxSteps, 1 ≤ n ∧ (toString n).toList.length ≤ maxNumeralLength

/-- The cases with the numbers of the lines they are written on. -/
def numbered (cases : List Case) : List Case :=
  (cases.zipIdx 1).map fun c => { c.1 with line := c.2 }

section Values

variable {values : List Int}

theorem toList_renderValues : (renderValues values).toList =
    [','].intercalate (values.map fun v => (toString v).toList) := by
  rw [renderValues, String.toList_intercalate, List.map_map]
  rfl

theorem isList_renderValues (h : ∀ v ∈ values, isWord v = true) :
    IsList (renderValues values).toList values := by
  have hnonneg : ∀ v ∈ values, 0 ≤ v := fun v hv => (isWord_iff.mp (h v hv)).1
  rw [toList_renderValues]
  rcases eq_or_ne values [] with rfl | hne
  · exact .blank (by simp [AllBlank])
  · refine .items (by simpa using hne) (fun item hitem => ?_) ?_
    · obtain ⟨v, hv, rfl⟩ := List.mem_map.mp hitem
      exact fun hm => absurd (isDigit_of_mem_toString (hnonneg v hv) ',' hm) (by decide)
    · rw [List.map_map, List.forall₂_map_left_iff, List.forall₂_same]
      intro v hv
      have hv0 := hnonneg v hv
      have hdecimal := decimal_toString hv0
      have hle := (isWord_iff.mp (h v hv)).2
      rw [Function.comp_apply, trim_toString hv0]
      exact ⟨isNumeral_toString hv0, by omega, hdecimal⟩

theorem shortDigits_renderValues (h : ∀ v ∈ values, isWord v = true) :
    ShortDigits (renderValues values).toList := by
  rw [toList_renderValues]
  refine .intercalate (by decide) fun item hitem => .of_length_le ?_
  obtain ⟨v, hv, rfl⟩ := List.mem_map.mp hitem
  obtain ⟨hv0, hle⟩ := isWord_iff.mp (h v hv)
  have hthree : (digits v.toNat).length ≤ 3 := length_digits_le (by decide) (by omega)
  rw [toList_toString hv0]
  exact hthree.trans (by decide)

/-- Written numbers hold digits and commas. -/
theorem forall_mem_renderValues (h : ∀ v ∈ values, isWord v = true) :
    ∀ c ∈ (renderValues values).toList, isDigit c = true ∨ c = ',' := by
  rw [toList_renderValues]
  refine forall_mem_intercalate (.inr rfl) fun item hitem c hc => ?_
  obtain ⟨v, hv, rfl⟩ := List.mem_map.mp hitem
  exact .inl (isDigit_of_mem_toString (isWord_iff.mp (h v hv)).1 c hc)

end Values

section Limit

variable {limit : Option Int}

theorem isLimit_renderLimit (h : ∀ n ∈ limit, 1 ≤ n) :
    IsLimit (renderLimit limit).toList limit := by
  rcases limit with _ | n
  · exact .blank (by simp [renderLimit, AllBlank])
  · have hn : 1 ≤ n := h n rfl
    have hn0 : 0 ≤ n := by omega
    have hdecimal := decimal_toString hn0
    have hread : IsLimit (toString n).toList (some (decimal (trim (toString n).toList) : Int)) := by
      refine .number ?_ ?_ <;> rw [trim_toString hn0]
      · exact isNumeral_toString hn0
      · omega
    rwa [trim_toString hn0, hdecimal] at hread

theorem shortDigits_renderLimit (h : ∀ n ∈ limit, (toString n).toList.length ≤ maxNumeralLength) :
    ShortDigits (renderLimit limit).toList := by
  refine .of_length_le ?_
  rcases limit with _ | n
  · exact Nat.zero_le _
  · exact h n rfl

/-- A written limit holds digits. -/
theorem forall_mem_renderLimit (h : ∀ n ∈ limit, 1 ≤ n) :
    ∀ c ∈ (renderLimit limit).toList, isDigit c = true := by
  rcases limit with _ | n
  · simp [renderLimit]
  · have hn : 1 ≤ n := h n rfl
    exact isDigit_of_mem_toString (by omega)

end Limit

theorem toList_render {c : Case} :
    c.render.toList = [';'].intercalate (c.fields.map String.toList) := by
  rw [render, String.toList_intercalate]
  rfl

namespace Writable

variable {c : Case} (h : c.Writable)
include h

/-- But for the name, the fields hold digits and commas. -/
theorem forall_mem_fields {P : Char → Prop} (hname : ∀ d ∈ c.name.toList, P d)
    (hdigit : ∀ d, isDigit d = true → P d) (hcomma : P ',') :
    ∀ field ∈ c.fields.map String.toList, ∀ d ∈ field, P d := by
  have hvalues : ∀ {values : List Int}, (∀ v ∈ values, isWord v = true) →
      ∀ d ∈ (renderValues values).toList, P d := by
    intro values hwords d hd
    rcases forall_mem_renderValues hwords d hd with hd | rfl
    · exact hdigit d hd
    · exact hcomma
  have hlimit : ∀ d ∈ (renderLimit c.maxSteps).toList, P d := fun d hd =>
    hdigit d (forall_mem_renderLimit (fun n hn => (h.limit n hn).1) d hd)
  simpa only [fields, List.map_cons, List.map_nil, List.forall_mem_cons, List.not_mem_nil,
    false_imp_iff, implies_true, and_true] using
    ⟨hname, hvalues h.inputs, hvalues h.outputs, hlimit⟩

theorem noSeparator_fields : ∀ field ∈ c.fields.map String.toList, ';' ∉ field := by
  have hplain := h.forall_mem_fields (P := (· ≠ ';')) (fun d hd he => h.noSeparator (he ▸ hd))
    (fun d hd he => absurd (he ▸ hd) (by decide)) (by decide)
  exact fun field hfield hm => hplain field hfield ';' hm rfl

theorem isLine_render : IsLine c.render.toList := by
  rw [toList_render]
  refine forall_mem_intercalate (by decide)
    (h.forall_mem_fields h.isLine (fun d hd => ?_) (by decide))
  refine Bool.eq_false_iff.mpr fun hend => ?_
  exact absurd (isBlank_of_isLineEnd hend) (by simp [isBlank_of_isDigit hd])

theorem isRecord_render : IsRecord c.render.toList c := by
  have hblank : ¬AllBlank c.name.toList := fun hb =>
    h.ne_nil (h.trimmed.symm.trans (trim_of_allBlank hb))
  rw [toList_render]
  refine .mk h.noSeparator_fields hblank ?_ (isList_renderValues h.inputs)
    (isList_renderValues h.outputs) (isLimit_renderLimit fun n hn => (h.limit n hn).1)
  rw [h.trimmed, String.ofList_toList]

theorem shortNumbers_render : ShortNumbers c.render := by
  have hcut : splitOn ';' c.render.toList = c.fields.map String.toList :=
    splitOn_eq_iff.mpr ⟨by simp [fields], h.noSeparator_fields, toList_render⟩
  have hlimit := shortDigits_renderLimit fun n hn => (h.limit n hn).2
  rw [ShortNumbers, hcut]
  simpa only [fields, List.map_cons, List.map_nil, List.tail_cons, List.forall_mem_cons,
    List.not_mem_nil, false_imp_iff, implies_true, and_true] using
    ⟨shortDigits_renderValues h.inputs, shortDigits_renderValues h.outputs, hlimit⟩

/-- What is written starts with the name, so it is no comment. -/
theorem not_skipped_render : ¬Skipped c.render := by
  obtain ⟨first, name, hname⟩ := List.exists_cons_of_ne_nil h.ne_nil
  have hfirst : isBlank first = false :=
    isBlank_head?_trim first (by rw [h.trimmed, hname]; rfl)
  have hword : IsWord [first] := ⟨List.cons_ne_nil _ _, by simpa using hfirst⟩
  obtain ⟨rest, hrest⟩ : ∃ rest, c.render.toList = [first] ++ rest := by
    rw [toList_render, fields, List.map_cons, hname, List.map_cons, List.intercalate_cons_cons]
    exact ⟨_, rfl⟩
  -- so nothing is trimmed off in front of it
  have htrim := trim_append_of_isWord hword rest
  rw [Skipped, ← trim_eq_nil_iff, hrest, htrim]
  rintro (hnil | hcomment)
  · exact absurd hnil (by simp)
  · have hnocomment := h.noComment
    rw [hname] at hnocomment
    exact hnocomment hcomment

end Writable

/-! ### Reading what was written -/

theorem forall₂_records_render (h : ∀ c ∈ cases, c.Writable) (number : Nat) :
    List.Forall₂ (fun r c => IsRecord r.1.toList c ∧ c.line = r.2)
      (records number (cases.map render))
      ((cases.zipIdx number).map fun c => { c.1 with line := c.2 }) := by
  induction cases generalizing number with
  | nil => exact .nil
  | cons c cases ih =>
    obtain ⟨hc, hcases⟩ := List.forall_mem_cons.mp h
    rw [List.map_cons, records_cons hc.not_skipped_render, List.zipIdx_cons, List.map_cons]
    exact .cons ⟨hc.isRecord_render.withLine number, rfl⟩ (ih hcases (number + 1))

/-- Cases that are written one on a line are read back, with the numbers of their lines. -/
theorem parseFile_render (h : ∀ c ∈ cases, c.Writable) :
    parseFile (cases.map render) = .ok (numbered cases) := by
  refine (parseFile_eq_ok_iff fun l hl => ?_).mpr (forall₂_records_render h 1)
  obtain ⟨c, hc, rfl⟩ := List.mem_map.mp hl
  exact (h c hc).shortNumbers_render

/-- The same for the text that the lines make. -/
theorem parseFile_lines_unlines (h : ∀ c ∈ cases, c.Writable) :
    parseFile (Text.lines (unlines (cases.map render))) = .ok (numbered cases) := by
  rcases eq_or_ne cases [] with rfl | hne
  · rw [List.map_nil, lines_unlines_nil]
    rfl
  · rw [lines_unlines (by simpa using hne) fun l hl => ?_, parseFile_render h]
    obtain ⟨c, hc, rfl⟩ := List.mem_map.mp hl
    exact (h c hc).isLine_render

/-- A test file is read exactly. If no digits are too many to be read, it is accepted if every line
is blank, a comment or a record, with one case for each record, and is otherwise refused for its
first other line. Cases that are written one on a line are read back. -/
theorem parseFile_exact :
    (∀ lines : List String, (∀ l ∈ lines, ShortDigits l.toList) →
      ((∃ cases, parseFile lines = .ok cases) ↔ ∀ l ∈ lines, Sound l) ∧
      (∀ cases, parseFile lines = .ok cases ↔
        List.Forall₂ (fun r c => IsRecord r.1.toList c ∧ c.line = r.2) (records 1 lines) cases) ∧
      (¬(∀ l ∈ lines, Sound l) → ∃ before l after defect, lines = before ++ l :: after ∧
        (∀ m ∈ before, Sound m) ∧ ¬Sound l ∧
        parseFile lines = .error (.record defect (before.length + 1)))) ∧
    ∀ cases : List Case, (∀ c ∈ cases, c.Writable) →
      parseFile (cases.map render) = .ok (numbered cases) ∧
        parseFile (Text.lines (unlines (cases.map render))) = .ok (numbered cases) := by
  refine ⟨fun lines hdigits => ?_, fun cases h =>
    ⟨parseFile_render h, parseFile_lines_unlines h⟩⟩
  have hshort : ∀ l ∈ lines, ShortNumbers l := fun l hl =>
    shortNumbers_of_shortDigits (hdigits l hl)
  refine ⟨exists_parseFile_iff hshort, fun cases => parseFile_eq_ok_iff hshort, fun hbad => ?_⟩
  obtain ⟨before, l, after, rfl, hbefore, hl⟩ := exists_first_not (by simpa using hbad)
  obtain ⟨defect, hdefect⟩ := parseFile_bad hshort hbefore hl
  exact ⟨before, l, after, defect, rfl, hbefore, hl, hdefect⟩

/-- A case that adds two numbers. -/
def adding : Case := { name := "add", inputs := [2, 3], outputs := [5], maxSteps := some 100 }

/-- A record with blanks in it under a comment, a second line with an empty item, and a case that is
written and read. -/
theorem parseFile_exact_adding :
    IsRecord " add ; 2 , 3;5; 100".toList { adding with line := 2 } ∧
      (∃ defect, parseFile ["halt;;;", "add;2,,3;5;"] = .error (.record defect 2)) ∧
      parseFile [adding.render] = .ok [{ adding with line := 1 }] := by
  have hshort : ∀ {lines : List String},
      (lines.all fun l => l.toList.length ≤ maxNumeralLength) = true →
        ∀ l ∈ lines, ShortDigits l.toList :=
    fun h l hl => .of_length_le (by simpa using List.all_eq_true.mp h l hl)
  refine ⟨?_, ?_, ?_⟩
  · have hread : parseFile ["# adds", " add ; 2 , 3;5; 100"] = .ok [{ adding with line := 2 }] :=
      eq_ok_of_toOption (by decide +kernel)
    have hrecords := ((parseFile_exact.1 _ (hshort (by decide))).2.1 _).mp hread
    rw [records_cons_of_skipped (by decide), records_cons (by decide)] at hrecords
    exact (List.forall₂_cons.mp hrecords).1.1
  · have hfirst : Sound "halt;;;" := (parseFile_exact.1 ["halt;;;"] (hshort (by decide))).1.mp
      (exists_of_isOk (by decide +kernel)) _ (by simp)
    obtain ⟨hok, -, hbad⟩ := parseFile_exact.1 ["halt;;;", "add;2,,3;5;"] (hshort (by decide))
    have hrefused : ¬∃ cases, parseFile ["halt;;;", "add;2,,3;5;"] = .ok cases := by
      rintro ⟨cases, hcases⟩
      have hno : (parseFile ["halt;;;", "add;2,,3;5;"]).isOk = false := by decide +kernel
      rw [hcases] at hno
      exact absurd hno (by simp [Except.isOk, Except.toBool])
    obtain ⟨before, l, after, defect, hlines, -, hl, hdefect⟩ := hbad (mt hok.mpr hrefused)
    rcases before with _ | ⟨m, _ | ⟨m', before⟩⟩
    · obtain rfl := (List.cons.inj hlines).1
      exact absurd hfirst hl
    · exact ⟨defect, hdefect⟩
    · exact absurd (congrArg List.length hlines) (by simp)
  · refine (parseFile_exact.2 [adding] fun c hc => ?_).1
    obtain rfl := List.mem_singleton.mp hc
    exact ⟨by decide, by decide, isLine_of_all (by decide), by decide, by decide, by decide,
      by decide, by decide⟩

end Case

end LittleMan
