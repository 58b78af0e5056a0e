/-
A record of a test case is read exactly.

The grammar is that of the line as it stands: four fields between semicolons, lists of numbers
between commas, and blanks around any of them. What is read of a line is related to it part by part.

* `IsRecord`: a line is the record of a case; `IsList` and `IsLimit` are parts of it;
* `Exactly`: what is read is just what the grammar says, and what is refused is blamed on the line;
  `Exactly.bind` and `Exactly.mapM` put parts together;
* `parse_exactly`: so is the record of a case, if no digits in its numbers are too many to be read.
-/
import LittleMan.Grading.Case
import LittleMan.Proofs.Results
import LittleMan.Proofs.Text.Pieces
namespace LittleMan

open Text

namespace Case

/-! ### The grammar -/

/-- A number up to 999. -/
structure IsValue (cs : List Char) (v : Int) : Prop where
  numeral : isNumeral cs = true
  le : decimal cs ≤ 999
  value : (decimal cs : Int) = v

/-- A list of numbers: nothing but blanks, or numbers between commas, each with blanks around. -/
inductive IsList : List Char → List Int → Prop where
  | blank {cs : List Char} (h : AllBlank cs) : IsList cs []
  | items {items : List (List Char)} {values : List Int} (hne : items ≠ [])
      (hcommas : ∀ item ∈ items, ',' ∉ item) (h : List.Forall₂ IsValue (items.map trim) values) :
      IsList ([','].intercalate items) values

/-- A limit: nothing but blanks, or a number from 1 on. -/
inductive IsLimit : List Char → Option Int → Prop where
  | blank {cs : List Char} (h : AllBlank cs) : IsLimit cs none
  | number {cs : List Char} (hnumeral : isNumeral (trim cs) = true) (hpos : 1 ≤ decimal (trim cs)) :
      IsLimit cs (some (decimal (trim cs)))

/-- A line is the record of a case, but for where the line stands. -/
inductive IsRecord : List Char → Case → Prop where
  | mk {name inputs outputs limit : List Char} {c : Case}
      (hfields : ∀ field ∈ [name, inputs, outputs, limit], ';' ∉ field)
      (hblank : ¬AllBlank name) (hname : c.name = String.ofList (trim name))
      (hinputs : IsList inputs c.inputs) (houtputs : IsList outputs c.outputs)
      (hlimit : IsLimit limit c.maxSteps) :
      IsRecord ([';'].intercalate [name, inputs, outputs, limit]) c

/-! ### Reading what the grammar says -/

/-- What is read is what there is by `P`, and what is refused is blamed on the line. -/
structure Exactly {α : Type} (line : Int) (P : α → Prop) (x : Except CaseError α) : Prop where
  ok_iff : ∀ a, x = .ok a ↔ P a
  blamed : ∀ e, x = .error e → ∃ defect, e = .record defect line

namespace Exactly

variable {α β : Type} {line : Int} {P P' : α → Prop} {Q : α → β → Prop} {x : Except CaseError α}

theorem ok (a : α) : Exactly line (a = ·) (.ok a) where
  ok_iff _ := by rw [Except.ok.injEq]
  blamed _ h := absurd h (by simp)

theorem refused {defect : CaseDefect} (h : ∀ a, ¬P a) :
    Exactly line P (.error (.record defect line)) where
  ok_iff a := iff_of_false (by simp) (h a)
  blamed _ he := ⟨defect, (Except.error.inj he).symm⟩

theorem congr (h : Exactly line P x) (hP : ∀ a, P a ↔ P' a) : Exactly line P' x where
  ok_iff a := (h.ok_iff a).trans (hP a)
  blamed := h.blamed

theorem bind {f : α → Except CaseError β} (hx : Exactly line P x)
    (hf : ∀ a, P a → Exactly line (Q a) (f a)) :
    Exactly line (fun b => ∃ a, P a ∧ Q a b) (x >>= f) where
  ok_iff b := by
    rw [bind_eq_ok_iff]
    refine exists_congr fun a => ?_
    rw [hx.ok_iff]
    exact and_congr_right fun ha => (hf a ha).ok_iff b
  blamed e he := by
    cases hread : x with
    | error e' =>
      rw [hread] at he
      obtain rfl := Except.error.inj he
      exact hx.blamed _ hread
    | ok a =>
      rw [hread] at he
      exact (hf a ((hx.ok_iff a).mp hread)).blamed e he

/-- Where there is nothing to be read, the line is blamed. -/
theorem exists_defect (hx : Exactly line P x) (h : ∀ a, ¬P a) :
    ∃ defect, x = .error (.record defect line) := by
  cases hread : x with
  | error e =>
    obtain ⟨defect, rfl⟩ := hx.blamed e hread
    exact ⟨defect, rfl⟩
  | ok a => exact absurd ((hx.ok_iff a).mp hread) (h a)

/-- A check in front of a part that what is read of it would have passed. -/
theorem check {p : Prop} [Decidable p] {defect : CaseDefect} {f : Unit → Except CaseError α}
    (hp : p → ∀ a, ¬P a) (hf : ¬p → Exactly line P (f ())) :
    Exactly line P (if p then throw (.record defect line) >>= f else f ()) := by
  by_cases h : p
  · rw [if_pos h]
    exact refused (hp h)
  · rw [if_neg h]
    exact hf h

theorem mapM {f : α → Except CaseError β} {l : List α} (h : ∀ a ∈ l, Exactly line (Q a) (f a)) :
    Exactly line (List.Forall₂ Q l) (l.mapM f) where
  ok_iff _ := mapM_eq_ok_iff_of_forall fun a ha => (h a ha).ok_iff
  blamed e he := by
    obtain ⟨before, a, after, rfl, -, ha⟩ := mapM_eq_error_iff.mp he
    exact (h a (by simp)).blamed e ha

end Exactly

/-! ### The parts of a record -/

variable {line : Int} {cs : List Char}

theorem readNumber_exactly (line : Int) (defect : String → CaseDefect) (hshort : ShortDigits cs) :
    Exactly line (fun n => isNumeral cs = true ∧ decimal cs = n) (readNumber defect line cs) := by
  rw [readNumber]
  by_cases h : isNumeral cs = true
  · rw [if_pos h, hshort.readNumeral_eq h]
    exact (Exactly.ok (decimal cs)).congr fun n => by simp [h]
  · rw [if_neg h]
    exact .refused fun n hn => h hn.1

theorem parseValue_exactly (what : String) (hshort : ShortDigits cs) :
    Exactly line (IsValue (trim cs)) (parseValue what line cs) := by
  have hnumber := readNumber_exactly line (.valueNotANumber what)
    (hshort.of_isInfix (isInfix_trim cs))
  rw [parseValue]
  refine (hnumber.bind (Q := fun (n : Nat) (v : Int) => n ≤ 999 ∧ (n : Int) = v)
    fun n _ => ?_).congr fun v => ?_
  · refine .check (fun hlarge v hv => ?_) fun hle => ?_
    · omega
    · exact (Exactly.ok (n : Int)).congr fun _ =>
        (and_iff_right (Nat.le_of_not_lt hle)).symm
  · constructor
    · rintro ⟨_, ⟨hnumeral, rfl⟩, hle, rfl⟩
      exact ⟨hnumeral, hle, rfl⟩
    · rintro ⟨hnumeral, hle, rfl⟩
      exact ⟨_, ⟨hnumeral, rfl⟩, hle, rfl⟩

theorem isList_iff {values : List Int} : IsList cs values ↔
    (AllBlank cs ∧ values = []) ∨ List.Forall₂ IsValue ((splitOn ',' cs).map trim) values := by
  constructor
  · rintro (h | ⟨hne, hcommas, h⟩)
    · exact .inl ⟨h, rfl⟩
    · rw [splitOn_eq_iff.mpr ⟨hne, hcommas, rfl⟩]
      exact .inr h
  · rintro (⟨h, rfl⟩ | h)
    · exact .blank h
    · obtain ⟨hne, hcommas, hjoin⟩ := splitOn_eq_iff.mp (Eq.refl (splitOn ',' cs))
      rw [hjoin]
      exact .items hne hcommas h

/-- Nothing but blanks is no list of items. -/
theorem not_forall₂_of_allBlank (h : AllBlank cs) {values : List Int} :
    ¬List.Forall₂ IsValue ((splitOn ',' cs).map trim) values := by
  intro hvalues
  rw [← map_trim_splitOn_trim (by decide), trim_of_allBlank h] at hvalues
  cases hvalues with
  | cons hvalue _ => exact absurd hvalue.numeral (by decide)

theorem parseValues_exactly (what : String) (hshort : ShortDigits cs) :
    Exactly line (IsList cs) (parseValues what line cs) := by
  rw [parseValues]
  by_cases hblank : AllBlank cs
  · rw [if_pos (isEmpty_trim_iff.mpr hblank)]
    refine (Exactly.ok []).congr fun values => ?_
    rw [isList_iff, or_iff_left (not_forall₂_of_allBlank hblank), and_iff_right hblank, eq_comm]
  · rw [if_neg (mt isEmpty_trim_iff.mp hblank)]
    have hitems : ∀ item ∈ splitOn ',' (trim cs), ShortDigits item := fun item hitem =>
      hshort.of_isInfix ((isInfix_of_mem_splitOn hitem).trans (isInfix_trim cs))
    refine (Exactly.mapM fun item hitem => parseValue_exactly what (hitems item hitem)).congr
      fun values => ?_
    rw [isList_iff, or_iff_right (fun h => hblank h.1), ← map_trim_splitOn_trim (by decide),
      List.forall₂_map_left_iff]

theorem parseLimit_exactly (hshort : ShortDigits cs) :
    Exactly line (IsLimit cs) (parseLimit line (trim cs)) := by
  rw [parseLimit]
  by_cases hblank : AllBlank cs
  · rw [if_pos (isEmpty_trim_iff.mpr hblank)]
    refine (Exactly.ok none).congr fun limit => ?_
    constructor
    · rintro rfl
      exact .blank hblank
    · rintro (_ | ⟨hnumeral, -⟩)
      · rfl
      · rw [trim_of_allBlank hblank] at hnumeral
        exact absurd hnumeral (by decide)
  · rw [if_neg (mt isEmpty_trim_iff.mp hblank)]
    have hnumber := readNumber_exactly line .limitNotANumber
      (hshort.of_isInfix (isInfix_trim cs))
    refine (hnumber.bind (Q := fun (n : Nat) (limit : Option Int) => 1 ≤ n ∧ some (n : Int) = limit)
      fun n _ => ?_).congr fun limit => ?_
    · refine .check (fun hzero limit h => ?_) fun hpos => ?_
      · omega
      · exact (Exactly.ok (some (n : Int))).congr fun _ =>
          (and_iff_right (Nat.pos_of_ne_zero hpos)).symm
    · constructor
      · rintro ⟨_, ⟨hnumeral, rfl⟩, hpos, rfl⟩
        exact .number hnumeral hpos
      · rintro (h | ⟨hnumeral, hpos⟩)
        · exact absurd h hblank
        · exact ⟨_, ⟨hnumeral, rfl⟩, hpos, rfl⟩

/-! ### A record -/

theorem exists_four {α : Type} {l : List α} (h : l.length = 4) : ∃ a b c d, l = [a, b, c, d] :=
  match l, h with
  | [a, b, c, d], _ => ⟨a, b, c, d, rfl⟩

/-- A record is told by its trimmed fields. -/
theorem parse_congr {s t : String}
    (h : (splitOn ';' s.toList).map trim = (splitOn ';' t.toList).map trim) :
    parse s line = parse t line := by
  have hvalues : ∀ what cs, parseValues what line (trim cs) = parseValues what line cs :=
    fun what cs => by rw [parseValues, parseValues, trim_trim]
  have hlength := congrArg List.length h
  rw [List.length_map, List.length_map] at hlength
  rw [parse, parse]
  generalize splitOn ';' s.toList = fields at h hlength ⊢
  generalize splitOn ';' t.toList = fields' at h hlength ⊢
  by_cases hfour : fields.length = 4
  · obtain ⟨name, inputs, outputs, limit, rfl⟩ := exists_four hfour
    obtain ⟨name', inputs', outputs', limit', rfl⟩ := exists_four (hlength.symm.trans hfour)
    simp only [List.map_cons, List.map_nil, List.cons.injEq, and_true] at h
    obtain ⟨hname, hinputs, houtputs, hlimit⟩ := h
    -- name and limit stand trimmed in `parse`; a list is trimmed by its own reader
    simp only [← hvalues _ inputs, ← hvalues _ outputs, hname, hinputs, houtputs, hlimit]
    simp only [hvalues]
  · have hother : ∀ {l : List (List Char)}, l.length ≠ 4 → ∀ a b c d, l = [a, b, c, d] → False :=
      fun hl a b c d h => hl (by rw [h]; rfl)
    split
    · exact absurd rfl hfour
    · split
      · exact absurd hlength hfour
      · rw [hlength]

/-- Blanks around a record make no difference. -/
theorem parse_trim (text : String) :
    parse (String.ofList (trim text.toList)) line = parse text line :=
  parse_congr (by rw [String.toList_ofList, map_trim_splitOn_trim (by decide)])

theorem isRecord_iff {c : Case} : IsRecord cs c ↔ ∃ name inputs outputs limit,
    splitOn ';' cs = [name, inputs, outputs, limit] ∧ ¬AllBlank name ∧
      c.name = String.ofList (trim name) ∧ IsList inputs c.inputs ∧ IsList outputs c.outputs ∧
      IsLimit limit c.maxSteps := by
  constructor
  · rintro ⟨hfields, hblank, hname, hinputs, houtputs, hlimit⟩
    exact ⟨_, _, _, _, splitOn_eq_iff.mpr ⟨List.cons_ne_nil _ _, hfields, rfl⟩, hblank, hname,
      hinputs, houtputs, hlimit⟩
  · rintro ⟨name, inputs, outputs, limit, hcut, hblank, hname, hinputs, houtputs, hlimit⟩
    obtain ⟨-, hfields, rfl⟩ := splitOn_eq_iff.mp hcut
    exact .mk hfields hblank hname hinputs houtputs hlimit

/-- A record is read exactly, if the digits of its numbers are not too many. -/
theorem parse_exactly {text : String}
    (hshort : ∀ field ∈ (splitOn ';' text.toList).tail, ShortDigits field) :
    Exactly line (fun c => IsRecord text.toList c ∧ c.line = line) (parse text line) := by
  simp only [isRecord_iff]
  rw [parse]
  generalize splitOn ';' text.toList = fields at hshort ⊢
  split
  · next name inputs outputs limit =>
    simp only [List.tail_cons, List.forall_mem_cons] at hshort
    obtain ⟨hinputs, houtputs, hlimit, -⟩ := hshort
    refine .check (fun hempty c h => ?_) fun hempty => ?_
    · obtain ⟨⟨name', _, _, _, hcut, hblank, -⟩, -⟩ := h
      obtain rfl := (List.cons.inj hcut).1
      exact hblank (isEmpty_trim_iff.mp hempty)
    · have hblank : ¬AllBlank name := mt isEmpty_trim_iff.mpr hempty
      -- the limit is read before the lists
      refine ((parseLimit_exactly hlimit).bind fun _ _ =>
        (parseValues_exactly "input" hinputs).bind fun _ _ =>
        (parseValues_exactly "output" houtputs).bind fun _ _ => .ok _).congr fun c => ?_
      constructor
      · rintro ⟨maxSteps, hmax, ins, hin, outs, hout, rfl⟩
        exact ⟨⟨name, inputs, outputs, limit, rfl, hblank, rfl, hin, hout, hmax⟩, rfl⟩
      · rintro ⟨⟨_, _, _, _, hcut, -, hname, hin, hout, hmax⟩, hline⟩
        obtain ⟨rfl, rfl, rfl, rfl⟩ := by simpa using hcut
        exact ⟨_, hmax, _, hin, _, hout, by rw [← hname, ← hline]⟩
  · next fields hfields =>
    refine .refused fun c h => ?_
    obtain ⟨⟨name, inputs, outputs, limit, hcut, -⟩, -⟩ := h
    exact hfields _ _ _ _ hcut

end Case

end LittleMan
