/-
The first pass, as a statement about the lines of code of a source.

* `codeLines`: the lines of code, each with its number; `codeLines_eq_map`: taken from the lines of
  the source;
* `Draft.ofStatements`: the draft that statements make, its tag table read off from them;
* `Draft.survey_eq_ok_iff`: the first pass succeeds exactly when the first hundred lines of code can
  be read and no two of them carry the same tag, and then its draft is that of those statements.
-/
import LittleMan.Program
import LittleMan.Proofs.Parsing
import Mathlib.Data.List.Forall2
import Mathlib.Data.List.Nodup
namespace LittleMan

open Text

/-- The lines of code, without their terminators, each with its number; lines are numbered from a
given number on. -/
def codeLines (number : Nat) (lines : List String) : List (String × Nat) :=
  ((lines.map Statement.stripNewline).zipIdx number).filter fun l => Statement.isCode l.1

theorem codeLines_nil (number : Nat) : codeLines number [] = [] := rfl

theorem codeLines_cons_of_code {raw : String} (h : Statement.isCode (Statement.stripNewline raw))
    (number : Nat) (rest : List String) :
    codeLines number (raw :: rest) =
      (Statement.stripNewline raw, number) :: codeLines (number + 1) rest := by
  rw [codeLines, List.map_cons, List.zipIdx_cons, List.filter_cons, if_pos h, codeLines]

theorem codeLines_cons_of_blank {raw : String}
    (h : Statement.isCode (Statement.stripNewline raw) = false) (number : Nat)
    (rest : List String) : codeLines number (raw :: rest) = codeLines (number + 1) rest := by
  rw [codeLines, List.map_cons, List.zipIdx_cons, List.filter_cons_of_neg (by simp [h]), codeLines]

/-- Terminators play no part in which lines hold code. -/
theorem codeLines_eq_map (number : Nat) (lines : List String) :
    codeLines number lines =
      ((lines.zipIdx number).filter fun l => Statement.isCode l.1).map fun l =>
        (Statement.stripNewline l.1, l.2) := by
  have hcode : ∀ l ∈ lines.zipIdx number,
      ((fun l : String × Nat => Statement.isCode l.1) ∘ Prod.map Statement.stripNewline id) l =
        Statement.isCode l.1 := by
    intro l _
    rw [Function.comp_apply, Prod.map_fst, Statement.isCode_stripNewline]
  rw [codeLines, List.zipIdx_map, List.filter_map, List.filter_congr hcode]
  rfl

theorem map_fst_codeLines (number : Nat) (lines : List String) :
    (codeLines number lines).map Prod.fst =
      (lines.filter Statement.isCode).map Statement.stripNewline := by
  have hlines : ((lines.zipIdx number).filter fun l => Statement.isCode l.1).map Prod.fst =
      lines.filter Statement.isCode := by
    conv_rhs => rw [← List.zipIdx_map_fst number lines, List.filter_map]
    rfl
  rw [codeLines_eq_map, List.map_map, ← hlines, List.map_map]
  rfl

/-- In lines without terminators there is nothing to strip. -/
theorem codeLines_of_isLine {lines : List String} (hl : ∀ l ∈ lines, IsLine l.toList)
    (number : Nat) :
    codeLines number lines = (lines.zipIdx number).filter fun l => Statement.isCode l.1 := by
  have hmap : lines.map Statement.stripNewline = lines := by
    conv_rhs => rw [← List.map_id lines]
    exact List.map_congr_left fun l hm => Statement.stripNewline_of_isLine (hl l hm)
  rw [codeLines, hmap]

/-- A number has one line. -/
theorem eq_of_mem_zipIdx {l l' : String} {lines : List String} {n : Nat}
    (h : (l, n) ∈ lines.zipIdx 1) (h' : (l', n) ∈ lines.zipIdx 1) : l = l' := by
  obtain ⟨-, hget⟩ := List.mk_mem_zipIdx_iff_le_and_getElem?_sub.mp h
  obtain ⟨-, hget'⟩ := List.mk_mem_zipIdx_iff_le_and_getElem?_sub.mp h'
  exact Option.some_inj.mp (hget.symm.trans hget')

/-- A numbered line is read as a statement. -/
def Statement.Reads (filename : String) (l : String × Nat) (s : Statement) : Prop :=
  Statement.parse l.1 l.2 filename = .ok (some s)

/-! ### Numbers of lines -/

theorem pairwise_number_codeLines (number : Nat) (lines : List String) :
    ((codeLines number lines).map Prod.snd).Pairwise (· < ·) := by
  have hsub : ((codeLines number lines).map Prod.snd).Sublist
      (((lines.map Statement.stripNewline).zipIdx number).map Prod.snd) :=
    List.filter_sublist.map Prod.snd
  rw [List.zipIdx_map_snd] at hsub
  exact (List.pairwise_lt_range').sublist hsub

theorem map_line_of_reads {filename : String} {ls : List (String × Nat)} {ss : List Statement}
    (h : List.Forall₂ (Statement.Reads filename) ls ss) :
    ss.map (·.location.line) = ls.map fun l => (l.2 : Int) := by
  induction h with
  | nil => rfl
  | cons hs _ ih => rw [List.map_cons, List.map_cons, ih, (Statement.location_of_parse hs).2]

theorem pairwise_line_of_reads {filename : String} {lines : List String} {ss : List Statement}
    (h : List.Forall₂ (Statement.Reads filename) ((codeLines 1 lines).take 100) ss) :
    (ss.map (·.location.line)).Pairwise (· < ·) := by
  rw [map_line_of_reads h, List.pairwise_map]
  have hp := List.pairwise_map.mp (pairwise_number_codeLines 1 lines)
  exact (hp.sublist (List.take_sublist 100 _)).imp fun hlt => Int.ofNat_lt.mpr hlt

/-! ### Tag tables -/

namespace TagTable

theorem address?_eq_none_iff {t : TagTable} {name : String} :
    t.address? name = none ↔ name ∉ t.names := by
  rw [address?, List.lookup_eq_none_iff, names, List.mem_map]
  constructor
  · rintro h ⟨e, he, rfl⟩
    exact absurd (h e he) (by simp)
  · intro h e he
    rw [bne_iff_ne]
    rintro rfl
    exact h ⟨e, he, rfl⟩

/-- Entries of other names stay where they are. -/
theorem go_append_of_forall_ne {name : String} {front : List (String × Int)}
    (h : ∀ e ∈ front, e.1 ≠ name) (address : Int) (rest : List (String × Int)) :
    insert.go name address (front ++ rest) = front ++ insert.go name address rest := by
  induction front with
  | nil => rfl
  | cons e front ih =>
    obtain ⟨hne, hfront⟩ := List.forall_mem_cons.mp h
    rw [List.cons_append, insert.go, if_neg hne, ih hfront, List.cons_append]

theorem ne_of_not_mem_names {t : TagTable} {name : String} (h : name ∉ t.names) :
    ∀ e ∈ t.entries, e.1 ≠ name := by
  rintro e he rfl
  exact h (List.mem_map_of_mem he)

/-- A new name goes to the end of the table. -/
theorem insert_of_not_mem {t : TagTable} {name : String} (h : name ∉ t.names) (address : Int) :
    t.insert name address = ⟨t.entries ++ [(name, address)]⟩ := by
  have hend := go_append_of_forall_ne (ne_of_not_mem_names h) address []
  rw [List.append_nil] at hend
  rw [insert, hend]
  rfl

end TagTable

/-! ### Drafts -/

namespace Draft

/-- The tags of statements with the addresses of the statements, counted from a given one. -/
def tagEntries (address : Nat) (statements : List Statement) : List (String × Int) :=
  (statements.zipIdx address).filterMap fun (s, a) => s.tag.map fun t => (t, (a : Int))

/-- The tags of statements, in order. -/
def tagsOf (statements : List Statement) : List String := statements.filterMap Statement.tag

/-- The draft that statements make. -/
def ofStatements (statements : List Statement) (dropped : Option Nat) : Draft :=
  { statements, tags := ⟨tagEntries 0 statements⟩, dropped }

theorem tagEntries_append (address : Nat) (ss rest : List Statement) :
    tagEntries address (ss ++ rest) =
      tagEntries address ss ++ tagEntries (address + ss.length) rest := by
  rw [tagEntries, List.zipIdx_append, List.filterMap_append]
  rfl

theorem map_fst_tagEntries (address : Nat) (ss : List Statement) :
    (tagEntries address ss).map Prod.fst = tagsOf ss := by
  induction ss generalizing address with
  | nil => rfl
  | cons s ss ih =>
    have hi := ih (address + 1)
    rw [tagEntries] at hi ⊢
    rw [List.zipIdx_cons, tagsOf]
    cases ht : s.tag with
    | none => rw [List.filterMap_cons_none (by simp [ht]), List.filterMap_cons_none ht, hi, tagsOf]
    | some t =>
      rw [List.filterMap_cons_some (b := (t, (address : Int))) (by simp [ht]),
        List.filterMap_cons_some ht, List.map_cons, hi, tagsOf]

theorem names_ofStatements (ss : List Statement) (dropped : Option Nat) :
    (ofStatements ss dropped).tags.names = tagsOf ss := map_fst_tagEntries 0 ss

/-- Adding a statement to a draft is refused only because of its tag. -/
theorem add_eq_ok_iff {ss : List Statement} {dropped : Option Nat} {s : Statement} {d : Draft} :
    (ofStatements ss dropped).add s = .ok d ↔
      (∀ t ∈ s.tag, t ∉ tagsOf ss) ∧ d = ofStatements (ss ++ [s]) dropped := by
  have hnames := names_ofStatements ss dropped
  have hmore : tagEntries 0 (ss ++ [s]) =
      tagEntries 0 ss ++ (s.tag.map fun t => (t, (ss.length : Int))).toList := by
    rw [tagEntries_append, Nat.zero_add]
    cases ht : s.tag <;> simp [tagEntries, ht]
  rw [add]
  cases ht : s.tag with
  | none =>
    rw [ht] at hmore
    simp only [Except.ok.injEq, Option.mem_def, reduceCtorEq, false_imp_iff, implies_true, true_and]
    rw [ofStatements, ofStatements, hmore]
    simp [eq_comm]
  | some t =>
    rw [ht] at hmore
    -- the table knows just the tags of the statements, so it decides what they do
    by_cases hm : t ∈ tagsOf ss
    · obtain ⟨a, ha⟩ : ∃ a, (ofStatements ss dropped).tags.address? t = some a := by
        rw [← Option.ne_none_iff_exists', Ne, TagTable.address?_eq_none_iff, hnames]
        exact not_not.mpr hm
      simp only [ha]
      simp [hm]
    · have ha : (ofStatements ss dropped).tags.address? t = none := by
        rw [TagTable.address?_eq_none_iff, hnames]
        exact hm
      have hi := TagTable.insert_of_not_mem (hnames ▸ hm) (ss.length : Int)
      simp only [ha, Except.ok.injEq]
      rw [show (ofStatements ss dropped).statements = ss from rfl, hi]
      rw [ofStatements, ofStatements, hmore]
      simp [eq_comm, hm]

theorem nodup_tagsOf_snoc {ss : List Statement} {s : Statement} :
    (tagsOf (ss ++ [s])).Nodup ↔ (tagsOf ss).Nodup ∧ ∀ t ∈ s.tag, t ∉ tagsOf ss := by
  rw [tagsOf, List.filterMap_append, List.nodup_append]
  constructor
  · rintro ⟨h, _, hd⟩
    exact ⟨h, fun t ht hm => hd t hm t (by simpa using ht) rfl⟩
  · rintro ⟨h, hd⟩
    refine ⟨h, ?_, ?_⟩
    · cases ht : s.tag <;> simp [ht]
    · rintro t hm u hu rfl
      exact hd t (by simpa using hu) hm

/-! ### The pass over the lines -/

theorem surveyFrom_blank {raw : String}
    (h : Statement.isCode (Statement.stripNewline raw) = false) (filename : String) (number : Nat)
    (rest : List String) (d : Draft) :
    surveyFrom filename number (raw :: rest) d = surveyFrom filename (number + 1) rest d := by
  rw [surveyFrom]
  simp [h]

theorem surveyFrom_full {raw : String} (h : Statement.isCode (Statement.stripNewline raw))
    (filename : String) (number : Nat) (rest : List String) {d : Draft}
    (hd : 100 ≤ d.statements.length) :
    surveyFrom filename number (raw :: rest) d = .ok { d with dropped := some number } := by
  rw [surveyFrom]
  simp only [h, Bool.not_true, Bool.false_eq_true, if_false]
  exact if_pos hd

/-- A line of code for which there is room: it is read, and its statement added. -/
theorem surveyFrom_room {raw : String} (h : Statement.isCode (Statement.stripNewline raw))
    (filename : String) (number : Nat) (rest : List String) {ss : List Statement}
    (hss : ss.length < 100) (d : Draft) :
    surveyFrom filename number (raw :: rest) (ofStatements ss none) = .ok d ↔
      ∃ s, Statement.Reads filename (Statement.stripNewline raw, number) s ∧
        (∀ t ∈ s.tag, t ∉ tagsOf ss) ∧
        surveyFrom filename (number + 1) rest (ofStatements (ss ++ [s]) none) = .ok d := by
  have hroom : ¬(ofStatements ss none).statements.length ≥ 100 := Nat.not_le.mpr hss
  rw [surveyFrom]
  simp only [h, Bool.not_true, Bool.false_eq_true, if_false, if_neg hroom, Statement.Reads]
  cases hp : Statement.parse (Statement.stripNewline raw) number filename with
  | error e => simp
  | ok o =>
    cases o with
    | none =>
      rw [Statement.parse_eq_none_iff, h] at hp
      exact absurd hp (by simp)
    | some s =>
      simp only [Except.ok.injEq, Option.some.injEq, exists_eq_left']
      cases ha : (ofStatements ss none).add s with
      | error e =>
        simp only [reduceCtorEq, false_iff, not_and]
        intro ht _
        exact absurd (ha.symm.trans (add_eq_ok_iff.mpr ⟨ht, rfl⟩)) (by simp)
      | ok next =>
        obtain ⟨ht, rfl⟩ := add_eq_ok_iff.mp ha
        exact (and_iff_right ht).symm

/-- The first pass from some draft on: as many lines of code are read as there is room for. -/
theorem surveyFrom_eq_ok_iff (filename : String) (lines : List String) (d : Draft) :
    ∀ (number : Nat) (ss : List Statement), ss.length ≤ 100 → (tagsOf ss).Nodup →
      (surveyFrom filename number lines (ofStatements ss none) = .ok d ↔
        ∃ more, List.Forall₂ (Statement.Reads filename)
            ((codeLines number lines).take (100 - ss.length)) more ∧
          (tagsOf (ss ++ more)).Nodup ∧
          d = ofStatements (ss ++ more)
            (((codeLines number lines).drop (100 - ss.length)).head?.map Prod.snd)) := by
  induction lines with
  | nil =>
    intro number ss _ hnd
    rw [surveyFrom, codeLines_nil]
    simp [hnd, eq_comm]
  | cons raw rest ih =>
    intro number ss hfit hnd
    cases hcode : Statement.isCode (Statement.stripNewline raw) with
    | false =>
      rw [surveyFrom_blank hcode, codeLines_cons_of_blank hcode]
      exact ih (number + 1) ss hfit hnd
    | true =>
      rw [codeLines_cons_of_code hcode]
      rcases Nat.lt_or_ge ss.length 100 with hlt | hge
      · -- there is room: one statement more, and one line less to take
        obtain ⟨k, hk⟩ : ∃ k, 100 - ss.length = k + 1 := ⟨99 - ss.length, by omega⟩
        have hk' : ∀ s : Statement, 100 - (ss ++ [s]).length = k := by
          intro s
          rw [List.length_append, List.length_singleton]
          omega
        rw [surveyFrom_room hcode filename number rest hlt, hk, List.take_succ_cons,
          List.drop_succ_cons]
        constructor
        · rintro ⟨s, hs, ht, hd⟩
          rw [ih (number + 1) (ss ++ [s]) (by simp; omega) (nodup_tagsOf_snoc.mpr ⟨hnd, ht⟩),
            hk' s] at hd
          obtain ⟨more, hread, hnd', rfl⟩ := hd
          rw [List.append_assoc, List.singleton_append] at hnd' ⊢
          exact ⟨s :: more, .cons hs hread, hnd', rfl⟩
        · rintro ⟨_, hall, hnd', hd⟩
          obtain ⟨s, more, hs, hread, rfl⟩ := List.forall₂_cons_left_iff.mp hall
          rw [← List.singleton_append, ← List.append_assoc] at hnd' hd
          have hnd1 : (tagsOf (ss ++ [s])).Nodup := by
            rw [tagsOf, List.filterMap_append] at hnd'
            exact (List.nodup_append.mp hnd').1
          refine ⟨s, hs, (nodup_tagsOf_snoc.mp hnd1).2, ?_⟩
          rw [ih (number + 1) (ss ++ [s]) (by simp; omega) hnd1, hk' s]
          exact ⟨more, hread, hnd', hd⟩
      · -- memory is full: the pass ends here, whatever comes after
        rw [surveyFrom_full hcode filename number rest hge, show 100 - ss.length = 0 by omega]
        simp only [List.take_zero, List.drop_zero, List.forall₂_nil_left_iff, exists_eq_left,
          List.append_nil, Except.ok.injEq]
        simp [hnd, ofStatements, eq_comm]

/-- The first pass over a whole source. -/
theorem survey_eq_ok_iff {filename : String} {lines : List String} {d : Draft} :
    survey filename lines = .ok d ↔
      ∃ ss, List.Forall₂ (Statement.Reads filename) ((codeLines 1 lines).take 100) ss ∧
        (tagsOf ss).Nodup ∧
        d = ofStatements ss (((codeLines 1 lines).drop 100).head?.map Prod.snd) :=
  surveyFrom_eq_ok_iff filename lines d 1 [] (Nat.zero_le 100) List.nodup_nil

end Draft

end LittleMan
