/-
Lines written one under the other are read back as they were.

* `splitLines_flatMap`: lines, each ended by a line feed, split into those lines;
* `lines_unlines`: the same for a text;
* `isLine_of_mem_lines`: a line that was split off holds no terminator;
* `keptLines`: the lines of a text, each with its terminator; but for the terminators they are its
  lines (`forall₂_splitKept`).
-/
import LittleMan.Text.Blank
import LittleMan.Text.Lines
import Mathlib.Data.List.Forall2
namespace LittleMan.Text

/-- A text without a terminator of lines. -/
def IsLine (cs : List Char) : Prop := ∀ c ∈ cs, isLineEnd c = false

/-- Lines as one text, each ended by a line feed; no lines at all make one empty line. -/
def unlines (ls : List String) : String := "\n".intercalate ls ++ "\n"

theorem isLine_of_all {cs : List Char} (h : cs.all (!isLineEnd ·) = true) : IsLine cs :=
  fun c hc => Bool.not_eq_true' _ ▸ List.all_eq_true.mp h c hc

theorem isBlank_of_isLineEnd {c : Char} (h : isLineEnd c = true) : isBlank c = true := by
  simp only [isLineEnd, isBlank, Bool.or_eq_true, Bool.and_eq_true, decide_eq_true_eq,
    beq_iff_eq] at h ⊢
  omega

theorem IsLine.append {cs ds : List Char} (hc : IsLine cs) (hd : IsLine ds) :
    IsLine (cs ++ ds) := by
  intro c h
  rcases List.mem_append.mp h with h | h
  · exact hc c h
  · exact hd c h

theorem IsLine.sublist {cs ds : List Char} (h : IsLine ds) (hs : cs.Sublist ds) : IsLine cs :=
  fun c hc => h c (hs.subset hc)

theorem IsLine.of_not_blank {cs : List Char} (h : ∀ c ∈ cs, isBlank c = false) : IsLine cs := by
  intro c hc
  refine Bool.eq_false_iff.mpr fun hl => ?_
  exact absurd (isBlank_of_isLineEnd hl) (by simp [h c hc])

theorem splitLines_newline (rest : List Char) :
    splitLines ('\n' :: rest) = [] :: splitLines rest := by
  rw [splitLines]
  · exact if_pos rfl
  · simp

theorem splitLines_cons {c : Char} (h : isLineEnd c = false) (rest : List Char) :
    splitLines (c :: rest) = match splitLines rest with
      | [] => [[c]]
      | line :: lines => (c :: line) :: lines := by
  rw [splitLines]
  · refine (if_neg (by simp [h])).trans ?_
    cases splitLines rest <;> rfl
  · intro _ hc _
    exact absurd h (by rw [hc]; decide)

theorem splitLines_line {l : List Char} (hl : IsLine l) (rest : List Char) :
    splitLines (l ++ '\n' :: rest) = l :: splitLines rest := by
  induction l with
  | nil => exact splitLines_newline rest
  | cons c l ih =>
    rw [List.cons_append, splitLines_cons (hl c List.mem_cons_self),
      ih fun d hd => hl d (List.mem_cons_of_mem c hd)]

theorem splitLines_flatMap {ls : List (List Char)} (h : ∀ l ∈ ls, IsLine l) :
    splitLines (ls.flatMap (· ++ ['\n'])) = ls := by
  induction ls with
  | nil => rfl
  | cons l ls ih =>
    rw [List.flatMap_cons, List.append_assoc, List.singleton_append,
      splitLines_line (h l List.mem_cons_self), ih fun m hm => h m (List.mem_cons_of_mem l hm)]

theorem toList_unlines {ls : List String} (h : ls ≠ []) :
    (unlines ls).toList = (ls.map String.toList).flatMap (· ++ ['\n']) := by
  induction ls with
  | nil => exact absurd rfl h
  | cons l ls ih =>
    cases ls with
    | nil => simp [unlines]
    | cons m ms =>
      have hm := ih (by simp)
      simp only [unlines] at hm
      simp only [unlines, String.intercalate_cons_cons, String.append_assoc, String.toList_append,
        List.map_cons, List.flatMap_cons] at hm ⊢
      rw [hm]
      simp

theorem lines_unlines {ls : List String} (h : ls ≠ []) (hl : ∀ l ∈ ls, IsLine l.toList) :
    lines (unlines ls) = ls := by
  rw [lines, toList_unlines h, splitLines_flatMap]
  · simp [Function.comp_def]
  · intro l hm
    obtain ⟨s, hs, rfl⟩ := List.mem_map.mp hm
    exact hl s hs

theorem lines_unlines_nil : lines (unlines []) = [""] := by decide

theorem mem_lines_unlines {ls : List String} (hl : ∀ l ∈ ls, IsLine l.toList) {l : String}
    (h : l ∈ lines (unlines ls)) : l ∈ ls ∨ l = "" := by
  rcases ls with _ | ⟨m, ls⟩
  · rw [lines_unlines_nil] at h
    exact .inr (List.mem_singleton.mp h)
  · rw [lines_unlines (List.cons_ne_nil m ls) hl] at h
    exact .inl h

/-- Written lines, read and written once more, make the same text. -/
theorem unlines_lines_unlines {ls : List String} (hl : ∀ l ∈ ls, IsLine l.toList) :
    unlines (lines (unlines ls)) = unlines ls := by
  rcases ls with _ | ⟨l, ls⟩
  · rw [lines_unlines_nil]
    rfl
  · rw [lines_unlines (List.cons_ne_nil l ls) hl]

theorem splitLines_ne_nil {cs : List Char} (h : cs ≠ []) : splitLines cs ≠ [] := by
  fun_cases splitLines cs <;> simp at h ⊢

theorem lines_ne_nil {text : String} (h : text ≠ "") : lines text ≠ [] := by
  rw [lines, Ne, List.map_eq_nil_iff]
  exact splitLines_ne_nil (mt String.toList_eq_nil_iff.mp h)

theorem isLine_of_mem_splitLines {cs l : List Char} (h : l ∈ splitLines cs) : IsLine l := by
  fun_induction splitLines cs generalizing l with
  | case1 => simp at h
  | case2 rest ih =>
    rcases List.mem_cons.mp h with rfl | h
    · simp [IsLine]
    · exact ih h
  | case3 c rest _ _ ih =>
    rcases List.mem_cons.mp h with rfl | h
    · simp [IsLine]
    · exact ih h
  | case4 c rest _ hc hs =>
    rw [List.mem_singleton.mp h]
    simpa [IsLine] using hc
  | case5 c rest _ hc line more hs ih =>
    rw [hs] at ih
    rcases List.mem_cons.mp h with rfl | h
    · intro d hd
      rcases List.mem_cons.mp hd with rfl | hd
      · simpa using hc
      · exact ih List.mem_cons_self d hd
    · exact ih (List.mem_cons_of_mem _ h)

theorem isLine_of_mem_lines {text l : String} (h : l ∈ lines text) : IsLine l.toList := by
  obtain ⟨cs, hcs, rfl⟩ := List.mem_map.mp h
  rw [String.toList_ofList]
  exact isLine_of_mem_splitLines hcs

/-! ### Lines that keep their terminators -/

/-- The lines of a text, each with what ends it. -/
def splitKept : List Char → List (List Char)
  | [] => []
  | '\r' :: '\n' :: rest => ['\r', '\n'] :: splitKept rest
  | c :: rest =>
    if isLineEnd c then [c] :: splitKept rest
    else match splitKept rest with
      | [] => [[c]]
      | line :: lines => (c :: line) :: lines

/-- The lines of a text as strings, each with what ends it. -/
def keptLines (text : String) : List String := (splitKept text.toList).map String.ofList

/-- A line with its terminator, which is the end of a line and nothing else. -/
def Keeps (line kept : List Char) : Prop :=
  ∃ ending, kept = line ++ ending ∧ ∀ c ∈ ending, isLineEnd c = true

theorem forall₂_splitKept (cs : List Char) :
    List.Forall₂ Keeps (splitLines cs) (splitKept cs) := by
  fun_induction splitKept cs with
  | case1 => exact .nil
  | case2 rest ih =>
    have hending : ∀ c ∈ ['\r', '\n'], isLineEnd c = true := by
      intro c hc
      rcases (by simpa using hc) with rfl | rfl <;> rfl
    rw [splitLines]
    exact .cons ⟨['\r', '\n'], rfl, hending⟩ ih
  | case3 c rest hne hc ih =>
    rw [splitLines, if_pos hc]
    · exact .cons ⟨[c], rfl, by simpa using hc⟩ ih
    · exact hne
  | case4 c rest hne hc hs ih =>
    rw [hs, List.forall₂_nil_right_iff] at ih
    rw [splitLines_cons (by simpa using hc), ih]
    exact .cons ⟨[], by simp, by simp⟩ .nil
  | case5 c rest hne hc line more hs ih =>
    rw [hs] at ih
    obtain ⟨plain, plains, ⟨ending, rfl, hending⟩, hmore, heq⟩ := List.forall₂_cons_right_iff.mp ih
    rw [splitLines_cons (by simpa using hc), heq]
    exact .cons ⟨ending, rfl, hending⟩ hmore

end LittleMan.Text
