/-
The fields of a text that is put together from words and blanks.

* `fieldsFrom_blank`, `fieldsFrom_word`: a blank is skipped, a word in front of a blank is a field;
* `fieldsFrom_append_blanks`: blanks at the end make no difference;
* `exists_of_fieldsFrom_eq_cons`: a text with a field is blanks, the field, and what is behind it;
* `exists_of_mem_fieldsFrom`, `pairwise_column_fieldsFrom`: where a field stands, and that no two
  fields stand in one column;
* `mem_fieldsFrom`: a field is not empty, and its characters are no blanks and stand in the text;
* `trimStart_trimEnd`, `trimEnd_append_trim`: trimming both sides, in either order and behind a
  text;
* `exists_append_trim_append`, `trim_append`: what is trimmed off is blank, and blanks around a text
  make no difference to it.
-/
import LittleMan.Text.Blank
import Mathlib.Data.List.DropRight
namespace LittleMan.Text

/-- A word: characters, at least one, and none of them blank. -/
def IsWord (w : List Char) : Prop := w ≠ [] ∧ ∀ c ∈ w, isBlank c = false

theorem isWord_iff_all {w : List Char} :
    IsWord w ↔ w ≠ [] ∧ (w.all fun c => !isBlank c) = true := by
  simp [IsWord]

instance (w : List Char) : Decidable (IsWord w) := decidable_of_iff _ isWord_iff_all.symm

/-- Nothing but blanks. -/
def AllBlank (cs : List Char) : Prop := ∀ c ∈ cs, isBlank c = true

theorem allBlank_iff {cs : List Char} : AllBlank cs ↔ cs.all isBlank = true := by
  rw [List.all_eq_true, AllBlank]

theorem AllBlank.append {cs ds : List Char} (hc : AllBlank cs) (hd : AllBlank ds) :
    AllBlank (cs ++ ds) := by
  intro c h
  rcases List.mem_append.mp h with h | h
  · exact hc c h
  · exact hd c h

theorem fieldsFrom_blank {c : Char} (h : isBlank c = true) (column : Nat) (rest : List Char) :
    fieldsFrom column (c :: rest) = fieldsFrom (column + 1) rest := by
  rw [fieldsFrom, if_pos h]

/-- Characters up to the first that does not satisfy `p`. -/
theorem takeWhile_append_stop {p : Char → Bool} {w rest : List Char} (hw : ∀ c ∈ w, p c = true)
    (hr : ∀ c ∈ rest.head?, p c = false) :
    (w ++ rest).takeWhile p = w ∧ (w ++ rest).dropWhile p = rest := by
  rw [List.takeWhile_append_of_pos hw, List.dropWhile_append_of_pos hw]
  cases rest with
  | nil => simp
  | cons c rest => simp [hr c rfl]

theorem takeWhile_word {w rest : List Char} (hw : ∀ c ∈ w, isBlank c = false)
    (hr : ∀ c ∈ rest.head?, isBlank c = true) :
    (w ++ rest).takeWhile (!isBlank ·) = w ∧ (w ++ rest).dropWhile (!isBlank ·) = rest :=
  takeWhile_append_stop (fun c hc => by rw [hw c hc]; rfl) fun c hc => by rw [hr c hc]; rfl

/-- A word up to a blank or the end of the text is a field. -/
theorem fieldsFrom_word {w rest : List Char} (hw : IsWord w)
    (hr : ∀ c ∈ rest.head?, isBlank c = true) (column : Nat) :
    fieldsFrom column (w ++ rest) =
      ⟨String.ofList w, column⟩ :: fieldsFrom (column + w.length) rest := by
  obtain ⟨hne, hw⟩ := hw
  cases w with
  | nil => exact absurd rfl hne
  | cons c w =>
    have hc : isBlank c = false := hw c List.mem_cons_self
    obtain ⟨ht, hd⟩ := takeWhile_word (fun d hd => hw d (List.mem_cons_of_mem c hd)) hr
    rw [List.cons_append, fieldsFrom, if_neg (by simp [hc])]
    simp only [ht, hd]

theorem fieldsFrom_allBlank {cs : List Char} (h : AllBlank cs) (column : Nat) :
    fieldsFrom column cs = [] :=
  fieldsFrom_eq_nil_iff.mpr (allBlank_iff.mp h)

theorem fieldsFrom_append_blanks {bs : List Char} (hb : AllBlank bs) (column : Nat)
    (cs : List Char) : fieldsFrom column (cs ++ bs) = fieldsFrom column cs := by
  fun_induction fieldsFrom column cs with
  | case1 column => exact fieldsFrom_allBlank hb column
  | case2 column c rest hc ih => rw [List.cons_append, fieldsFrom_blank hc, ih]
  | case3 column c rest hc word ih =>
    rw [List.cons_append, fieldsFrom, if_neg hc]
    by_cases hd : rest.dropWhile (!isBlank ·) = []
    · -- the word reaches the end of the text, so the blanks end it
      have hr : ∀ d ∈ rest, isBlank d = false := by
        intro d hm
        simpa using List.dropWhile_eq_nil_iff.mp hd d hm
      have hbs : ∀ d ∈ bs.head?, isBlank d = true := fun d hm => hb d (List.mem_of_mem_head? hm)
      obtain ⟨h1, h2⟩ := takeWhile_word hr hbs
      have h0 : rest.takeWhile (!isBlank ·) = rest := by
        rw [List.takeWhile_eq_self_iff]
        exact fun d hm => by rw [hr d hm]; rfl
      rw [hd] at ih
      simp only [h1, h2, h0, hd, word]
      rw [fieldsFrom_allBlank hb, fieldsFrom]
    · have hlen : (rest.takeWhile (!isBlank ·)).length ≠ rest.length := by
        intro he
        apply hd
        have hsplit := List.takeWhile_append_dropWhile (p := (!isBlank ·)) (l := rest)
        have := congrArg List.length hsplit
        rw [List.length_append, he] at this
        exact List.eq_nil_of_length_eq_zero (by omega)
      rw [List.takeWhile_append, if_neg hlen, List.dropWhile_append, if_neg (by simpa using hd)]
      exact congrArg (List.cons _) ih

/-- Blanks and a word, with the rest of the text behind the word. -/
theorem fieldsFrom_gap_word {gap w rest : List Char} (hg : AllBlank gap) (hw : IsWord w)
    (hr : ∀ c ∈ rest.head?, isBlank c = true) (column : Nat) :
    fieldsFrom column (gap ++ (w ++ rest)) =
      ⟨String.ofList w, column + gap.length⟩ ::
        fieldsFrom (column + gap.length + w.length) rest := by
  induction gap generalizing column with
  | nil => exact fieldsFrom_word hw hr column
  | cons c gap ih =>
    rw [List.cons_append, fieldsFrom_blank (hg c List.mem_cons_self),
      ih fun d hd => hg d (List.mem_cons_of_mem c hd), List.length_cons, Nat.add_right_comm column,
      Nat.add_assoc column gap.length 1]

/-- A text with a field: what stands in front of it is blank, and a blank or nothing is behind. -/
theorem exists_of_fieldsFrom_eq_cons {column : Nat} {cs : List Char} {f : Field}
    {more : List Field} (h : fieldsFrom column cs = f :: more) :
    ∃ gap rest, AllBlank gap ∧ IsWord f.text.toList ∧ cs = gap ++ (f.text.toList ++ rest) ∧
      f.column = column + gap.length ∧ (∀ c ∈ rest.head?, isBlank c = true) ∧
      fieldsFrom (f.column + f.text.toList.length) rest = more := by
  fun_induction fieldsFrom column cs with
  | case1 => exact absurd h (by simp)
  | case2 column c rest hc ih =>
    obtain ⟨gap, behind, hg, hw, rfl, hcolumn, hr, hmore⟩ := ih h
    refine ⟨c :: gap, behind, ?_, hw, rfl, ?_, hr, hmore⟩
    · intro d hd
      rcases List.mem_cons.mp hd with rfl | hd
      · exact hc
      · exact hg d hd
    · rw [hcolumn, List.length_cons]
      omega
  | case3 column c rest hc word _ =>
    obtain ⟨rfl, hmore⟩ := List.cons.inj h
    refine ⟨[], rest.dropWhile (!isBlank ·), by simp [AllBlank], ?_, ?_, rfl, ?_, ?_⟩
    · rw [String.toList_ofList]
      refine ⟨by simp [word], fun d hd => ?_⟩
      rcases List.mem_cons.mp hd with rfl | hd
      · simpa using hc
      · simpa using List.mem_takeWhile_imp hd
    · rw [String.toList_ofList, List.nil_append, List.cons_append, List.takeWhile_append_dropWhile]
    · intro d hd
      have := List.head?_dropWhile_not (!isBlank ·) rest
      rw [Option.mem_def.mp hd] at this
      simpa using this
    · rw [String.toList_ofList]
      exact hmore

/-- Between two words there are blanks. -/
theorem ne_nil_of_head?_blank {gap w rest : List Char} (hw : IsWord w)
    (h : ∀ c ∈ (gap ++ (w ++ rest)).head?, isBlank c = true) : gap ≠ [] := by
  rintro rfl
  obtain ⟨c, w, rfl⟩ := List.exists_cons_of_ne_nil hw.1
  have hc := hw.2 c List.mem_cons_self
  exact absurd (h c rfl) (by simp [hc])

/-- A field is a word of the text, and stands in it at its column. -/
theorem exists_of_mem_fieldsFrom {f : Field} {column : Nat} {cs : List Char}
    (h : f ∈ fieldsFrom column cs) :
    IsWord f.text.toList ∧ ∃ before behind, cs = before ++ (f.text.toList ++ behind) ∧
      f.column = column + before.length := by
  generalize hfs : fieldsFrom column cs = fs at h
  induction fs generalizing column cs with
  | nil => exact absurd h List.not_mem_nil
  | cons g more ih =>
    obtain ⟨gap, rest, -, hword, rfl, hcolumn, -, hmore⟩ := exists_of_fieldsFrom_eq_cons hfs
    rcases List.mem_cons.mp h with rfl | h
    · exact ⟨hword, gap, rest, rfl, hcolumn⟩
    · obtain ⟨hword', before, behind, rfl, hcolumn'⟩ := ih hmore h
      refine ⟨hword', gap ++ (g.text.toList ++ before), behind, by simp, ?_⟩
      rw [hcolumn', hcolumn, List.length_append, List.length_append]
      omega

theorem mem_fieldsFrom {f : Field} {column : Nat} {cs : List Char}
    (h : f ∈ fieldsFrom column cs) : IsWord f.text.toList ∧ f.text.toList ⊆ cs := by
  obtain ⟨hword, before, behind, rfl, -⟩ := exists_of_mem_fieldsFrom h
  refine ⟨hword, fun c hc => ?_⟩
  exact List.mem_append_right before (List.mem_append_left behind hc)

/-- From left to right the columns grow. -/
theorem pairwise_column_fieldsFrom (column : Nat) (cs : List Char) :
    (fieldsFrom column cs).Pairwise (·.column < ·.column) := by
  generalize hfs : fieldsFrom column cs = fs
  induction fs generalizing column cs with
  | nil => exact .nil
  | cons g more ih =>
    obtain ⟨-, rest, -, hword, -, -, -, hmore⟩ := exists_of_fieldsFrom_eq_cons hfs
    refine List.pairwise_cons.mpr ⟨fun f hf => ?_, ih _ _ hmore⟩
    rw [← hmore] at hf
    obtain ⟨-, before, -, -, hcolumn⟩ := exists_of_mem_fieldsFrom hf
    have hpos : 0 < g.text.toList.length := List.length_pos_iff.mpr hword.1
    omega

theorem nodup_fields (cs : List Char) : (fields cs).Nodup :=
  (pairwise_column_fieldsFrom 1 cs).imp fun hlt heq => Nat.ne_of_lt hlt (congrArg Field.column heq)

/-! ### Trimming -/

theorem trimEnd_eq_rdropWhile (cs : List Char) : trimEnd cs = cs.rdropWhile isBlank := rfl

/-- What is cut off at the end of a text is blank. -/
theorem exists_trimEnd_append (cs : List Char) : ∃ bs, AllBlank bs ∧ cs = trimEnd cs ++ bs := by
  refine ⟨cs.rtakeWhile isBlank, fun c hc => List.mem_rtakeWhile_imp hc, ?_⟩
  rw [trimEnd_eq_rdropWhile, List.rdropWhile_append_rtakeWhile]

theorem trimEnd_sublist (cs : List Char) : (trimEnd cs).Sublist cs := by
  obtain ⟨bs, _, h⟩ := exists_trimEnd_append cs
  conv_rhs => rw [h]
  exact List.sublist_append_left _ bs

theorem trimStart_sublist (cs : List Char) : (trimStart cs).Sublist cs :=
  List.dropWhile_sublist _

theorem trimEnd_eq_self {cs : List Char} (h : ∀ c ∈ cs.getLast?, isBlank c = false) :
    trimEnd cs = cs := by
  rw [trimEnd_eq_rdropWhile, List.rdropWhile_eq_self_iff]
  intro hne
  rw [h _ (List.getLast?_eq_getLast_of_ne_nil hne)]
  simp

theorem getLast?_trimEnd {cs : List Char} : ∀ c ∈ (trimEnd cs).getLast?, isBlank c = false := by
  intro c hc
  obtain ⟨hne, rfl⟩ := List.mem_getLast?_eq_getLast hc
  exact Bool.not_eq_true _ ▸ List.rdropWhile_last_not isBlank cs hne

theorem trimEnd_trimEnd (cs : List Char) : trimEnd (trimEnd cs) = trimEnd cs :=
  trimEnd_eq_self getLast?_trimEnd

theorem trimEnd_eq_nil_iff {cs : List Char} : trimEnd cs = [] ↔ AllBlank cs := by
  rw [trimEnd_eq_rdropWhile, List.rdropWhile_eq_nil_iff, AllBlank]

theorem trimEnd_append_blanks {bs : List Char} (h : AllBlank bs) (cs : List Char) :
    trimEnd (cs ++ bs) = trimEnd cs := by
  rw [trimEnd, trimEnd, dropEndWhile, dropEndWhile, List.reverse_append,
    List.dropWhile_append_of_pos fun c hc => h c (List.mem_reverse.mp hc)]

theorem trimEnd_append_of_not_blank {ds : List Char} (h : ¬AllBlank ds) (cs : List Char) :
    trimEnd (cs ++ ds) = cs ++ trimEnd ds := by
  have hne : ds.reverse.dropWhile isBlank ≠ [] := by
    intro he
    rw [← trimEnd_eq_nil_iff, trimEnd, dropEndWhile, he] at h
    exact h rfl
  rw [trimEnd, trimEnd, dropEndWhile, dropEndWhile, List.reverse_append, List.dropWhile_append,
    if_neg (by simpa using hne), List.reverse_append, List.reverse_reverse]

/-- Trimming stops at a word. -/
theorem trimEnd_append_of_isWord {w : List Char} (hw : IsWord w) (cs : List Char) :
    trimEnd (w ++ cs) = w ++ trimEnd cs := by
  by_cases h : AllBlank cs
  · rw [trimEnd_append_blanks h, trimEnd_eq_nil_iff.mpr h, List.append_nil]
    exact trimEnd_eq_self fun c hc => hw.2 c (List.mem_of_getLast? hc)
  · exact trimEnd_append_of_not_blank h w

theorem trimStart_append_of_isWord {w : List Char} (hw : IsWord w) (cs : List Char) :
    trimStart (w ++ cs) = w ++ cs := by
  obtain ⟨c, w, rfl⟩ := List.exists_cons_of_ne_nil hw.1
  rw [trimStart, List.cons_append, List.dropWhile_cons_of_neg]
  simp [hw.2 c List.mem_cons_self]

theorem trim_of_allBlank {cs : List Char} (h : AllBlank cs) : trim cs = [] := by
  rw [trim, trimStart, List.dropWhile_eq_nil_iff.mpr h]
  rfl

/-- It does not matter which side is trimmed first. -/
theorem trimStart_trimEnd (cs : List Char) : trimStart (trimEnd cs) = trim cs := by
  by_cases h : AllBlank cs
  · rw [trimEnd_eq_nil_iff.mpr h, trim_of_allBlank h]
    rfl
  · have hsplit := List.takeWhile_append_dropWhile (p := isBlank) (l := cs)
    have hfront : AllBlank (cs.takeWhile isBlank) := fun c hc => List.mem_takeWhile_imp hc
    have hbody : ¬AllBlank (cs.dropWhile isBlank) := by
      intro hb
      rw [← hsplit] at h
      exact h (hfront.append hb)
    have hhead : ∀ c ∈ (trimEnd (cs.dropWhile isBlank)).head?, isBlank c = false := by
      intro c hc
      -- what remains at the front is the first character that is no blank
      obtain ⟨bs, -, hbs⟩ := exists_trimEnd_append (cs.dropWhile isBlank)
      have hfirst := List.head?_dropWhile_not isBlank cs
      rw [hbs, List.head?_append_of_ne_nil _ (fun he => by simp [he] at hc),
        Option.mem_def.mp hc] at hfirst
      simpa using hfirst
    conv_lhs => rw [← hsplit, trimEnd_append_of_not_blank hbody]
    exact (takeWhile_append_stop hfront hhead).2

/-- What is trimmed off is blank. -/
theorem exists_append_trim_append (cs : List Char) :
    ∃ before after, AllBlank before ∧ AllBlank after ∧ cs = before ++ trim cs ++ after := by
  obtain ⟨after, ha, hafter⟩ := exists_trimEnd_append (trimStart cs)
  refine ⟨cs.takeWhile isBlank, after, fun c hc => List.mem_takeWhile_imp hc, ha, ?_⟩
  rw [List.append_assoc, trim, ← hafter, trimStart, List.takeWhile_append_dropWhile]

theorem trim_eq_nil_iff {cs : List Char} : trim cs = [] ↔ AllBlank cs := by
  refine ⟨fun h => ?_, trim_of_allBlank⟩
  obtain ⟨before, after, hb, ha, hcs⟩ := exists_append_trim_append cs
  rw [hcs, h, List.append_nil]
  exact hb.append ha

theorem isEmpty_trim_iff {cs : List Char} : (trim cs).isEmpty = true ↔ AllBlank cs := by
  rw [List.isEmpty_iff, trim_eq_nil_iff]

/-- A trimmed text that is not empty ends with no blank. -/
theorem trimEnd_append_trim {cs : List Char} (h : ¬AllBlank cs) (front : List Char) :
    trimEnd (front ++ trim cs) = front ++ trim cs := by
  have hne : ¬AllBlank (trim cs) := by
    intro hb
    have htrim : trim cs = [] :=
      (trimEnd_trimEnd (trimStart cs)).symm.trans (trimEnd_eq_nil_iff.mpr hb)
    exact h (trim_eq_nil_iff.mp htrim)
  rw [trimEnd_append_of_not_blank hne, trim, trimEnd_trimEnd]

/-- Blanks around a text make no difference once it is trimmed. -/
theorem trim_append {before after : List Char} (hb : AllBlank before) (ha : AllBlank after)
    (cs : List Char) : trim (before ++ cs ++ after) = trim cs := by
  rw [← trimStart_trimEnd, trimEnd_append_blanks ha, trimStart_trimEnd, trim, trim, trimStart,
    List.dropWhile_append_of_pos hb, trimStart]

theorem trim_trim (cs : List Char) : trim (trim cs) = trim cs := by
  obtain ⟨before, after, hb, ha, h⟩ := exists_append_trim_append cs
  conv_rhs => rw [h, trim_append hb ha]

theorem trim_append_of_isWord {w : List Char} (hw : IsWord w) (cs : List Char) :
    trim (w ++ cs) = w ++ trimEnd cs := by
  rw [trim, trimStart_append_of_isWord hw, trimEnd_append_of_isWord hw]

theorem trim_of_isWord {w : List Char} (hw : IsWord w) : trim w = w := by
  have h := trim_append_of_isWord hw []
  rwa [trimEnd_eq_nil_iff.mpr (by simp [AllBlank]), List.append_nil] at h

/-- A trimmed text starts with no blank. -/
theorem isBlank_head?_trim {cs : List Char} : ∀ c ∈ (trim cs).head?, isBlank c = false := by
  intro c hc
  have hfirst := List.head?_dropWhile_not isBlank (trimEnd cs)
  rw [← trimStart, trimStart_trimEnd, Option.mem_def.mp hc] at hfirst
  simpa using hfirst

/-- Blanks around a text that starts and ends with another character. -/
theorem trim_append_blanks {before cs after : List Char} (hb : AllBlank before)
    (ha : AllBlank after) (hne : cs ≠ []) (hfirst : ∀ c ∈ cs.head?, isBlank c = false)
    (hlast : ∀ c ∈ cs.getLast?, isBlank c = false) : trim (before ++ cs ++ after) = cs := by
  have hstart : trimStart (before ++ cs ++ after) = cs ++ after := by
    rw [trimStart, List.append_assoc]
    refine (takeWhile_append_stop hb fun c hc => hfirst c ?_).2
    rwa [List.head?_append_of_ne_nil _ hne] at hc
  have hend : (after.reverse ++ cs.reverse).dropWhile isBlank = cs.reverse := by
    refine (takeWhile_append_stop (fun c hc => ha c (List.mem_reverse.mp hc)) ?_).2
    rwa [List.head?_reverse]
  rw [trim, hstart, trimEnd, dropEndWhile, List.reverse_append, hend, List.reverse_reverse]

end LittleMan.Text
