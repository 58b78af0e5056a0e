/-
What packing does to the lines of a source.

* `isLine_editLine`, `isCode_editLine`: a line after its edit is one line, and holds code unless it
  held none or became a comment;
* `codeLines_edited`: so the lines of code after all edits are those before, edited, without the
  comments;
* `text_pack`: a packed text is the edited lines, perhaps with a notice above them;
* `codeLines_text`: the lines of code of a packed text, whether or not a notice stands on top.
-/
import LittleMan.Packing
import LittleMan.Proofs.Rendering
import LittleMan.Proofs.Survey
import LittleMan.Proofs.Text.Decimal
import LittleMan.Proofs.Text.Lines
namespace LittleMan

open Text

/-! ### Code in lines without a terminator -/

theorem codeLines_cons_of_isLine {l : String} (h : IsLine l.toList) (number : Nat)
    (rest : List String) :
    codeLines number (l :: rest) =
      (if Statement.isCode l then [(l, number)] else []) ++ codeLines (number + 1) rest := by
  have hs := Statement.stripNewline_of_isLine h
  cases hc : Statement.isCode l with
  | true => rw [codeLines_cons_of_code (by rw [hs]; exact hc), hs]; rfl
  | false => rw [codeLines_cons_of_blank (by rw [hs]; exact hc)]; rfl

theorem codeLines_append_of_blank {top : List String}
    (h : ∀ l ∈ top, IsLine l.toList ∧ Statement.isCode l = false) (number : Nat)
    (rest : List String) :
    codeLines number (top ++ rest) = codeLines (number + top.length) rest := by
  induction top generalizing number with
  | nil => rfl
  | cons l top ih =>
    obtain ⟨hl, hc⟩ := h l List.mem_cons_self
    rw [List.cons_append, codeLines_cons_of_isLine hl, hc,
      ih fun m hm => h m (List.mem_cons_of_mem l hm), List.length_cons, Nat.add_right_comm,
      Nat.add_assoc]
    rfl

/-- Writing lines out and reading them back changes nothing in their code. -/
theorem codeLines_lines_unlines {ls : List String} (h : ∀ l ∈ ls, IsLine l.toList) (number : Nat) :
    codeLines number (lines (unlines ls)) = codeLines number ls := by
  rcases eq_or_ne ls [] with rfl | hne
  · rw [lines_unlines_nil, codeLines_cons_of_isLine (by simp [IsLine])]
    rfl
  · rw [lines_unlines hne h]

theorem Statement.isCode_of_comment {l : String} (h : l.toList.head? = some '#') :
    isCode l = false := by
  rw [isCode, codePart]
  cases hl : l.toList with
  | nil => rfl
  | cons c cs =>
    rw [hl] at h
    obtain rfl : c = '#' := Option.some_inj.mp h
    rfl

/-- A line of data is one line if its pieces are. -/
theorem Statement.isLine_dataLine {tag : Option String} {number comment : String}
    (ht : IsLine (tag.getD "").toList) (hn : IsLine number.toList) (hc : IsLine comment.toList) :
    IsLine (dataLine tag number comment).toList := by
  have hdat : IsLine "\tDAT\t".toList := isLine_of_all (by decide +kernel)
  have hsign : IsLine " # ".toList := isLine_of_all (by decide +kernel)
  rw [dataLine]
  simp only [String.toList_append]
  exact (((ht.append hdat).append hn).append hsign).append hc

namespace Packing

/-! ### Single lines -/

/-- A tag that an edit keeps can stand in front of a line. -/
def Keepable (edit : Edit) : Prop :=
  ∀ word tag, edit = .patch word (some tag) → Statement.IsName tag

theorem editLine_patch (raw : String) (word : Word) (tag : Option String) :
    editLine raw (.patch word tag) =
      Statement.dataLine tag (padded 3 word.val)
        (String.ofList (patchBody (trimEnd raw.toList) tag)) := rfl

theorem isName_padded (width n : Nat) : Statement.IsName (padded width (n : Int)) :=
  isWord_of_isNumeral (isNumeral_padded width n)

theorem patchBody_sublist (text : List Char) (tag : Option String) :
    (patchBody text tag).Sublist text := by
  cases tag with
  | none => exact trimStart_sublist text
  | some tag =>
    exact (trimStart_sublist _).trans ((List.drop_sublist _ _).trans (trimStart_sublist text))

theorem isLine_editLine {raw : String} {edit : Edit} (h : IsLine raw.toList)
    (hk : Keepable edit) : IsLine (editLine raw edit).toList := by
  have ht : IsLine (trimEnd raw.toList) := h.sublist (trimEnd_sublist _)
  cases edit with
  | keep =>
    rw [editLine, String.toList_ofList]
    exact ht
  | comment tag =>
    have hmark : IsLine (omittedMark ++ "\t").toList := isLine_of_all (by decide +kernel)
    rw [editLine, String.toList_append, String.toList_ofList]
    exact hmark.append (ht.sublist (trimStart_sublist _))
  | patch word tag =>
    -- the pieces are a word, a numeral and a part of the line, none of which holds a terminator
    have htag : IsLine (tag.getD "").toList := by
      cases tag with
      | none => simp [IsLine]
      | some t => exact IsLine.of_not_blank (hk word t rfl).1.2
    have hnum : IsLine (padded 3 word.val).toList :=
      IsLine.of_not_blank (isName_padded 3 word.val).1.2
    have hbody := ht.sublist (patchBody_sublist (trimEnd raw.toList) tag)
    rw [editLine_patch]
    exact Statement.isLine_dataLine htag hnum (by rw [String.toList_ofList]; exact hbody)

/-- Patched lines hold code, comments hold none, and kept lines as much as before. -/
theorem isCode_editLine {raw : String} {edit : Edit} (hk : Keepable edit) :
    Statement.isCode (editLine raw edit) =
      (!isComment edit && (isPatch edit || Statement.isCode raw)) := by
  cases edit with
  | keep =>
    rw [editLine, Statement.isCode_trimEnd, String.ofList_toList]
    rfl
  | comment tag =>
    apply Statement.isCode_of_comment
    rw [editLine, String.toList_append, String.toList_append, List.append_assoc, List.head?_append]
    rfl
  | patch word tag =>
    rw [editLine_patch]
    exact Statement.isCode_dataLine (fun t ht => hk word t (by rw [Option.mem_def.mp ht]))
      (isName_padded 3 word.val) _

/-! ### All lines -/

/-- What a line of code becomes, and its number then, unless it becomes a comment; the numbers are
shifted. -/
def survivor (edits : String × Nat → Edit) (shift : Nat) (l : String × Nat) :
    Option (String × Nat) :=
  if isComment (edits l) then none else some (editLine l.1 (edits l), l.2 + shift)

theorem codeLines_edited {edits : String × Nat → Edit} (shift : Nat) {lines : List String}
    (hl : ∀ l ∈ lines, IsLine l.toList) :
    ∀ number : Nat, (∀ l ∈ lines.zipIdx number, Keepable (edits l)) →
      (∀ l ∈ lines.zipIdx number, Statement.isCode l.1 = false → edits l = .keep) →
      codeLines (number + shift) ((lines.zipIdx number).map fun l => editLine l.1 (edits l)) =
        (codeLines number lines).filterMap (survivor edits shift) := by
  induction lines with
  | nil => intro number _ _; rfl
  | cons raw rest ih =>
    intro number hk hblank
    have hraw := hl raw List.mem_cons_self
    have hk0 := hk (raw, number) List.mem_cons_self
    have hrest := ih (fun l hm => hl l (List.mem_cons_of_mem raw hm)) (number + 1)
      (fun l hm => hk l (List.mem_cons_of_mem _ hm))
      (fun l hm => hblank l (List.mem_cons_of_mem _ hm))
    rw [List.zipIdx_cons, List.map_cons, codeLines_cons_of_isLine (isLine_editLine hraw hk0),
      codeLines_cons_of_isLine hraw, List.filterMap_append, ← hrest, isCode_editLine hk0,
      show number + shift + 1 = number + 1 + shift by omega]
    congr 1
    -- what is left is the first line: it stays code unless it became a comment
    cases hc : Statement.isCode raw with
    | false =>
      rw [hblank (raw, number) List.mem_cons_self hc]
      simp [isPatch]
    | true =>
      cases he : edits (raw, number) <;> simp [survivor, isComment, he]

/-! ### The text -/

/-- The edit of a numbered line: that of its statement, if it holds one. -/
def editAt (p : Program) (l : String × Nat) : Edit :=
  match (statementEdits p).lookup (l.2 : Int) with
  | some edit => edit
  | none => if isDropped p l.2 l.1 then .comment none else .keep

theorem planFrom_eq (p : Program) (number : Nat) (lines : List String) :
    planFrom p (statementEdits p) number lines =
      (lines.zipIdx number).map fun l => (l.2, l.1, editAt p l) := by
  induction lines generalizing number with
  | nil => rfl
  | cons raw rest ih =>
    rw [planFrom, ih, List.zipIdx_cons, List.map_cons]
    rfl

theorem isLine_toString (n : Nat) : IsLine (toString n).toList := by
  rw [toList_toString_natCast]
  exact IsLine.of_not_blank fun c hc =>
    isBlank_of_isDigit (isDigit_of_isNumeral (isNumeral_digits n) c hc)

/-- The notice is comment, line by line. -/
theorem isLine_noticeLines {saved : Nat} {l : String} (h : l ∈ noticeLines saved) :
    IsLine l.toList ∧ l.toList.head? = some '#' := by
  -- only one line is not fixed: it says how much was saved
  have hsaved : IsLine ("#   This has decreased the size of the compiled program by " ++
      toString saved ++ " boxes.").toList := by
    rw [String.toList_append, String.toList_append]
    refine (IsLine.append ?_ (isLine_toString saved)).append ?_ <;>
      exact isLine_of_all (by decide +kernel)
  simp only [noticeLines, List.mem_cons, List.not_mem_nil, or_false] at h
  rcases h with rfl | rfl | rfl | rfl | rfl | rfl | rfl | rfl | rfl
  case inr.inr.inr.inl =>
    refine ⟨hsaved, ?_⟩
    rw [String.toList_append, String.toList_append, List.append_assoc, List.head?_append]
    rfl
  all_goals exact ⟨isLine_of_all (by decide +kernel), by decide +kernel⟩

/-- The lines of a source after their edits. -/
def edited (p : Program) (source : List String) : List String :=
  (source.zipIdx 1).map fun l => editLine l.1 (editAt p l)

/-- What stands above the edited lines. -/
def heading (p : Program) (notice : Bool) : List String :=
  if notice then noticeLines (saved p) ++ [""] else []

theorem text_pack (p : Program) (source : List String) (notice : Bool) :
    (p.pack source notice).text = unlines (heading p notice ++ edited p source) := by
  rw [Program.pack, plan, planFrom_eq, List.map_map]
  rfl

theorem isLine_edited {p : Program} {source : List String} (hl : ∀ l ∈ source, IsLine l.toList)
    (hk : ∀ l ∈ source.zipIdx 1, Keepable (editAt p l)) :
    ∀ l ∈ edited p source, IsLine l.toList := by
  intro l hm
  obtain ⟨⟨raw, number⟩, hraw, rfl⟩ := List.mem_map.mp hm
  exact isLine_editLine (hl raw (List.fst_mem_of_mem_zipIdx hraw)) (hk _ hraw)

/-- What stands above is no code. -/
theorem isLine_heading {p : Program} {notice : Bool} :
    ∀ l ∈ heading p notice, IsLine l.toList ∧ Statement.isCode l = false := by
  intro l hm
  cases notice with
  | false => exact absurd hm List.not_mem_nil
  | true =>
    rcases List.mem_append.mp hm with hm | hm
    · obtain ⟨hline, hsign⟩ := isLine_noticeLines hm
      exact ⟨hline, Statement.isCode_of_comment hsign⟩
    · obtain rfl := List.mem_singleton.mp hm
      exact ⟨by simp [IsLine], rfl⟩

/-- Lines above a text that hold no code only move the lines of code down. -/
theorem codeLines_text {p : Program} {source : List String} (notice : Bool)
    (hl : ∀ l ∈ source, IsLine l.toList)
    (hk : ∀ l ∈ source.zipIdx 1, Keepable (editAt p l))
    (hblank : ∀ l ∈ source.zipIdx 1, Statement.isCode l.1 = false → editAt p l = .keep) :
    ∃ shift, codeLines 1 (lines (p.pack source notice).text) =
      (codeLines 1 source).filterMap (survivor (editAt p) shift) := by
  refine ⟨(heading p notice).length, ?_⟩
  rw [text_pack, codeLines_lines_unlines, codeLines_append_of_blank isLine_heading, edited,
    codeLines_edited (heading p notice).length hl 1 hk hblank]
  intro l hm
  rcases List.mem_append.mp hm with hm | hm
  · exact (isLine_heading l hm).1
  · exact isLine_edited hl hk l hm

end Packing

end LittleMan
