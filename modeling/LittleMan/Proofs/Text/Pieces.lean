/-
The pieces of a text between separators.

* `splitOn_eq_iff`: the pieces hold no separator, and make the text when separators are put between
  them; there is one way to cut a text so;
* `append_sep_inj`, `append_sep_inj_right`: the first and the last separator of a text;
* `map_trim_splitOn_trim`: once the pieces are trimmed, it makes no difference whether the text was;
* `ShortDigits`: a text in which no run of digits is too long to be read; it is so if its pieces
  are.
-/
import LittleMan.Proofs.Text.Decimal
import LittleMan.Proofs.Text.Fields
namespace LittleMan.Text

variable {sep : Char} {cs : List Char} {pieces : List (List Char)}

/-! ### Cutting and joining -/

theorem splitOn_eq_list_splitOn (sep : Char) (cs : List Char) :
    splitOn sep cs = cs.splitOn sep := by
  induction cs with
  | nil => rfl
  | cons c cs ih =>
    rw [splitOn, ih, List.splitOn_cons_eq_if_modifyHead]
    simp only [beq_iff_eq]
    rcases h : cs.splitOn sep with _ | ⟨piece, pieces⟩
    · exact absurd h (List.splitOn_ne_nil sep cs)
    · rfl

theorem not_mem_of_mem_splitOn {piece : List Char} (h : piece ∈ splitOn sep cs) : sep ∉ piece := by
  fun_induction splitOn sep cs generalizing piece with
  | case1 =>
    obtain rfl := List.mem_singleton.mp h
    exact List.not_mem_nil
  | case2 rest ih =>
    rcases List.mem_cons.mp h with rfl | h
    · exact List.not_mem_nil
    · exact ih h
  | case3 c rest hc hnil ih =>
    obtain rfl := List.mem_singleton.mp h
    exact fun hm => hc (List.mem_singleton.mp hm).symm
  | case4 c rest hc first more hfirst ih =>
    rw [hfirst] at ih
    rcases List.mem_cons.mp h with rfl | h
    · intro hm
      rcases List.mem_cons.mp hm with rfl | hm
      · exact hc rfl
      · exact ih List.mem_cons_self hm
    · exact ih (List.mem_cons_of_mem first h)

/-- There is one way to cut a text into pieces without the separator. -/
theorem splitOn_eq_iff : splitOn sep cs = pieces ↔
    pieces ≠ [] ∧ (∀ piece ∈ pieces, sep ∉ piece) ∧ cs = [sep].intercalate pieces := by
  constructor
  · rintro rfl
    refine ⟨?_, fun piece => not_mem_of_mem_splitOn, ?_⟩
    · rw [splitOn_eq_list_splitOn]
      exact List.splitOn_ne_nil sep cs
    · rw [splitOn_eq_list_splitOn, List.intercalate_splitOn]
  · rintro ⟨hne, hpieces, rfl⟩
    rw [splitOn_eq_list_splitOn, List.splitOn_intercalate sep hpieces hne]

/-- Texts that are equal are equal on both sides of their first separator. -/
theorem append_sep_inj {before before' after after' : List Char} (hb : sep ∉ before)
    (hb' : sep ∉ before') (h : before ++ sep :: after = before' ++ sep :: after') :
    before = before' ∧ after = after' := by
  have hfirst : ∀ {cs : List Char} (ds : List Char), sep ∉ cs →
      (cs ++ sep :: ds).takeWhile (· ≠ sep) = cs := by
    intro cs ds hcs
    refine (takeWhile_append_stop (fun c hc => ?_) (by simp)).1
    rw [decide_eq_true_eq]
    rintro rfl
    exact hcs hc
  have hbefore : before = before' := by rw [← hfirst after hb, h, hfirst after' hb']
  subst hbefore
  exact ⟨rfl, (List.cons.inj (List.append_cancel_left h)).2⟩

/-- The same for their last separator. -/
theorem append_sep_inj_right {before before' after after' : List Char} (ha : sep ∉ after)
    (ha' : sep ∉ after') (h : before ++ sep :: after = before' ++ sep :: after') :
    before = before' ∧ after = after' := by
  have hreverse := congrArg List.reverse h
  simp only [List.reverse_append, List.reverse_cons, List.append_assoc,
    List.singleton_append] at hreverse
  obtain ⟨hafter, hbefore⟩ := append_sep_inj (by simpa using ha) (by simpa using ha') hreverse
  exact ⟨List.reverse_injective hbefore, List.reverse_injective hafter⟩

theorem intercalate_append_cons (first : List Char) (before : List Char) :
    [sep].intercalate ((before ++ first) :: pieces) =
      before ++ [sep].intercalate (first :: pieces) := by
  cases pieces with
  | nil => simp
  | cons piece pieces => simp [List.intercalate_cons_cons]

theorem intercalate_concat_append (last after : List Char) :
    [sep].intercalate (pieces ++ [last ++ after]) =
      [sep].intercalate (pieces ++ [last]) ++ after := by
  induction pieces with
  | nil => simp
  | cons piece pieces ih =>
    have hne : ∀ t : List Char, pieces ++ [t] ≠ [] := by simp
    rw [List.cons_append, List.cons_append, List.intercalate_cons_of_ne_nil (hne _),
      List.intercalate_cons_of_ne_nil (hne _), ih, List.append_assoc, List.append_assoc,
      List.append_assoc]

/-- What holds of the separator and of the pieces holds of the text. -/
theorem forall_mem_intercalate {P : Char → Prop} (hsep : P sep)
    (h : ∀ piece ∈ pieces, ∀ c ∈ piece, P c) : ∀ c ∈ [sep].intercalate pieces, P c := by
  induction pieces with
  | nil => simp
  | cons piece pieces ih =>
    obtain ⟨hpiece, hpieces⟩ := List.forall_mem_cons.mp h
    rcases pieces with _ | ⟨next, pieces⟩
    · rwa [List.intercalate_singleton]
    rw [List.intercalate_cons_cons]
    intro c hc
    rcases List.mem_append.mp hc with hc | hc
    · rcases List.mem_append.mp hc with hc | hc
      · exact hpiece c hc
      · exact List.mem_singleton.mp hc ▸ hsep
    · exact ih hpieces c hc

/-! ### Blanks -/

theorem AllBlank.not_mem (hsep : isBlank sep = false) {bs : List Char} (h : AllBlank bs) :
    sep ∉ bs := fun hm => absurd (h sep hm) (by simp [hsep])

/-- Blanks in front go to the first piece. -/
theorem map_trim_splitOn_append_left (hsep : isBlank sep = false) {before : List Char}
    (hb : AllBlank before) : (splitOn sep (before ++ cs)).map trim = (splitOn sep cs).map trim := by
  obtain ⟨hne, hpieces, hjoin⟩ := splitOn_eq_iff.mp (Eq.refl (splitOn sep cs))
  generalize splitOn sep cs = pieces at hne hpieces hjoin ⊢
  obtain ⟨first, pieces, rfl⟩ := List.exists_cons_of_ne_nil hne
  have hcut : splitOn sep (before ++ cs) = (before ++ first) :: pieces := by
    refine splitOn_eq_iff.mpr ⟨List.cons_ne_nil _ _, ?_, ?_⟩
    · refine List.forall_mem_cons.mpr ⟨fun hm => ?_, fun p hp => hpieces p (by simp [hp])⟩
      rcases List.mem_append.mp hm with hm | hm
      · exact hb.not_mem hsep hm
      · exact hpieces first List.mem_cons_self hm
    · rw [intercalate_append_cons, hjoin]
  have htrim : trim (before ++ first ++ []) = trim first := trim_append hb (by simp [AllBlank]) first
  rw [List.append_nil] at htrim
  rw [hcut, List.map_cons, List.map_cons, htrim]

/-- Blanks behind go to the last piece. -/
theorem map_trim_splitOn_append_right (hsep : isBlank sep = false) {after : List Char}
    (ha : AllBlank after) : (splitOn sep (cs ++ after)).map trim = (splitOn sep cs).map trim := by
  obtain ⟨hne, hpieces, hjoin⟩ := splitOn_eq_iff.mp (Eq.refl (splitOn sep cs))
  generalize splitOn sep cs = pieces at hne hpieces hjoin ⊢
  obtain ⟨pieces, last, rfl⟩ : ∃ front last, pieces = front ++ [last] :=
    ⟨_, _, (List.dropLast_append_getLast hne).symm⟩
  have hcut : splitOn sep (cs ++ after) = pieces ++ [last ++ after] := by
    refine splitOn_eq_iff.mpr ⟨by simp, fun p hp => ?_, ?_⟩
    · rcases List.mem_append.mp hp with hp | hp
      · exact hpieces p (List.mem_append_left _ hp)
      · obtain rfl := List.mem_singleton.mp hp
        exact fun hm => (List.mem_append.mp hm).elim (hpieces last (by simp)) (ha.not_mem hsep)
    · rw [intercalate_concat_append, ← hjoin]
  have htrim : trim ([] ++ last ++ after) = trim last := trim_append (by simp [AllBlank]) ha last
  rw [List.nil_append] at htrim
  rw [hcut, List.map_append, List.map_append, List.map_singleton, List.map_singleton, htrim]

/-- Once the pieces are trimmed, it makes no difference whether the text was. -/
theorem map_trim_splitOn_trim (hsep : isBlank sep = false) (cs : List Char) :
    (splitOn sep (trim cs)).map trim = (splitOn sep cs).map trim := by
  obtain ⟨before, after, hb, ha, h⟩ := exists_append_trim_append cs
  conv_rhs => rw [h, map_trim_splitOn_append_right hsep ha, map_trim_splitOn_append_left hsep hb]

/-! ### Parts of a text -/

theorem isInfix_of_mem_splitOn {piece : List Char} (h : piece ∈ splitOn sep cs) :
    piece <:+: cs := by
  obtain ⟨-, -, hjoin⟩ := splitOn_eq_iff.mp (Eq.refl (splitOn sep cs))
  rw [hjoin]
  generalize splitOn sep cs = pieces at h
  induction pieces with
  | nil => exact absurd h List.not_mem_nil
  | cons first pieces ih =>
    rcases List.mem_cons.mp h with rfl | h
    · have hfirst : [sep].intercalate ((piece ++ []) :: pieces) =
          piece ++ [sep].intercalate ([] :: pieces) := intercalate_append_cons [] piece
      rw [List.append_nil] at hfirst
      rw [hfirst]
      exact (List.prefix_append piece _).isInfix
    · have hne : pieces ≠ [] := List.ne_nil_of_mem h
      rw [List.intercalate_cons_of_ne_nil hne]
      exact (ih h).trans (List.suffix_append _ _).isInfix

theorem isInfix_trim (cs : List Char) : trim cs <:+: cs := by
  obtain ⟨before, after, -, -, h⟩ := exists_append_trim_append cs
  exact ⟨before, after, h.symm⟩

/-- No run of digits in the text is too long to be read. -/
def ShortDigits (cs : List Char) : Prop :=
  ∀ ds, ds <:+: cs → (∀ d ∈ ds, isDigit d = true) → ds.length ≤ maxNumeralLength

namespace ShortDigits

theorem of_isInfix {ds : List Char} (h : ShortDigits cs) (hds : ds <:+: cs) : ShortDigits ds :=
  fun es hes => h es (hes.trans hds)

theorem of_length_le (h : cs.length ≤ maxNumeralLength) : ShortDigits cs :=
  fun _ hds _ => hds.length_le.trans h

/-- Runs of digits do not reach over separators. -/
theorem intercalate (hsep : isDigit sep = false) (h : ∀ piece ∈ pieces, ShortDigits piece) :
    ShortDigits ([sep].intercalate pieces) := by
  -- digits cannot start with a separator
  have hstart : ∀ {ds rest : List Char}, ds <+: sep :: rest → (∀ d ∈ ds, isDigit d = true) →
      ds = [] := by
    rintro (_ | ⟨d, ds⟩) rest hds hdigits
    · rfl
    · obtain rfl := (List.cons_prefix_cons.mp hds).1
      exact absurd (hdigits d List.mem_cons_self) (by simp [hsep])
  induction pieces with
  | nil => exact of_length_le (Nat.zero_le _)
  | cons piece pieces ih =>
    obtain ⟨hpiece, hpieces⟩ := List.forall_mem_cons.mp h
    rcases pieces with _ | ⟨next, pieces⟩
    · rwa [List.intercalate_singleton]
    rw [List.intercalate_cons_cons, List.append_assoc, List.singleton_append]
    intro ds hds hdigits
    rcases List.infix_append_iff_ne_nil.mp hds with hds | hds | ⟨front, back, -, hne, rfl, -, hback⟩
    · exact hpiece ds hds hdigits
    · rcases List.infix_cons_iff.mp hds with hds | hds
      · rw [hstart hds hdigits]
        exact Nat.zero_le _
      · exact ih hpieces ds hds hdigits
    · exact absurd (hstart hback fun d hd => hdigits d (List.mem_append_right front hd)) hne

theorem readNumeral_eq (h : ShortDigits cs) (hnumeral : isNumeral cs = true) :
    readNumeral cs = .ok (decimal cs) :=
  readNumeral_of_le (h cs List.infix_rfl (isDigit_of_isNumeral hnumeral))

end ShortDigits

end LittleMan.Text
