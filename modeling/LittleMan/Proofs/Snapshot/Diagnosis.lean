/-
A text snapshot that is refused names its first bad field.

The texts here have the frame of a snapshot: the opening, a flag, fields with one space in front of
each, and the closing bracket. How many fields there are and what stands in them is open. Fields
that are numbers only move the place at which the next one is judged, so it is enough to look at
one field: one that is no number is blamed in full, and a number only for what stands behind it.

* `IsToken`: what may stand between two spaces;
* `opening`: the text up to a field, whose length is the field's offset;
* `readFields_bad`, `readFields_unended`: the two errors of one field;
* `readFields_after`: numbers in front do not change an error;
* `decodeText_bad`, `decodeText_tooFew`, `decodeText_tooMany`: the errors of a text;
* `decodeText_blames_first`: the first field that is no number is blamed, else the count, else the
  counter.
-/
import LittleMan.Proofs.Results
import LittleMan.Proofs.Snapshot.Text
namespace LittleMan.Snapshot

open Text

/-- What may stand between two spaces, or between a space and the bracket. -/
def IsToken (f : List Char) : Prop := f ≠ [] ∧ ' ' ∉ f ∧ ']' ∉ f

/-- A space or the bracket, one of which ends every field. -/
def IsStop (c : Char) : Prop := c = ' ' ∨ c = ']'

theorem isDigit_of_isStop {c : Char} (h : IsStop c) : isDigit c = false := by
  rcases h with rfl | rfl <;> decide

theorem isStop_terminator (count : Nat) : IsStop (terminator count) := by
  rw [terminator]
  split
  · exact .inr rfl
  · exact .inl rfl

namespace IsToken

variable {f : List Char} {c : Char}

theorem not_isStop (h : IsToken f) (hc : c ∈ f) : ¬IsStop c := by
  rintro (rfl | rfl)
  · exact h.2.1 hc
  · exact h.2.2 hc

theorem ne_terminator (h : IsToken f) (hc : c ∈ f) (count : Nat) : c ≠ terminator count := by
  rintro rfl
  exact h.not_isStop hc (isStop_terminator count)

/-- What is wrong is told with the whole field. -/
theorem tokenAt_eq (h : IsToken f) {after : List Char} (hstop : ∀ c ∈ after.head?, IsStop c) :
    tokenAt (f ++ after) = String.ofList f := by
  have htake : (f ++ after).takeWhile (fun c => c ≠ ' ' && c ≠ ']') = f := by
    refine (takeWhile_append_stop (fun c hc => ?_) fun c hc => ?_).1
    · simpa [IsStop] using h.not_isStop hc
    · rcases hstop c hc with rfl | rfl <;> decide
  rw [tokenAt, htake, List.isEmpty_eq_false_iff.mpr h.1]
  rfl

end IsToken

theorem IsField.isToken {f : List Char} (h : IsField f) : IsToken f :=
  ⟨h.ne_nil, h.not_mem_space, fun hm => absurd (h.all_isDigit ']' hm) (by decide)⟩

/-! ### One field -/

/-- What is wrong with a field that is no number: it starts with none, or goes on behind one. -/
def fieldDefect (f : List Char) : Defect :=
  if f.head?.any isDigit then .malformedNumber else .notANumber

section Field

variable {count position : Nat} {f after : List Char}

/-- No digit is taken from behind a field. -/
theorem takeWhile_isDigit_append (hstop : ∀ c ∈ after.head?, IsStop c) :
    (f ++ after).takeWhile isDigit = f.takeWhile isDigit := by
  have hafter : after.takeWhile isDigit = [] := by
    cases after with
    | nil => rfl
    | cons c after => exact List.takeWhile_cons_of_neg (by simp [isDigit_of_isStop (hstop c rfl)])
  rw [List.takeWhile_append, hafter, List.append_nil]
  split
  · next hlength => exact ((List.takeWhile_prefix isDigit).eq_of_length hlength).symm
  · rfl

/-- The digits that are taken of a field that is no number leave something of it. -/
theorem exists_rest_of_not_isField (hbad : ¬IsField f)
    (hne : ¬((f.takeWhile isDigit).take 3).isEmpty = true) :
    ∃ c rest, f = (f.takeWhile isDigit).take 3 ++ c :: rest := by
  have hprefix : (f.takeWhile isDigit).take 3 <+: f :=
    (List.take_prefix 3 _).trans (List.takeWhile_prefix isDigit)
  obtain ⟨_ | ⟨c, rest⟩, hrest⟩ := hprefix
  · -- then the field is what was taken, and that is a number
    have hfield := isField_take_takeWhile hne
    rw [← List.append_nil ((f.takeWhile isDigit).take 3), hrest] at hfield
    exact absurd hfield hbad
  · exact ⟨c, rest, hrest.symm⟩

theorem isEmpty_take_takeWhile (htoken : IsToken f) :
    ((f.takeWhile isDigit).take 3).isEmpty = !f.head?.any isDigit := by
  obtain _ | ⟨c, f⟩ := f
  · exact absurd rfl htoken.1
  · cases hc : isDigit c <;> simp [hc]

/-- Behind a number that goes on, nothing else can be meant. -/
theorem terminatorDefect_of_not_isStop {last : Bool} {c : Char} (hc : ¬IsStop c) :
    terminatorDefect last (some c) = .malformedNumber := by
  obtain ⟨hspace, hbracket⟩ := not_or.mp hc
  unfold terminatorDefect
  split
  · next h => exact absurd (Option.some_inj.mp h) hbracket
  · next h => exact absurd (Option.some_inj.mp h) hspace
  · rfl

/-- A field that is no number is blamed, whatever stands behind it. -/
theorem readFields_bad (htoken : IsToken f) (hbad : ¬IsField f)
    (hstop : ∀ c ∈ after.head?, IsStop c) :
    readFields (count + 1) position (' ' :: (f ++ after)) =
      .error ⟨String.ofList f, fieldDefect f, some (position + 1)⟩ := by
  have hfirst := isEmpty_take_takeWhile htoken
  have hgoesOn := exists_rest_of_not_isField hbad
  rw [readFields, ← terminator]
  simp only [takeWhile_isDigit_append hstop, htoken.tokenAt_eq hstop, fieldDefect]
  generalize (f.takeWhile isDigit).take 3 = number at hfirst hgoesOn ⊢
  cases hempty : number.isEmpty with
  | true =>
    have hnone : f.head?.any isDigit = false := by simpa [hempty] using hfirst
    simp only [hnone, if_true, Bool.false_eq_true, if_false]
  | false =>
    have hsome : f.head?.any isDigit = true := by simpa [hempty] using hfirst
    -- the number is followed by something of the field, which ends no number
    obtain ⟨c, rest, rfl⟩ := hgoesOn (by simp [hempty])
    have hc : c ∈ number ++ c :: rest := List.mem_append_right _ List.mem_cons_self
    have hnext : ((number ++ c :: rest ++ after).drop number.length).head? = some c := by
      rw [List.append_assoc, List.drop_left]
      rfl
    have hwrong : some c ≠ some (terminator count) :=
      fun h => htoken.ne_terminator hc count (Option.some_inj.mp h)
    simp only [hsome, hnext, Bool.false_eq_true, if_false, if_true, if_pos hwrong,
      terminatorDefect_of_not_isStop (htoken.not_isStop hc)]

/-- A number is blamed for the character behind it, if it is the wrong one. -/
theorem readFields_unended (hf : IsField f) {c : Char} (hafter : after.head? = some c)
    (hc : IsStop c) (hne : c ≠ terminator count) :
    readFields (count + 1) position (' ' :: (f ++ after)) =
      .error ⟨String.ofList f, terminatorDefect (count == 0) (some c), some (position + 1)⟩ := by
  have hstop : ∀ d ∈ after.head?, IsStop d := by
    intro d hd
    rw [hafter] at hd
    exact Option.some_inj.mp hd ▸ hc
  have htake : ((f ++ after).takeWhile isDigit).take 3 = f :=
    take_takeWhile_field hf fun d hd => isDigit_of_isStop (hstop d hd)
  have hnil : f.isEmpty = false := List.isEmpty_eq_false_iff.mpr hf.ne_nil
  have hwrong : some c ≠ some (terminator count) := fun h => hne (Option.some_inj.mp h)
  rw [readFields, ← terminator]
  simp only [htake, hnil, List.drop_left, hafter, Bool.false_eq_true, if_false, if_pos hwrong,
    hf.isToken.tokenAt_eq hstop]

end Field

/-! ### The whole text -/

instance {f : List Char} : Decidable (IsField f) :=
  inferInstanceAs (Decidable (isNumeral f = true ∧ f.length ≤ 3))

/-- The text in front of a field, with the fields that stand before it. -/
def opening (negative : Bool) (before : List (List Char)) : List Char :=
  'L' :: 'M' :: 'C' :: '[' :: (if negative then 'N' else 'P') ::
    (before.flatMap (' ' :: ·) ++ [' '])

section Frame

variable {negative : Bool} {before after : List (List Char)} {f : List Char} {e : Error}

/-- What stands behind the fields in front. -/
theorem layout_append :
    layout negative (before ++ f :: after) =
      opening negative before ++ f ++ (after.flatMap (' ' :: ·) ++ [']']) := by
  simp [layout, opening]

theorem length_opening :
    (opening negative before).length = 5 + (before.flatMap (' ' :: ·)).length + 1 := by
  rw [opening]
  simp only [List.length_cons, List.length_append, List.length_nil]
  omega

/-- Whatever fields there are, a stop stands in front of the rest of them. -/
theorem isStop_head? : ∀ c ∈ (after.flatMap (' ' :: ·) ++ [']']).head?, IsStop c := by
  cases after with
  | nil =>
    rintro c ⟨⟩
    exact .inr rfl
  | cons g after =>
    rintro c ⟨⟩
    exact .inl rfl

/-- Numbers in front of a field do not change what is wrong from there on. -/
theorem readFields_after {count position : Nat} {rest : List Char}
    (hbefore : ∀ g ∈ before, IsField g)
    (h : readFields (count + 1) (position + (before.flatMap (' ' :: ·)).length) (' ' :: rest) =
      .error e) :
    readFields (before.length + (count + 1)) position (before.flatMap (' ' :: ·) ++ ' ' :: rest) =
      .error e := by
  induction before generalizing position with
  | nil => simpa using h
  | cons g before ih =>
    obtain ⟨hg, hlater⟩ := List.forall_mem_cons.mp hbefore
    have hmore : (g :: before).length + (count + 1) = before.length + (count + 1) + 1 := by
      rw [List.length_cons]
      omega
    -- there is more to come, so the space of the next field is what has to stand behind this one
    have hnext : (before.flatMap (' ' :: ·) ++ ' ' :: rest).head? =
        some (terminator (before.length + (count + 1))) := by
      cases before <;> rfl
    have hlater : readFields (before.length + (count + 1)) (position + 1 + g.length)
        (before.flatMap (' ' :: ·) ++ ' ' :: rest) = .error e := by
      refine ih hlater ?_
      rw [List.flatMap_cons, List.length_append, List.length_cons] at h
      rwa [show position + 1 + g.length + (before.flatMap (' ' :: ·)).length =
        position + (g.length + 1 + (before.flatMap (' ' :: ·)).length) by omega]
    rw [hmore, List.flatMap_cons, List.cons_append, List.cons_append, List.append_assoc,
      readFields_isField hg hnext, hlater]

/-- What is wrong with a field behind numbers is wrong with the text. -/
theorem decodeText_of_readFields {count : Nat} (hcount : before.length + (count + 1) = 102)
    (hbefore : ∀ g ∈ before, IsField g)
    (h : readFields (count + 1) (5 + (before.flatMap (' ' :: ·)).length)
      (' ' :: (f ++ (after.flatMap (' ' :: ·) ++ [']']))) = .error e) :
    decodeText (String.ofList (layout negative (before ++ f :: after))) = .error e := by
  have hblank : AllBlank [] := fun c hc => absurd hc (by simp)
  have htrim := trim_layout negative (before ++ f :: after) hblank hblank
  rw [List.nil_append, List.append_nil] at htrim
  have hbody : (before ++ f :: after).flatMap (' ' :: ·) ++ [']'] =
      before.flatMap (' ' :: ·) ++ ' ' :: (f ++ (after.flatMap (' ' :: ·) ++ [']'])) := by
    simp
  have hread := readFields_after hbefore h
  rw [hcount] at hread
  have hflag : ¬((if negative then 'N' else 'P') ≠ 'P' ∧
      (if negative then 'N' else 'P') ≠ 'N') := by
    cases negative <;> decide
  rw [decodeText, String.toList_ofList, htrim, layout, hbody]
  simp only [decodeBody, if_neg hflag, hread]

/-- The first field that is no number is blamed, in full and at its offset. -/
theorem decodeText_bad (hlength : before.length < 102) (hbefore : ∀ g ∈ before, IsField g)
    (htoken : IsToken f) (hbad : ¬IsField f) :
    decodeText (String.ofList (layout negative (before ++ f :: after))) =
      .error ⟨String.ofList f, fieldDefect f, some (opening negative before).length⟩ := by
  rw [length_opening]
  have hcount : before.length + (101 - before.length + 1) = 102 := by omega
  exact decodeText_of_readFields hcount hbefore (readFields_bad htoken hbad isStop_head?)

/-- Too few fields, all of them numbers: the last one is blamed. -/
theorem decodeText_tooFew (hlength : before.length < 101) (hbefore : ∀ g ∈ before, IsField g)
    (hf : IsField f) :
    decodeText (String.ofList (layout negative (before ++ [f]))) =
      .error ⟨String.ofList f, .tooFew, some (opening negative before).length⟩ := by
  rw [length_opening]
  obtain ⟨count, hcount⟩ : ∃ count, before.length + (count + 1 + 1) = 102 :=
    ⟨100 - before.length, by omega⟩
  exact decodeText_of_readFields hcount hbefore
    (readFields_unended hf rfl (.inr rfl) (by simp [terminator]))

/-- Too many fields, numbers as far as they are read: the last one that is read is blamed. -/
theorem decodeText_tooMany {g : List Char} (hlength : before.length = 101)
    (hbefore : ∀ g ∈ before, IsField g) (hf : IsField f) :
    decodeText (String.ofList (layout negative (before ++ f :: g :: after))) =
      .error ⟨String.ofList f, .tooMany, some (opening negative before).length⟩ := by
  rw [length_opening]
  have hcount : before.length + (0 + 1) = 102 := by omega
  exact decodeText_of_readFields hcount hbefore (readFields_unended hf rfl (.inl rfl) (by decide))

/-- As many numbers as there should be are read, unless the counter is out of range. -/
theorem exists_decodeText_iff {fields : List (List Char)} (hcount : fields.length = 102)
    (hfields : ∀ f ∈ fields, IsField f) :
    (∃ m, decodeText (String.ofList (layout negative fields)) = .ok m) ↔
      ∀ f ∈ fields.head?, decimal f ≤ 99 := by
  have hblank : AllBlank [] := fun c hc => absurd hc (by simp)
  have htrim := trim_layout negative fields hblank hblank
  rw [List.nil_append, List.append_nil] at htrim
  simp only [decodeText_eq_ok_iff, String.toList_ofList, htrim]
  constructor
  · rintro ⟨m, fields', ⟨hshape, -, hdigits, hcounter⟩, -⟩
    -- fields without spaces can be told from the text
    obtain ⟨-, rfl⟩ := layout_injective (fun f hf => (hfields f hf).not_mem_space)
      (fun f hf => (hdigits f hf).not_mem_space) hshape
    exact hcounter
  · intro hcounter
    have hform : IsForm (layout negative fields) negative fields := ⟨rfl, hcount, hfields, hcounter⟩
    obtain ⟨m, rfl, hvalues⟩ := exists_machine_of_isForm hform
    exact ⟨m, fields, hform, hvalues⟩

end Frame

/-- The first of the fields to be read that is no number, if there is one. -/
theorem exists_first_bad {fields : List (List Char)} (h : ∃ f ∈ fields.take 102, ¬IsField f) :
    ∃ before f after, fields = before ++ f :: after ∧ before.length < 102 ∧
      (∀ g ∈ before, IsField g) ∧ ¬IsField f := by
  obtain ⟨before, f, after, htake, hbefore, hbad⟩ := exists_first_not h
  have hlength := congrArg List.length htake
  rw [List.length_take, List.length_append, List.length_cons] at hlength
  refine ⟨before, f, after ++ fields.drop 102, ?_, by omega, hbefore, hbad⟩
  rw [← List.cons_append, ← List.append_assoc, ← htake, List.take_append_drop]

/-- A text in the frame of a snapshot is judged from the left: the first of its first 102 fields
that is no number is blamed, in full and at its offset; if they are all numbers, their count is, and
of 102 the counter alone can still be refused. -/
theorem decodeText_blames_first (negative : Bool) {fields : List (List Char)} (hne : fields ≠ [])
    (htokens : ∀ f ∈ fields, IsToken f) :
    ((∃ f ∈ fields.take 102, ¬IsField f) →
      ∃ before f after, fields = before ++ f :: after ∧ before.length < 102 ∧
        (∀ g ∈ before, IsField g) ∧ ¬IsField f ∧
        opening negative before ++ f <+: layout negative fields ∧
        decodeText (String.ofList (layout negative fields)) =
          .error ⟨String.ofList f, fieldDefect f, some (opening negative before).length⟩) ∧
    ((∀ f ∈ fields.take 102, IsField f) →
      (fields.length < 102 → ∃ e, decodeText (String.ofList (layout negative fields)) = .error e ∧
        e.defect.reason = "too few values") ∧
      (102 < fields.length → ∃ e, decodeText (String.ofList (layout negative fields)) = .error e ∧
        e.defect.reason = "too many values") ∧
      (fields.length = 102 →
        ((∃ m, decodeText (String.ofList (layout negative fields)) = .ok m) ↔
          ∀ f ∈ fields.head?, decimal f ≤ 99))) := by
  constructor
  · intro hsome
    obtain ⟨before, f, after, rfl, hlength, hbefore, hbad⟩ := exists_first_bad hsome
    refine ⟨before, f, after, rfl, hlength, hbefore, hbad, ?_, ?_⟩
    · rw [layout_append]
      exact List.prefix_append _ _
    · exact decodeText_bad hlength hbefore (htokens f (by simp)) hbad
  · intro hgood
    refine ⟨fun hfew => ?_, fun hmany => ?_, fun hcount => ?_⟩
    · rw [List.take_of_length_le (Nat.le_of_lt hfew)] at hgood
      obtain ⟨before, f, rfl⟩ : ∃ before f, fields = before ++ [f] :=
        ⟨_, _, (List.dropLast_append_getLast hne).symm⟩
      rw [List.length_append, List.length_singleton] at hfew
      exact ⟨_, decodeText_tooFew (by omega) (fun g hg => hgood g (by simp [hg]))
        (hgood f (by simp)), rfl⟩
    · -- the fields up to the last that is read, and at least one more behind it
      obtain ⟨before, f, g, after, rfl, hlength⟩ : ∃ before f g after,
          fields = before ++ f :: g :: after ∧ before.length = 101 := by
        refine ⟨fields.take 101, fields[101], fields[102], fields.drop 103, ?_, by simp; omega⟩
        rw [← List.drop_eq_getElem_cons, ← List.drop_eq_getElem_cons, List.take_append_drop]
      have htake : (before ++ f :: g :: after).take 102 = before ++ [f] := by
        rw [List.take_append, hlength, List.take_of_length_le (by omega)]
        rfl
      rw [htake] at hgood
      exact ⟨_, decodeText_tooMany hlength (fun g hg => hgood g (by simp [hg]))
        (hgood f (by simp)), rfl⟩
    · rw [List.take_of_length_le (Nat.le_of_eq hcount)] at hgood
      exact exists_decodeText_iff hcount hgood

/-- A field of four digits stands between a good one and one that starts with no digit: the four
digits are blamed, at their offset. -/
theorem decodeText_blames_four_digits :
    decodeText "LMC[P 7 1234 x]" = .error ⟨"1234", .malformedNumber, some 8⟩ := by
  obtain ⟨before, f, after, hfields, -, hbefore, hbad, -, hread⟩ :=
    (decodeText_blames_first false (List.cons_ne_nil "7".toList ["1234".toList, "x".toList])
      (by unfold IsToken; decide)).1 ⟨"1234".toList, by decide, by decide⟩
  rcases before with _ | ⟨g, _ | ⟨g', before⟩⟩
  · -- the first field is a number
    obtain rfl : "7".toList = f := (List.cons.inj hfields).1
    exact absurd (by decide) hbad
  · obtain ⟨rfl, hlater⟩ := List.cons.inj hfields
    obtain rfl : "1234".toList = f := (List.cons.inj hlater).1
    exact hread
  · -- a number in front of the blamed one cannot have four digits
    obtain ⟨-, hlater⟩ := List.cons.inj hfields
    obtain rfl : "1234".toList = g' := (List.cons.inj hlater).1
    exact absurd (hbefore "1234".toList (by simp)) (by decide)

end LittleMan.Snapshot
