/-
The text snapshot is an exact form: what has it is read, what does not is refused, and what is
written is read as it was.

A text is laid out from a flag and a list of fields. The reader is inverted first, one field at a
time: at most three digits are taken, so a field ends where the next character is none. Written
numbers need not be fields, since a register may hold anything; but fields are told apart by their
spaces alone, so a machine out of range never comes back as another one. A register of too many
digits has no text, and then nothing is written.

* `IsForm`: the form of a text snapshot;
* `decodeText_eq_ok_iff`: a text is read if it has the form, as the machine of its numbers;
* `encodeText_of_writable`, `encodeText_of_not_writable`: the text of a machine, if its registers
  have texts;
* `decodeText_textOf_iff`: what is written is read as it was, if it was in range;
* `encodeText_of_decodeText`: what is read and written again has its fields filled with zeros;
* `decodeText_exact`: all of this together.
-/
import LittleMan.Proofs.Machine
import LittleMan.Proofs.Text.Decimal
import LittleMan.Snapshot.Text
namespace LittleMan.Snapshot

open Text

/-- A number as it may stand in a text snapshot: one to three digits. -/
def IsField (f : List Char) : Prop := isNumeral f = true ∧ f.length ≤ 3

/-- The text of a flag and fields, each field after one space. -/
def layout (negative : Bool) (fields : List (List Char)) : List Char :=
  'L' :: 'M' :: 'C' :: '[' :: (if negative then 'N' else 'P') ::
    (fields.flatMap (' ' :: ·) ++ [']'])

/-- A text snapshot with this flag and these fields. -/
structure IsForm (cs : List Char) (negative : Bool) (fields : List (List Char)) : Prop where
  shape : cs = layout negative fields
  /-- Two registers and a hundred words. -/
  count : fields.length = 102
  digits : ∀ f ∈ fields, IsField f
  /-- The program counter comes first. -/
  counter : ∀ f ∈ fields.head?, decimal f ≤ 99

namespace IsField

variable {f : List Char}

theorem all_isDigit (h : IsField f) : ∀ c ∈ f, isDigit c = true := isDigit_of_isNumeral h.1

theorem ne_nil (h : IsField f) : f ≠ [] := by
  rintro rfl
  exact absurd h.1 (by decide)

theorem not_mem_space (h : IsField f) : ' ' ∉ f :=
  fun hm => absurd (h.all_isDigit ' ' hm) (by decide)

theorem digitsValue_le (h : IsField f) : digitsValue f ≤ 999 := by
  have hlt := digitsValue_lt h.all_isDigit
  have hpow : 10 ^ f.length ≤ 10 ^ 3 := Nat.pow_le_pow_right (by decide) h.2
  omega

end IsField

/-! ### Reading fields -/

/-- What has to stand behind a field with so many more to come. -/
def terminator (count : Nat) : Char := if count == 0 then ']' else ' '

theorem isDigit_terminator (count : Nat) : isDigit (terminator count) = false := by
  rw [terminator]
  split <;> decide

theorem isField_take_takeWhile {cs : List Char}
    (hne : ¬((cs.takeWhile isDigit).take 3).isEmpty = true) :
    IsField ((cs.takeWhile isDigit).take 3) := by
  refine ⟨?_, List.length_take_le 3 _⟩
  rw [isNumeral, Bool.and_eq_true, Bool.not_eq_true', List.all_eq_true]
  exact ⟨Bool.eq_false_iff.mpr hne, fun c hc => List.mem_takeWhile_imp (List.mem_of_mem_take hc)⟩

/-- At most three digits are taken, so a field ends where the next character is none. -/
theorem take_takeWhile_field {f after : List Char} (hf : IsField f)
    (hstop : ∀ c ∈ after.head?, isDigit c = false) :
    ((f ++ after).takeWhile isDigit).take 3 = f := by
  rw [(takeWhile_append_stop hf.all_isDigit hstop).1, List.take_of_length_le hf.2]

/-- A field in front of the right character is read, and what follows decides. -/
theorem readFields_isField {count position : Nat} {f after : List Char} (hf : IsField f)
    (hafter : after.head? = some (terminator count)) :
    readFields (count + 1) position (' ' :: (f ++ after)) =
      match readFields count (position + 1 + f.length) after with
      | .error e => .error e
      | .ok (later, rest) => .ok (digitsValue f :: later, rest) := by
  have htake : ((f ++ after).takeWhile isDigit).take 3 = f := by
    refine take_takeWhile_field hf fun c hc => ?_
    rw [hafter] at hc
    rw [← Option.some_inj.mp hc, isDigit_terminator]
  have hne : f.isEmpty = false := List.isEmpty_eq_false_iff.mpr hf.ne_nil
  rw [readFields, ← terminator]
  cases hread : readFields count (position + 1 + f.length) after <;>
    simp only [htake, hne, List.drop_left, hafter, hread, Bool.false_eq_true, if_false, ne_eq,
      not_true_eq_false]

theorem readFields_field {count position : Nat} {f after : List Char} {later : List Nat}
    {tail : Nat × List Char} (hf : IsField f) (hafter : after.head? = some (terminator count))
    (hread : readFields count (position + 1 + f.length) after = .ok (later, tail)) :
    readFields (count + 1) position (' ' :: (f ++ after)) = .ok (digitsValue f :: later, tail) := by
  rw [readFields_isField hf hafter, hread]

theorem exists_field_of_readFields {count position : Nat} {cs : List Char} {numbers : List Nat}
    {tail : Nat × List Char} (h : readFields (count + 1) position cs = .ok (numbers, tail)) :
    ∃ f after later next, IsField f ∧ after.head? = some (terminator count) ∧
      cs = ' ' :: (f ++ after) ∧ numbers = digitsValue f :: later ∧
      readFields count next after = .ok (later, tail) := by
  rw [readFields.eq_def] at h
  split at h
  · omega
  · next body hcount =>
    obtain rfl := Nat.succ.inj hcount
    dsimp only at h
    rw [← terminator] at h
    have hprefix : (body.takeWhile isDigit).take 3 <+: body :=
      (List.take_prefix 3 _).trans (List.takeWhile_prefix isDigit)
    split at h
    · exact absurd h (by simp)
    · next hne =>
      split at h
      · exact absurd h (by simp)
      · next hterminator =>
        split at h
        · exact absurd h (by simp)
        · next later rest hread =>
          obtain ⟨rfl, rfl⟩ := Prod.mk.inj (Except.ok.inj h)
          refine ⟨_, _, later, _, isField_take_takeWhile hne, Classical.not_not.mp hterminator,
            ?_, rfl, hread⟩
          rw [List.prefix_iff_eq_append.mp hprefix]
  · exact absurd h (by simp)

/-- What was read is made of fields, each after one space and the last in front of the bracket. -/
theorem exists_fields_of_readFields {count position next : Nat} {cs rest : List Char}
    {numbers : List Nat} (h : readFields count position cs = .ok (numbers, next, rest)) :
    (count ≠ 0 → rest.head? = some ']') ∧ ∃ fields : List (List Char), fields.length = count ∧
      (∀ f ∈ fields, IsField f) ∧ numbers = fields.map digitsValue ∧
      cs = fields.flatMap (' ' :: ·) ++ rest := by
  induction count generalizing position cs numbers with
  | zero =>
    rw [readFields] at h
    obtain ⟨rfl, -, rfl⟩ : [] = numbers ∧ position = next ∧ cs = rest := by simpa using h
    exact ⟨fun h0 => absurd rfl h0, [], rfl, by simp, rfl, rfl⟩
  | succ count ih =>
    obtain ⟨f, after, later, _, hf, hafter, rfl, rfl, hread⟩ := exists_field_of_readFields h
    obtain ⟨hrest, fields, hlen, hfields, rfl, rfl⟩ := ih hread
    refine ⟨fun _ => ?_, f :: fields, by rw [List.length_cons, hlen], ?_, rfl, ?_⟩
    · rcases Nat.eq_zero_or_pos count with rfl | hpos
      · -- the field just read was the last one
        rw [List.eq_nil_of_length_eq_zero hlen] at hafter
        exact hafter
      · exact hrest (Nat.ne_of_gt hpos)
    · exact List.forall_mem_cons.mpr ⟨hf, hfields⟩
    · rw [List.flatMap_cons, List.cons_append, List.cons_append, List.append_assoc]

theorem readFields_fields {fields : List (List Char)} {rest : List Char}
    (hfields : ∀ f ∈ fields, IsField f) (hrest : rest.head? = some ']') (position : Nat) :
    ∃ next, readFields fields.length position (fields.flatMap (' ' :: ·) ++ rest) =
      .ok (fields.map digitsValue, next, rest) := by
  induction fields generalizing position with
  | nil => exact ⟨position, rfl⟩
  | cons f fields ih =>
    obtain ⟨hf, hlater⟩ := List.forall_mem_cons.mp hfields
    obtain ⟨next, hread⟩ := ih hlater (position + 1 + f.length)
    have hafter : (fields.flatMap (' ' :: ·) ++ rest).head? = some (terminator fields.length) := by
      cases fields with
      | nil => exact hrest
      | cons g fields => rfl
    refine ⟨next, ?_⟩
    rw [List.flatMap_cons, List.cons_append, List.cons_append, List.append_assoc]
    exact readFields_field hf hafter hread

/-! ### Reading snapshots -/

/-- A machine is its flag and its numbers. -/
theorem eq_of_values {m n : Machine} (hnegative : m.negative = n.negative)
    (h : values m = values n) : m = n := by
  obtain ⟨hpc, htail⟩ := List.cons.inj h
  obtain ⟨haccumulator, hwords⟩ := List.cons.inj htail
  have hval : Function.Injective fun w : Word => (w.val : Int) :=
    fun v w hvw => Fin.ext (Int.ofNat_inj.mp hvw)
  have hmemory := Memory.toList_injective (List.map_injective_iff.mpr hval hwords)
  cases m
  cases n
  simp_all

theorem values_ofWords {pc accumulator : Int} {words : List Nat} {negative : Bool}
    (hlen : words.length = 100) (hle : ∀ n ∈ words, n ≤ 999) :
    values { memory := .ofWords (words.map Word.wrap), pc, accumulator, negative } =
      pc :: accumulator :: words.map fun n : Nat => (n : Int) := by
  rw [values, Memory.toList_ofWords (by rw [List.length_map, hlen]), List.map_map]
  -- the words are in range, so none of them goes round
  refine congrArg (pc :: accumulator :: ·) (List.map_congr_left fun n hn => ?_)
  rw [Function.comp_apply, Word.wrap_val (hle n hn)]

/-- The machine of a flag and of fields. -/
theorem ofValues_eq_ok_iff {negative : Bool} {fields : List (List Char)} {m : Machine}
    (hcount : fields.length = 102) (hfields : ∀ f ∈ fields, IsField f) :
    ofValues negative (fields.map digitsValue) = .ok m ↔
      (∀ f ∈ fields.head?, decimal f ≤ 99) ∧ m.negative = negative ∧
        values m = fields.map fun f : List Char => (decimal f : Int) := by
  rcases fields with _ | ⟨f, _ | ⟨g, fields⟩⟩
  · exact absurd hcount (by simp)
  · exact absurd hcount (by simp)
  · have hlen : (fields.map digitsValue).length = 100 := by simpa using hcount
    have hle : ∀ n ∈ fields.map digitsValue, n ≤ 999 := by
      intro n hn
      obtain ⟨e, he, rfl⟩ := List.mem_map.mp hn
      exact (hfields e (by simp [he])).digitsValue_le
    have hvalues : (f :: g :: fields).map (fun e : List Char => (decimal e : Int)) =
        (digitsValue f : Int) :: (digitsValue g : Int) ::
          (fields.map digitsValue).map fun n : Nat => (n : Int) := by
      simp only [List.map_cons, List.map_map, Function.comp_def, digitsValue_eq_decimal]
    rw [List.map_cons, List.map_cons, ofValues, hvalues]
    simp only [List.head?_cons, Option.mem_some_iff, forall_eq', ← digitsValue_eq_decimal]
    constructor
    · intro h
      split at h
      · exact absurd h (by simp)
      · next hpc =>
        obtain rfl := Except.ok.inj h
        exact ⟨by omega, rfl, values_ofWords hlen hle⟩
    · rintro ⟨hpc, rfl, hm⟩
      rw [if_neg (by omega)]
      exact congrArg Except.ok (eq_of_values rfl ((values_ofWords hlen hle).trans hm.symm))

theorem flag_eq_iff {flag : Char} {negative : Bool} (h : flag = 'P' ∨ flag = 'N') :
    flag = (if negative then 'N' else 'P') ↔ negative = (flag == 'N') := by
  rcases h with rfl | rfl <;> cases negative <;> decide

/-- What follows the opening bracket. -/
theorem decodeBody_eq_ok_iff {body : List Char} {m : Machine} :
    decodeBody body = .ok m ↔ ∃ fields : List (List Char),
      body = (if m.negative then 'N' else 'P') :: (fields.flatMap (' ' :: ·) ++ [']']) ∧
      fields.length = 102 ∧ (∀ f ∈ fields, IsField f) ∧ (∀ f ∈ fields.head?, decimal f ≤ 99) ∧
      values m = fields.map fun f : List Char => (decimal f : Int) := by
  constructor
  · intro h
    rcases body with _ | ⟨flag, body⟩
    · exact absurd h (by simp [decodeBody])
    rw [decodeBody] at h
    split at h
    · exact absurd h (by simp)
    · next hflag =>
      split at h
      · exact absurd h (by simp)
      · next numbers position rest hread =>
        split at h
        · exact absurd h (by simp)
        · next hrest =>
          obtain ⟨-, fields, hcount, hfields, rfl, rfl⟩ := exists_fields_of_readFields hread
          obtain ⟨hcounter, hnegative, hvalues⟩ := (ofValues_eq_ok_iff hcount hfields).mp h
          refine ⟨fields, ?_, hcount, hfields, hcounter, hvalues⟩
          rw [(flag_eq_iff (by tauto)).mpr hnegative, Classical.not_not.mp hrest]
  · rintro ⟨fields, rfl, hcount, hfields, hcounter, hvalues⟩
    obtain ⟨next, hread⟩ := readFields_fields hfields (List.head?_cons (l := [])) 5
    have hflag : (if m.negative then 'N' else 'P') = 'P' ∨
        (if m.negative then 'N' else 'P') = 'N' := by
      cases m.negative <;> decide
    rw [hcount] at hread
    rw [decodeBody, if_neg (by tauto), hread]
    refine (if_neg (by simp)).trans ?_
    exact (ofValues_eq_ok_iff hcount hfields).mpr ⟨hcounter, (flag_eq_iff hflag).mp rfl, hvalues⟩

/-- A text is read if it has the form, and then as the machine of its flag and its numbers. -/
theorem decodeText_eq_ok_iff {t : String} {m : Machine} :
    decodeText t = .ok m ↔ ∃ fields, IsForm (trim t.toList) m.negative fields ∧
      values m = fields.map fun f : List Char => (decimal f : Int) := by
  rw [decodeText]
  constructor
  · intro h
    split at h
    · next body hcs =>
      obtain ⟨fields, rfl, hcount, hfields, hcounter, hvalues⟩ := decodeBody_eq_ok_iff.mp h
      exact ⟨fields, ⟨hcs, hcount, hfields, hcounter⟩, hvalues⟩
    · exact absurd h (by simp)
  · rintro ⟨fields, ⟨hshape, hcount, hfields, hcounter⟩, hvalues⟩
    rw [hshape]
    exact decodeBody_eq_ok_iff.mpr ⟨fields, rfl, hcount, hfields, hcounter, hvalues⟩

/-- There is a machine for every form. -/
theorem exists_machine_of_isForm {cs : List Char} {negative : Bool} {fields : List (List Char)}
    (h : IsForm cs negative fields) :
    ∃ m : Machine, m.negative = negative ∧
      values m = fields.map fun f : List Char => (decimal f : Int) := by
  obtain ⟨-, hcount, hfields, hcounter⟩ := h
  obtain ⟨m, hm⟩ : ∃ m, ofValues negative (fields.map digitsValue) = .ok m := by
    rcases fields with _ | ⟨f, _ | ⟨g, fields⟩⟩
    · exact absurd hcount (by simp)
    · exact absurd hcount (by simp)
    · have hf := hcounter f rfl
      rw [← digitsValue_eq_decimal] at hf
      exact ⟨_, if_neg (by omega)⟩
  exact ⟨m, ((ofValues_eq_ok_iff hcount hfields).mp hm).2⟩

/-- Whatever a text describes is in range. -/
theorem inRange_of_decodeText {text : String} {m : Machine} (h : decodeText text = .ok m) :
    m.InRange := by
  obtain ⟨fields, hform, hvalues⟩ := decodeText_eq_ok_iff.mp h
  obtain ⟨-, hcount, hdigits, hcounter⟩ := hform
  rcases fields with _ | ⟨f, _ | ⟨g, fields⟩⟩
  · exact absurd hcount (by simp)
  · exact absurd hcount (by simp)
  · obtain ⟨hpc, htail⟩ := List.cons.inj hvalues
    obtain ⟨haccumulator, -⟩ := List.cons.inj htail
    have hf := hcounter f rfl
    have hg := (hdigits g (by simp)).digitsValue_le
    rw [digitsValue_eq_decimal] at hg
    rw [Machine.InRange, hpc, haccumulator]
    dsimp only
    omega

/-! ### Writing -/

theorem toList_intercalate_space {texts : List String} (h : texts ≠ []) :
    ' ' :: (" ".intercalate texts).toList = (texts.map String.toList).flatMap (' ' :: ·) := by
  induction texts with
  | nil => exact absurd rfl h
  | cons t texts ih =>
    cases texts with
    | nil => simp
    | cons u texts =>
      have hu := ih (by simp)
      rw [String.intercalate_cons_cons, String.toList_append, String.toList_append, List.map_cons,
        List.flatMap_cons, ← hu]
      simp

/-- The fields that the numbers of a machine are written as, words or not. -/
def writtenFields (m : Machine) : List (List Char) :=
  (values m).map fun v => (padded 3 v).toList

/-- What is written of a machine. -/
def textOf (m : Machine) : String := String.ofList (layout m.negative (writtenFields m))

/-- The registers of a machine have texts. -/
def Writable (m : Machine) : Prop := HasText m.pc ∧ HasText m.accumulator

theorem writable_of_inRange {m : Machine} (h : m.InRange) : Writable m := Machine.InRange.hasText h

/-- Words always have a text. -/
theorem forall_hasText_values_iff {m : Machine} :
    (∀ v ∈ values m, HasText v) ↔ Writable m := by
  simp only [values, List.forall_mem_cons, Writable, ← and_assoc]
  refine and_iff_left fun v hv => ?_
  obtain ⟨w, -, rfl⟩ := List.mem_map.mp hv
  exact hasText_of_isWord (Machine.isWord_val w)

theorem encodeText_of_writable {m : Machine} (h : Writable m) : encodeText m = .ok (textOf m) := by
  have hne : (values m).map (padded 3) ≠ [] := by simp [values]
  have hfields := toList_intercalate_space hne
  rw [encodeText, mapM_written, if_pos (forall_hasText_values_iff.mpr h)]
  refine congrArg Except.ok (String.toList_injective ?_)
  rw [List.map_map] at hfields
  rw [textOf, String.toList_ofList, layout, writtenFields]
  simp only [String.toList_append, Function.comp_def] at hfields ⊢
  rw [← hfields]
  cases m.negative <;> simp

theorem encodeText_of_not_writable {m : Machine} (h : ¬Writable m) : encodeText m = .error {} := by
  rw [encodeText, mapM_written, if_neg fun hvalues => h (forall_hasText_values_iff.mp hvalues)]
  rfl

theorem encodeText_of_inRange {m : Machine} (h : m.InRange) : encodeText m = .ok (textOf m) :=
  encodeText_of_writable (writable_of_inRange h)

/-- Fields are told apart by the spaces in front of them. -/
theorem flatMap_space_injective {fs gs : List (List Char)} (hf : ∀ f ∈ fs, ' ' ∉ f)
    (hg : ∀ g ∈ gs, ' ' ∉ g) (h : fs.flatMap (' ' :: ·) = gs.flatMap (' ' :: ·)) : fs = gs := by
  -- up to the next space there is one field
  have hfirst : ∀ {f : List Char} {later : List (List Char)}, ' ' ∉ f →
      (f ++ later.flatMap (' ' :: ·)).takeWhile (· ≠ ' ') = f := by
    intro f later hne
    have hf : ∀ c ∈ f, decide (c ≠ ' ') = true := by
      intro c hc
      rw [decide_eq_true_eq]
      rintro rfl
      exact hne hc
    exact (takeWhile_append_stop hf (by cases later <;> simp)).1
  induction fs generalizing gs with
  | nil =>
    cases gs with
    | nil => rfl
    | cons g gs => exact absurd h (by simp)
  | cons f fs ih =>
    cases gs with
    | nil => exact absurd h (by simp)
    | cons g gs =>
      obtain ⟨hf0, hfs⟩ := List.forall_mem_cons.mp hf
      obtain ⟨hg0, hgs⟩ := List.forall_mem_cons.mp hg
      rw [List.flatMap_cons, List.flatMap_cons, List.cons_append, List.cons_append] at h
      have htail := (List.cons.inj h).2
      have hfg : f = g := by rw [← hfirst hf0, htail, hfirst hg0]
      subst hfg
      rw [ih hfs hgs (List.append_cancel_left htail)]

theorem layout_injective {b c : Bool} {fs gs : List (List Char)} (hf : ∀ f ∈ fs, ' ' ∉ f)
    (hg : ∀ g ∈ gs, ' ' ∉ g) (h : layout b fs = layout c gs) : b = c ∧ fs = gs := by
  simp only [layout, List.cons.injEq, true_and] at h
  refine ⟨?_, flatMap_space_injective hf hg (List.append_cancel_right h.2)⟩
  cases b <;> cases c <;> simp at h ⊢

theorem not_mem_space_padded (v : Int) : ' ' ∉ (padded 3 v).toList := fun hm =>
  (forall_mem_padded ' ' hm).elim (fun h => absurd h (by decide)) fun h => absurd h (by decide)

theorem not_mem_space_writtenFields {m : Machine} : ∀ f ∈ writtenFields m, ' ' ∉ f := by
  intro f hf
  obtain ⟨v, -, rfl⟩ := List.mem_map.mp hf
  exact not_mem_space_padded v

/-- Only a word is written as a field: a sign is no digit, and a larger number takes more. -/
theorem isField_padded_iff {v : Int} : IsField (padded 3 v).toList ↔ 0 ≤ v ∧ v ≤ 999 := by
  rcases lt_or_ge v 0 with h | h
  · refine iff_of_false (fun hf => ?_) (by omega)
    rw [toList_padded_neg h] at hf
    exact absurd (hf.all_isDigit '-' List.mem_cons_self) (by decide)
  · obtain ⟨n, rfl⟩ := Int.eq_ofNat_of_zero_le h
    constructor
    · intro hf
      have := hf.digitsValue_le
      rw [digitsValue_padded] at this
      omega
    · rintro ⟨-, hn⟩
      exact ⟨isNumeral_padded 3 n, Nat.le_of_eq (length_padded (by decide) (by omega))⟩

theorem decimal_padded {v : Int} (h : 0 ≤ v) : (decimal (padded 3 v).toList : Int) = v := by
  obtain ⟨n, rfl⟩ := Int.eq_ofNat_of_zero_le h
  rw [← digitsValue_eq_decimal, digitsValue_padded]

theorem map_decimal_writtenFields {m : Machine} (h : ∀ v ∈ values m, 0 ≤ v) :
    (writtenFields m).map (fun f : List Char => (decimal f : Int)) = values m := by
  rw [writtenFields, List.map_map]
  exact (List.map_congr_left fun v hv => decimal_padded (h v hv)).trans (List.map_id _)

theorem isWord_of_mem_values {m : Machine} (h : m.InRange) {v : Int} (hv : v ∈ values m) :
    0 ≤ v ∧ v ≤ 999 := by
  obtain ⟨⟨hpc0, hpc⟩, ha⟩ := h
  rcases List.mem_cons.mp hv with rfl | hv
  · omega
  rcases List.mem_cons.mp hv with rfl | hv
  · exact ha
  obtain ⟨w, -, rfl⟩ := List.mem_map.mp hv
  have := w.isLt
  omega

/-- A machine in range is written in the form. -/
theorem isForm_textOf {m : Machine} (h : m.InRange) :
    IsForm (textOf m).toList m.negative (writtenFields m) where
  shape := String.toList_ofList
  count := by simp [writtenFields, values, Memory.length_toList]
  digits f hf := by
    obtain ⟨v, hv, rfl⟩ := List.mem_map.mp hf
    exact isField_padded_iff.mpr (isWord_of_mem_values h hv)
  counter f hf := by
    obtain ⟨⟨hpc0, hpc⟩, -⟩ := h
    obtain rfl : (padded 3 m.pc).toList = f := Option.some_inj.mp hf
    have := decimal_padded hpc0
    omega

theorem trim_layout (negative : Bool) (fields : List (List Char)) {before after : List Char}
    (hb : AllBlank before) (ha : AllBlank after) :
    trim (before ++ layout negative fields ++ after) = layout negative fields := by
  have hlast : (layout negative fields).getLast? = some ']' :=
    List.getLast?_concat (l := 'L' :: 'M' :: 'C' :: '[' :: (if negative then 'N' else 'P') ::
      fields.flatMap (' ' :: ·))
  refine trim_append_blanks hb ha ?_ ?_ ?_
  · exact List.cons_ne_nil _ _
  · rintro c ⟨⟩
    rfl
  · rw [hlast]
    rintro c ⟨⟩
    rfl

theorem trim_textOf (m : Machine) {before after : String} (hb : AllBlank before.toList)
    (ha : AllBlank after.toList) :
    trim (before ++ textOf m ++ after).toList = (textOf m).toList := by
  rw [String.toList_append, String.toList_append, textOf, String.toList_ofList,
    trim_layout _ _ hb ha]

/-- Written with any blanks around it, a machine in range is read as it was; one out of range is
not read at all. -/
theorem decodeText_textOf_iff {m n : Machine} {before after : String}
    (hb : AllBlank before.toList) (ha : AllBlank after.toList) :
    decodeText (before ++ textOf m ++ after) = .ok n ↔ m.InRange ∧ n = m := by
  rw [decodeText_eq_ok_iff, trim_textOf m hb ha]
  constructor
  · rintro ⟨fields, hform, hvalues⟩
    have hdigits := hform.digits
    have hshape : layout n.negative fields = layout m.negative (writtenFields m) :=
      hform.shape.symm.trans String.toList_ofList
    obtain ⟨hnegative, rfl⟩ := layout_injective (fun f hf => (hdigits f hf).not_mem_space)
      not_mem_space_writtenFields hshape
    -- only words are written as fields
    have hwords : ∀ v ∈ values m, 0 ≤ v ∧ v ≤ 999 :=
      fun v hv => isField_padded_iff.mp (hdigits _ (List.mem_map_of_mem hv))
    obtain ⟨hpc0, -⟩ := hwords m.pc (by simp [values])
    have hcounter : decimal (padded 3 m.pc).toList ≤ 99 := hform.counter _ rfl
    have hpc := decimal_padded hpc0
    rw [map_decimal_writtenFields fun v hv => (hwords v hv).1] at hvalues
    exact ⟨⟨⟨hpc0, by omega⟩, hwords m.accumulator (by simp [values])⟩,
      eq_of_values hnegative hvalues⟩
  · rintro ⟨hm, rfl⟩
    exact ⟨_, isForm_textOf hm,
      (map_decimal_writtenFields fun v hv => (isWord_of_mem_values hm hv).1).symm⟩

theorem decodeText_textOf {m : Machine} (hm : m.InRange) : decodeText (textOf m) = .ok m := by
  have hnil : AllBlank "".toList := allBlank_iff.mpr (by decide)
  have hread := (decodeText_textOf_iff hnil hnil).mpr ⟨hm, rfl⟩
  rwa [String.empty_append, String.append_empty] at hread

/-! ### Writing what was read -/

theorem toList_padded_decimal {f : List Char} (hf : IsField f) :
    (padded 3 (decimal f : Int)).toList = zeroFill 3 f := by
  have hlt : decimal f < 10 ^ 3 := by
    have := hf.digitsValue_le
    rw [digitsValue_eq_decimal] at this
    omega
  -- both are numerals of three digits
  refine eq_of_digitsValue_eq (isDigit_of_isNumeral (isNumeral_padded 3 _))
    (isDigit_of_isNumeral (isNumeral_zeroFill hf.1 3)) ?_ ?_
  · have := hf.2
    rw [length_padded (by decide) hlt, zeroFill, List.length_append, List.length_replicate]
    omega
  · rw [digitsValue_padded, digitsValue_zeroFill, digitsValue_eq_decimal]

/-- What is read and written again has its fields filled with zeros, and is otherwise the same. -/
theorem encodeText_of_decodeText {t : String} {m : Machine} {negative : Bool}
    {fields : List (List Char)} (h : decodeText t = .ok m)
    (hform : IsForm (trim t.toList) negative fields) :
    encodeText m = .ok (String.ofList (layout negative (fields.map (zeroFill 3)))) := by
  have hm := inRange_of_decodeText h
  obtain ⟨fields', hform', hvalues⟩ := decodeText_eq_ok_iff.mp h
  obtain ⟨rfl, rfl⟩ := layout_injective (fun f hf => (hform'.digits f hf).not_mem_space)
    (fun f hf => (hform.digits f hf).not_mem_space) (hform'.shape.symm.trans hform.shape)
  have hfields : writtenFields m = fields'.map (zeroFill 3) := by
    rw [writtenFields, hvalues, List.map_map]
    exact List.map_congr_left fun f hf => toList_padded_decimal (hform.digits f hf)
  rw [encodeText_of_inRange hm, textOf, hfields]

/-- The text snapshot is exact: its form is accepted and nothing else, with the numbers that stand
there; what is written is read as it was, or refused if a register was out of range; nothing is
written of a register without a text; and reading and writing only fills the fields with zeros. -/
theorem decodeText_exact :
    (∀ (t : String) (m : Machine), decodeText t = .ok m ↔
      ∃ fields, IsForm (trim t.toList) m.negative fields ∧
        values m = fields.map fun f : List Char => (decimal f : Int)) ∧
    (∀ t : String, (∃ e, decodeText t = .error e) ↔
      ¬∃ negative fields, IsForm (trim t.toList) negative fields) ∧
    (∀ m : Machine,
      (HasText m.pc ∧ HasText m.accumulator → ∃ text, encodeText m = .ok text ∧
        ∀ before after : String, AllBlank before.toList → AllBlank after.toList →
          (m.InRange → decodeText (before ++ text ++ after) = .ok m) ∧
          (¬m.InRange → ∃ e, decodeText (before ++ text ++ after) = .error e)) ∧
      (¬(HasText m.pc ∧ HasText m.accumulator) → encodeText m = .error {})) ∧
    ∀ (t : String) (m : Machine) (negative : Bool) (fields : List (List Char)),
      decodeText t = .ok m → IsForm (trim t.toList) negative fields →
        encodeText m = .ok (String.ofList (layout negative (fields.map (zeroFill 3)))) := by
  refine ⟨fun t m => decodeText_eq_ok_iff, fun t => ?_, fun m => ⟨fun htexts => ?_, ?_⟩,
    fun t m negative fields => encodeText_of_decodeText⟩
  · constructor
    · rintro ⟨e, he⟩ ⟨negative, fields, hform⟩
      obtain ⟨m, rfl, hvalues⟩ := exists_machine_of_isForm hform
      exact absurd (he.symm.trans (decodeText_eq_ok_iff.mpr ⟨fields, hform, hvalues⟩)) (by simp)
    · intro hno
      cases ht : decodeText t with
      | error e => exact ⟨e, rfl⟩
      | ok m =>
        obtain ⟨fields, hform, -⟩ := decodeText_eq_ok_iff.mp ht
        exact absurd ⟨m.negative, fields, hform⟩ hno
  · refine ⟨_, encodeText_of_writable htexts, fun before after hb ha => ⟨fun hm => ?_, fun hm => ?_⟩⟩
    · exact (decodeText_textOf_iff hb ha).mpr ⟨hm, rfl⟩
    · cases ht : decodeText (before ++ textOf m ++ after) with
      | error e => exact ⟨e, rfl⟩
      | ok n => exact absurd ((decodeText_textOf_iff hb ha).mp ht).1 hm
  · exact encodeText_of_not_writable

/-- A text whose fields are as short as can be. -/
def shortFields : List (List Char) := ['9', '9'] :: List.replicate 101 ['0']

/-- Blanks around the text, a counter at the last box and one past it, and short fields. -/
theorem decodeText_at_last_box :
    (∃ text, encodeText { pc := 99, accumulator := 7, negative := true } = .ok text ∧
      decodeText ("\t " ++ text ++ "\r\n") =
        .ok { pc := 99, accumulator := 7, negative := true }) ∧
    (∃ text e, encodeText { pc := 100, accumulator := 7 } = .ok text ∧
      decodeText ("\t " ++ text ++ "\r\n") = .error e) ∧
    encodeText { pc := 99 } =
      .ok (String.ofList (layout false (shortFields.map (zeroFill 3)))) := by
  have hb : AllBlank "\t ".toList := allBlank_iff.mpr (by decide)
  have ha : AllBlank "\r\n".toList := allBlank_iff.mpr (by decide)
  have htrim : trim (String.ofList (layout false shortFields)).toList =
      layout false shortFields := by
    have hnil : AllBlank [] := fun c hc => absurd hc (by simp)
    rw [String.toList_ofList]
    simpa only [List.nil_append, List.append_nil] using trim_layout false shortFields hnil hnil
  have hform : IsForm (trim (String.ofList (layout false shortFields)).toList) false shortFields :=
    ⟨htrim, by decide, by unfold IsField; decide, by decide⟩
  have hread : decodeText (String.ofList (layout false shortFields)) = .ok { pc := 99 } :=
    decodeText_eq_ok_iff.mpr ⟨shortFields, hform, by decide⟩
  obtain ⟨-, -, hwritten, hrewritten⟩ := decodeText_exact
  obtain ⟨last, hlast, hdecoded⟩ :=
    (hwritten { pc := 99, accumulator := 7, negative := true }).1 (by decide +kernel)
  obtain ⟨past, hpast, hrefused⟩ := (hwritten { pc := 100, accumulator := 7 }).1 (by decide +kernel)
  obtain ⟨e, he⟩ := (hrefused _ _ hb ha).2 (by decide)
  exact ⟨⟨last, hlast, (hdecoded _ _ hb ha).1 (by decide)⟩, ⟨past, e, hpast, he⟩,
    hrewritten _ _ _ _ hread hform⟩

/-- An accumulator out of range that is not even written, so that there is nothing to be refused. -/
theorem encodeText_of_leastUnwritten :
    ¬({ accumulator := leastUnwritten } : Machine).InRange ∧
      encodeText { accumulator := leastUnwritten } = .error {} ∧
      ¬∃ text e, encodeText { accumulator := leastUnwritten } = .ok text ∧
        decodeText text = .error e := by
  have hwritable : ¬Writable { accumulator := leastUnwritten } :=
    fun h => not_hasText_leastUnwritten h.2
  have hnone := encodeText_of_not_writable hwritable
  refine ⟨fun h => hwritable (writable_of_inRange h), hnone, ?_⟩
  rintro ⟨text, e, htext, -⟩
  exact absurd (hnone.symm.trans htext) nofun

end LittleMan.Snapshot
