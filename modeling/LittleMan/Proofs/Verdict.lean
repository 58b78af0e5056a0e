/-
Which sources assemble, and which error stops the others.

Only the first hundred lines of code are looked at. The first pass stops at the earliest of them
that cannot be read or whose tag was defined before; if there is none, the second pass stops at the
earliest whose statement has no word. So a fault of the first pass goes before one of the second,
also if its line comes later.

* `FirstPassFault`, `SecondPassFault`: what each pass has to say against the line at an index;
* `Acceptable`: the rules that a source has to keep, and `Stopped`: the error if it does not;
* `earliest_of_survey`, `stopped_of_finish`: each pass fails with that error;
* `assemble_verdict`: so an assembly succeeds or fails by these rules alone.
-/
import LittleMan.Proofs.Faults
namespace LittleMan

open Text

/-! ### The rules -/

/-- The statements that lines are read as; lines that cannot be read are passed over. -/
def readable (filename : String) (ls : List (String × Nat)) : List Statement :=
  ls.filterMap fun l => (Statement.parse l.1 l.2 filename).toOption.join

/-- A line of code does not fit behind some statements, for this error: it cannot be read, or it
carries the tag of one of them. -/
inductive Unfit (filename : String) (ss : List Statement) (l : String × Nat) :
    SourceError → Prop where
  | unreadable {e : SourceError} (h : Statement.Unreadable filename l e) : Unfit filename ss l e
  | duplicateTag {s first : Statement} {t : String} (hs : Statement.Reads filename l s)
      (ht : s.tag = some t) (hfirst : ss.find? (·.tag == some t) = some first) :
      Unfit filename ss l ⟨.duplicateTag t (some first.location), some s.location, some s.text⟩

/-- The line at an index does not fit behind the lines before it. -/
def FirstPassFault (filename : String) (ls : List (String × Nat)) (i : Nat) (e : SourceError) :
    Prop :=
  ∃ l, ls[i]? = some l ∧ Unfit filename (readable filename (ls.take i)) l e

/-- The statement on the line at an index has no word, the tags of all lines being known. -/
def SecondPassFault (filename : String) (ls : List (String × Nat)) (i : Nat) (e : SourceError) :
    Prop :=
  ∃ l s, ls[i]? = some l ∧ Statement.Reads filename l s ∧
    s.Wordless (Draft.tagsOf (readable filename ls)) e

/-- The fault of the earliest line that has one. -/
def Earliest (fault : Nat → SourceError → Prop) (e : SourceError) : Prop :=
  ∃ i, fault i e ∧ ∀ j < i, ∀ e', ¬fault j e'

/-- The error that stops an assembly of these lines of code. -/
inductive Stopped (filename : String) (ls : List (String × Nat)) (e : SourceError) : Prop where
  | first (h : Earliest (FirstPassFault filename ls) e)
  | second (hnone : ∀ i e', ¬FirstPassFault filename ls i e')
      (h : Earliest (SecondPassFault filename ls) e)

/-- Lines of code that can be assembled. -/
structure Acceptable (filename : String) (ls : List (String × Nat)) : Prop where
  read : ∀ l ∈ ls, ∃ s, Statement.Reads filename l s
  distinct : (Draft.tagsOf (readable filename ls)).Nodup
  words : ∀ s ∈ readable filename ls, s.HasWord (Draft.tagsOf (readable filename ls))

section Rules

variable {filename : String} {ls : List (String × Nat)} {ss : List Statement} {l : String × Nat}
  {e e' : SourceError} {i : Nat}

theorem readable_of_reads (h : List.Forall₂ (Statement.Reads filename) ls ss) :
    readable filename ls = ss := by
  induction h with
  | nil => rfl
  | @cons l s ls ss hs _ ih =>
    have hparse : Statement.parse l.1 l.2 filename = .ok (some s) := hs
    rw [readable, List.filterMap_cons_some (b := s) (by rw [hparse]; rfl), ← readable, ih]

theorem reads_readable (h : ∀ l ∈ ls, ∃ s, Statement.Reads filename l s) :
    List.Forall₂ (Statement.Reads filename) ls (readable filename ls) := by
  have hall : ∃ ss, List.Forall₂ (Statement.Reads filename) ls ss := by
    induction ls with
    | nil => exact ⟨[], .nil⟩
    | cons l ls ih =>
      obtain ⟨s, hs⟩ := h l List.mem_cons_self
      obtain ⟨ss, hss⟩ := ih fun m hm => h m (List.mem_cons_of_mem l hm)
      exact ⟨s :: ss, .cons hs hss⟩
  obtain ⟨ss, hss⟩ := hall
  rw [readable_of_reads hss]
  exact hss

/-! ### Errors are determined -/

theorem Statement.Unreadable.unique (h : Statement.Unreadable filename l e)
    (h' : Statement.Unreadable filename l e') : e = e' :=
  Except.error.inj
    ((Statement.parse_eq_error_iff.mpr h).symm.trans (Statement.parse_eq_error_iff.mpr h'))

theorem Statement.Reads.unique {s s' : Statement} (h : Statement.Reads filename l s)
    (h' : Statement.Reads filename l s') : s = s' :=
  Option.some_inj.mp (Except.ok.inj (h.symm.trans h'))

theorem Unfit.unique (h : Unfit filename ss l e) (h' : Unfit filename ss l e') : e = e' := by
  cases h with
  | unreadable h =>
    cases h' with
    | unreadable h' => exact h.unique h'
    | duplicateTag hs' _ _ => exact absurd hs' (h.not_reads _)
  | duplicateTag hs ht hfirst =>
    cases h' with
    | unreadable h' => exact absurd hs (h'.not_reads _)
    | duplicateTag hs' ht' hfirst' =>
      obtain rfl := hs.unique hs'
      obtain rfl := Option.some_inj.mp (ht.symm.trans ht')
      obtain rfl := Option.some_inj.mp (hfirst.symm.trans hfirst')
      rfl

theorem FirstPassFault.unique (h : FirstPassFault filename ls i e)
    (h' : FirstPassFault filename ls i e') : e = e' := by
  obtain ⟨l, hl, hunfit⟩ := h
  obtain ⟨l', hl', hunfit'⟩ := h'
  obtain rfl := Option.some_inj.mp (hl.symm.trans hl')
  exact hunfit.unique hunfit'

theorem SecondPassFault.unique (h : SecondPassFault filename ls i e)
    (h' : SecondPassFault filename ls i e') : e = e' := by
  obtain ⟨l, s, hl, hs, hfault⟩ := h
  obtain ⟨l', s', hl', hs', hfault'⟩ := h'
  obtain rfl := Option.some_inj.mp (hl.symm.trans hl')
  obtain rfl := hs.unique hs'
  exact hfault.unique hfault'

/-- Of two indices with a fault and none before, neither is the lower. -/
theorem earliest_index_unique {ε : Type} {fault : Nat → ε → Prop} {j : Nat} {x x' : ε}
    (hi : fault i x) (hbefore : ∀ k < i, ∀ y, ¬fault k y) (hj : fault j x')
    (hbefore' : ∀ k < j, ∀ y, ¬fault k y) : i = j := by
  rcases Nat.lt_trichotomy i j with hlt | heq | hlt
  · exact absurd hi (hbefore' i hlt x)
  · exact heq
  · exact absurd hj (hbefore j hlt x')

theorem Earliest.unique {fault : Nat → SourceError → Prop} (h : Earliest fault e)
    (h' : Earliest fault e') (hunique : ∀ {i e e'}, fault i e → fault i e' → e = e') :
    e = e' := by
  obtain ⟨i, hi, hbefore⟩ := h
  obtain ⟨j, hj, hbefore'⟩ := h'
  obtain rfl := earliest_index_unique hi hbefore hj hbefore'
  exact hunique hi hj

theorem Stopped.unique (h : Stopped filename ls e) (h' : Stopped filename ls e') : e = e' := by
  cases h with
  | first h =>
    cases h' with
    | first h' => exact h.unique h' FirstPassFault.unique
    | second hnone _ =>
      obtain ⟨i, hi, -⟩ := h
      exact absurd hi (hnone i e)
  | second hnone h =>
    cases h' with
    | first h' =>
      obtain ⟨i, hi, -⟩ := h'
      exact absurd hi (hnone i e')
    | second _ h' => exact h.unique h' SecondPassFault.unique

/-! ### Lines that the first pass takes -/

/-- Lines that are read as statements of different tags give the first pass no fault to find. -/
theorem not_firstPassFault (hread : List.Forall₂ (Statement.Reads filename) (ls.take i) ss)
    (hnd : (Draft.tagsOf ss).Nodup) {j : Nat} (hj : j < i) : ¬FirstPassFault filename ls j e := by
  rintro ⟨l, hl, hunfit⟩
  have hlt : (ls.take i)[j]? = some l := by rw [List.getElem?_take_of_lt hj, hl]
  obtain ⟨s, hs, hreads⟩ := exists_getElem?_of_forall₂ hread hlt
  have htake := List.forall₂_take j hread
  rw [List.take_take, Nat.min_eq_left hj.le] at htake
  rw [readable_of_reads htake] at hunfit
  cases hunfit with
  | unreadable h => exact h.not_reads s hreads
  | @duplicateTag _ first _ hreads' ht hfirst =>
    obtain rfl := hreads.unique hreads'
    -- the statement found carries the same tag at a lower index
    obtain ⟨htag, k, hk, heq, -⟩ := List.find?_eq_some_iff_getElem.mp hfirst
    rw [List.length_take] at hk
    have hget : ss[k]? = some first := by
      rw [← heq, List.getElem_take, List.getElem?_eq_getElem]
    have := Draft.index_of_tag_unique hnd hs ht hget (by simpa using htag)
    omega

theorem not_firstPassFault_of_reads (hread : List.Forall₂ (Statement.Reads filename) ls ss)
    (hnd : (Draft.tagsOf ss).Nodup) : ¬FirstPassFault filename ls i e := by
  intro h
  obtain ⟨l, hl, -⟩ := id h
  rw [← List.take_length (l := ls)] at hread
  exact not_firstPassFault hread hnd (List.getElem?_eq_some_iff.mp hl).1 h

theorem Acceptable.not_stopped (h : Acceptable filename ls) : ¬Stopped filename ls e := by
  have hread := reads_readable h.read
  intro hstopped
  cases hstopped with
  | first hfirst =>
    obtain ⟨i, hi, -⟩ := hfirst
    exact not_firstPassFault_of_reads hread h.distinct hi
  | second _ hsecond =>
    obtain ⟨i, ⟨l, s, hl, hs, hfault⟩, -⟩ := hsecond
    obtain ⟨s', hget, hs'⟩ := exists_getElem?_of_forall₂ hread hl
    obtain rfl := hs.unique hs'
    exact (h.words s (List.mem_of_getElem? hget)).not_wordless hfault

end Rules

/-! ### The first pass -/

namespace Draft

/-- A statement that is not added carries the tag of an earlier one. -/
theorem add_eq_error {ss : List Statement} {dropped : Option Nat} {s : Statement} {e : SourceError}
    (hnd : (tagsOf ss).Nodup) (h : (ofStatements ss dropped).add s = .error e) :
    ∃ t first, s.tag = some t ∧ ss.find? (·.tag == some t) = some first ∧
      e = ⟨.duplicateTag t (some first.location), some s.location, some s.text⟩ := by
  rw [add] at h
  split at h
  · exact absurd h (by simp)
  · next t ht =>
    split at h
    · next a ha =>
      obtain ⟨j, u, hj, hu, rfl⟩ := (address?_eq_some_iff hnd).mp ha
      -- the first statement with the tag is the only one
      obtain ⟨first, hfirst⟩ : ∃ first, ss.find? (·.tag == some t) = some first := by
        rw [← Option.isSome_iff_exists, List.find?_isSome]
        exact ⟨u, List.mem_of_getElem? hj, by simp [hu]⟩
      obtain ⟨htag, k, hk, heq, -⟩ := List.find?_eq_some_iff_getElem.mp hfirst
      have hget : ss[k]? = some first := by rw [List.getElem?_eq_getElem hk, heq]
      obtain rfl := index_of_tag_unique hnd hj hu hget (by simpa using htag)
      obtain rfl := Option.some_inj.mp (hj.symm.trans hget)
      refine ⟨t, u, ht, hfirst, ?_⟩
      rw [← Except.error.inj h, Int.toNat_natCast, ofStatements, hj]
      rfl
    · exact absurd h (by simp)

/-- If the pass stops although there is room for a line of code, the line does not fit, or it is
taken and the pass stops later. -/
theorem of_surveyFrom_room {raw : String} (h : Statement.isCode (Statement.stripNewline raw))
    (filename : String) (number : Nat) (rest : List String) {ss : List Statement}
    (hss : ss.length < 100) (hnd : (tagsOf ss).Nodup) {e : SourceError}
    (herror : surveyFrom filename number (raw :: rest) (ofStatements ss none) = .error e) :
    Unfit filename ss (Statement.stripNewline raw, number) e ∨
      ∃ s, Statement.Reads filename (Statement.stripNewline raw, number) s ∧
        (∀ t ∈ s.tag, t ∉ tagsOf ss) ∧
        surveyFrom filename (number + 1) rest (ofStatements (ss ++ [s]) none) = .error e := by
  have hroom : ¬(ofStatements ss none).statements.length ≥ 100 := Nat.not_le.mpr hss
  rw [surveyFrom] at herror
  simp only [h, Bool.not_true, Bool.false_eq_true, if_false, if_neg hroom] at herror
  rcases Statement.reads_or_unreadable (l := (Statement.stripNewline raw, number)) h filename with
    ⟨s, hs⟩ | ⟨e', he'⟩
  · have hparse : Statement.parse (Statement.stripNewline raw) number filename = .ok (some s) := hs
    rw [hparse] at herror
    cases ha : (ofStatements ss none).add s with
    | error e' =>
      simp only [ha] at herror
      obtain rfl := Except.error.inj herror
      obtain ⟨t, first, ht, hfirst, rfl⟩ := add_eq_error hnd ha
      exact .inl (.duplicateTag hs ht hfirst)
    | ok next =>
      simp only [ha] at herror
      obtain ⟨ht, rfl⟩ := add_eq_ok_iff.mp ha
      exact .inr ⟨s, hs, ht, herror⟩
  · have hparse : Statement.parse (Statement.stripNewline raw) number filename = .error e' :=
      Statement.parse_eq_error_iff (l := (Statement.stripNewline raw, number)).mpr he'
    rw [hparse] at herror
    obtain rfl := Except.error.inj herror
    exact .inl (.unreadable he')

/-- Where the first pass stops, the lines before were taken, and the line does not fit. -/
theorem unfit_of_surveyFrom (filename : String) (lines : List String) {e : SourceError} :
    ∀ (number : Nat) (ss : List Statement), ss.length ≤ 100 → (tagsOf ss).Nodup →
      surveyFrom filename number lines (ofStatements ss none) = .error e →
      ∃ i l more, ((codeLines number lines).take (100 - ss.length))[i]? = some l ∧
        List.Forall₂ (Statement.Reads filename)
          (((codeLines number lines).take (100 - ss.length)).take i) more ∧
        (tagsOf (ss ++ more)).Nodup ∧ Unfit filename (ss ++ more) l e := by
  induction lines with
  | nil =>
    intro number ss _ _ h
    exact absurd h (by simp [surveyFrom])
  | cons raw rest ih =>
    intro number ss hfit hnd h
    cases hcode : Statement.isCode (Statement.stripNewline raw) with
    | false =>
      rw [surveyFrom_blank hcode] at h
      rw [codeLines_cons_of_blank hcode]
      exact ih (number + 1) ss hfit hnd h
    | true =>
      rcases Nat.lt_or_ge ss.length 100 with hlt | hge
      · obtain ⟨k, hk⟩ : ∃ k, 100 - ss.length = k + 1 := ⟨99 - ss.length, by omega⟩
        rw [codeLines_cons_of_code hcode, hk, List.take_succ_cons]
        rcases of_surveyFrom_room hcode filename number rest hlt hnd h with hunfit | ⟨s, hs, ht, h⟩
        · -- it is this line that does not fit
          refine ⟨0, _, [], List.getElem?_cons_zero, .nil, ?_⟩
          rw [List.append_nil]
          exact ⟨hnd, hunfit⟩
        · have hlength : (ss ++ [s]).length = ss.length + 1 := by simp
          have hk' : 100 - (ss ++ [s]).length = k := by omega
          obtain ⟨i, l, more, hl, hread, hnd', hunfit⟩ := ih (number + 1) (ss ++ [s]) (by omega)
            (nodup_tagsOf_snoc.mpr ⟨hnd, ht⟩) h
          rw [hk'] at hl hread
          rw [List.append_assoc, List.singleton_append] at hnd' hunfit
          refine ⟨i + 1, l, s :: more, ?_, ?_, hnd', hunfit⟩
          · rw [List.getElem?_cons_succ]
            exact hl
          · rw [List.take_succ_cons]
            exact .cons hs hread
      · rw [surveyFrom_full hcode filename number rest hge] at h
        exact absurd h (by simp)

end Draft

theorem earliest_of_survey {filename : String} {lines : List String} {e : SourceError}
    (h : Draft.survey filename lines = .error e) :
    Earliest (FirstPassFault filename ((codeLines 1 lines).take 100)) e := by
  obtain ⟨i, l, more, hl, hread, hnd, hunfit⟩ :=
    Draft.unfit_of_surveyFrom filename lines 1 [] (Nat.zero_le 100) List.nodup_nil h
  rw [List.length_nil, Nat.sub_zero] at hl hread
  rw [List.nil_append] at hnd hunfit
  refine ⟨i, ⟨l, hl, ?_⟩, fun j hj e' => not_firstPassFault hread hnd hj⟩
  rw [readable_of_reads hread]
  exact hunfit

/-! ### The second pass -/

/-- If a draft is not finished, a statement is refused, and those before it have their words. -/
theorem exists_of_finish_error {filename : String} {ls : List (String × Nat)} {ss : List Statement}
    {dropped : Option Nat} {x : AssemblyError}
    (hread : List.Forall₂ (Statement.Reads filename) ls ss)
    (h : (Draft.ofStatements ss dropped).finish filename = .error x) :
    ∃ (i : Nat) (l : String × Nat) (s : Statement), ls[i]? = some l ∧
      Statement.Reads filename l s ∧ s.encode (Draft.ofStatements ss dropped).tags = .error x ∧
      ∀ j < i, ∀ l u, ls[j]? = some l → Statement.Reads filename l u →
        ∃ w, u.encode (Draft.ofStatements ss dropped).tags = .ok w := by
  have herror : ss.mapM (Statement.encode (Draft.ofStatements ss dropped).tags) = .error x := by
    rw [Draft.finish] at h
    change (ss.mapM (Statement.encode (Draft.ofStatements ss dropped).tags) >>= _) = _ at h
    cases hm : ss.mapM (Statement.encode (Draft.ofStatements ss dropped).tags) with
    | error x' =>
      rw [hm] at h
      exact congrArg Except.error (Except.error.inj h)
    | ok words =>
      rw [hm] at h
      exact absurd h (by simp [bind, Except.bind, pure, Except.pure])
  obtain ⟨before, s, after, rfl, hbefore, hs⟩ := mapM_eq_error_iff.mp herror
  have hlt : before.length < ls.length := by
    rw [hread.length_eq, List.length_append, List.length_cons]
    omega
  have hget := hread.get hlt (by rw [List.length_append, List.length_cons]; omega)
  refine ⟨before.length, ls[before.length], s, List.getElem?_eq_getElem hlt, by simpa using hget,
    hs, ?_⟩
  intro j hj l u hl hu
  obtain ⟨u', hget, hu'⟩ := exists_getElem?_of_forall₂ hread hl
  obtain rfl := hu.unique hu'
  rw [List.getElem?_append_left hj] at hget
  exact hbefore u (List.mem_of_getElem? hget)

/-- The statements of a draft that is not finished have a word up to the one that has none. -/
theorem stopped_of_finish {filename : String} {ls : List (String × Nat)} {ss : List Statement}
    {dropped : Option Nat} {x : AssemblyError}
    (hread : List.Forall₂ (Statement.Reads filename) ls ss) (hnd : (Draft.tagsOf ss).Nodup)
    (hshort : ∀ s ∈ ss, s.HasShortLiteral)
    (h : (Draft.ofStatements ss dropped).finish filename = .error x) :
    ∃ e, x = .source e ∧ Stopped filename ls e := by
  have hmem : ∀ {j : Nat} {l u}, ls[j]? = some l → Statement.Reads filename l u → u ∈ ss := by
    intro j l u hl hu
    obtain ⟨u', hget, hu'⟩ := exists_getElem?_of_forall₂ hread hl
    rw [hu.unique hu']
    exact List.mem_of_getElem? hget
  obtain ⟨i, l, s, hl, hs, hencode, hbefore⟩ := exists_of_finish_error hread h
  obtain ⟨e, rfl, hfault⟩ :=
    (Statement.encode_eq_error_iff (hshort s (hmem hl hs))).mp hencode
  rw [Draft.names_ofStatements, ← readable_of_reads hread] at hfault
  refine ⟨e, rfl, .second (fun i e' => not_firstPassFault_of_reads hread hnd)
    ⟨i, ⟨l, s, hl, hs, hfault⟩, ?_⟩⟩
  -- the statements before have a word
  rintro j hj e' ⟨l', u, hl', hu, hfault'⟩
  have hword := (Statement.exists_encode_iff (hshort u (hmem hl' hu))).mp (hbefore j hj l' u hl' hu)
  rw [Draft.names_ofStatements, ← readable_of_reads hread] at hword
  exact hword.not_wordless hfault'

/-! ### Whole assemblies -/

/-- What both passes say against a line, they say about this line. -/
theorem located_of_fault {filename : String} {ls : List (String × Nat)} {i : Nat} {e : SourceError}
    (h : FirstPassFault filename ls i e ∨ SecondPassFault filename ls i e) :
    ∃ l fault column, ls[i]? = some l ∧ e = ⟨fault, some ⟨filename, l.2, column⟩, some l.1⟩ := by
  have hreads : ∀ {l s}, Statement.Reads filename l s →
      s.text = l.1 ∧ s.location = ⟨filename, l.2, s.location.column⟩ := by
    intro l s hs
    obtain ⟨_, _, _, _, _, _, rfl⟩ := Statement.parse_eq_some_iff.mp hs
    exact ⟨rfl, rfl⟩
  rcases h with ⟨l, hl, hunfit⟩ | ⟨l, s, hl, hs, hfault⟩
  · cases hunfit with
    | unreadable h => cases h <;> exact ⟨l, _, _, hl, rfl⟩
    | duplicateTag hs _ _ =>
      obtain ⟨htext, hlocation⟩ := hreads hs
      exact ⟨l, _, _, hl, by rw [htext, hlocation]⟩
  · obtain ⟨htext, hlocation⟩ := hreads hs
    cases hfault with
    | missingOperand _ _ => exact ⟨l, _, _, hl, by rw [htext, hlocation]⟩
    | literalOutOfRange _ ho _ =>
      rw [Statement.operandLocation, ho, htext, hlocation]
      exact ⟨l, _, _, hl, rfl⟩
    | undefinedTag _ ho _ =>
      rw [Statement.operandLocation, ho, htext, hlocation]
      exact ⟨l, _, _, hl, rfl⟩

section Verdict

variable {lines : List String} {filename : String}

theorem acceptable_of_assemble
    (hshort : ∀ s ∈ readable filename ((codeLines 1 lines).take 100), s.HasShortLiteral)
    {p : Program} (h : assemble lines filename = .ok p) :
    Acceptable filename ((codeLines 1 lines).take 100) := by
  have hp := assemble_eq_ok_iff.mp h
  have hreadable := readable_of_reads hp.read
  refine ⟨fun l hl => ?_, ?_, fun s hs => ?_⟩
  · obtain ⟨i, hi⟩ := List.mem_iff_getElem?.mp hl
    obtain ⟨s, -, hs⟩ := exists_getElem?_of_forall₂ hp.read hi
    exact ⟨s, hs⟩
  · rw [hreadable]
    exact hp.distinct
  · obtain ⟨words, hwords, -⟩ := hp.exists_words
    have hword := hshort s hs
    rw [hreadable] at hs ⊢
    obtain ⟨i, hi⟩ := List.mem_iff_getElem?.mp hs
    obtain ⟨w, -, hw⟩ := exists_getElem?_of_forall₂ hwords hi
    rw [← hp.names]
    exact (Statement.exists_encode_iff hword).mp ⟨w, hw⟩

theorem stopped_of_assemble
    (hshort : ∀ s ∈ readable filename ((codeLines 1 lines).take 100), s.HasShortLiteral)
    {x : AssemblyError} (h : assemble lines filename = .error x) :
    ∃ e, x = .source e ∧ Stopped filename ((codeLines 1 lines).take 100) e := by
  rw [assemble] at h
  cases hs : Draft.survey filename lines with
  | error e =>
    rw [hs] at h
    exact ⟨e, (Except.error.inj h).symm, .first (earliest_of_survey hs)⟩
  | ok d =>
    rw [hs] at h
    obtain ⟨ss, hread, hnd, rfl⟩ := Draft.survey_eq_ok_iff.mp hs
    rw [readable_of_reads hread] at hshort
    exact stopped_of_finish hread hnd hshort h

/-- A source assembles if its first hundred lines of code keep to the rules. If not, the error is
that of the earliest line that the first pass finds fault with, and only if there is none that of the
earliest line that the second pass does; every fault tells of its line. -/
theorem assemble_verdict
    (hshort : ∀ s ∈ readable filename ((codeLines 1 lines).take 100), s.HasShortLiteral) :
    ((∃ p, assemble lines filename = .ok p) ↔
        Acceptable filename ((codeLines 1 lines).take 100)) ∧
      (∀ x, assemble lines filename = .error x ↔
        ∃ e, x = .source e ∧ Stopped filename ((codeLines 1 lines).take 100) e) ∧
      ∀ i e, FirstPassFault filename ((codeLines 1 lines).take 100) i e ∨
          SecondPassFault filename ((codeLines 1 lines).take 100) i e →
        ∃ l fault column, ((codeLines 1 lines).take 100)[i]? = some l ∧
          e = ⟨fault, some ⟨filename, l.2, column⟩, some l.1⟩ := by
  refine ⟨⟨?_, ?_⟩, fun x => ⟨stopped_of_assemble hshort, ?_⟩, fun i e => located_of_fault⟩
  · rintro ⟨p, hp⟩
    exact acceptable_of_assemble hshort hp
  · intro hacceptable
    cases h : assemble lines filename with
    | ok p => exact ⟨p, rfl⟩
    | error x =>
      obtain ⟨e, -, hstopped⟩ := stopped_of_assemble hshort h
      exact absurd hstopped hacceptable.not_stopped
  · rintro ⟨e, rfl, hstopped⟩
    cases h : assemble lines filename with
    | ok p => exact absurd hstopped (acceptable_of_assemble hshort h).not_stopped
    | error x =>
      obtain ⟨e', rfl, hstopped'⟩ := stopped_of_assemble hshort h
      rw [hstopped.unique hstopped']

end Verdict

/-- The tag of the first line is not defined, but what counts is that of the last, which is defined
twice. -/
def twiceDefined : List String := ["\tLDA nowhere", "a HLT", "", "b DAT 1000", "a OUT # again"]

theorem assemble_verdict_twice_defined :
    (∀ s ∈ readable "f" ((codeLines 1 twiceDefined).take 100), s.HasShortLiteral) ∧
      assemble twiceDefined "f" = .error (.source ⟨.duplicateTag "a" (some ⟨"f", 2, 3⟩),
        some ⟨"f", 5, 3⟩, some "a OUT # again"⟩) ∧
      Stopped "f" ((codeLines 1 twiceDefined).take 100) ⟨.duplicateTag "a" (some ⟨"f", 2, 3⟩),
        some ⟨"f", 5, 3⟩, some "a OUT # again"⟩ := by
  have hshort : ∀ s ∈ readable "f" ((codeLines 1 twiceDefined).take 100), s.HasShortLiteral := by
    decide +kernel
  have herror : assemble twiceDefined "f" = .error (.source
      ⟨.duplicateTag "a" (some ⟨"f", 2, 3⟩), some ⟨"f", 5, 3⟩, some "a OUT # again"⟩) := by
    decide +kernel
  obtain ⟨e, he, hstopped⟩ := ((assemble_verdict hshort).2.1 _).mp herror
  obtain rfl := AssemblyError.source.inj he
  exact ⟨hshort, herror, hstopped⟩

end LittleMan
