/-
Points, by which commands name a box, and what becomes of those that name none.

* `Names`: the box that a point names, a number by its last two digits, anything else by its tag;
* `names_or_unknown`, `resolve_of_names`: a point names a box, which is found, or it is unknown;
* `resolve_of_long`: unless it is a numeral of too many digits, which is not even read;
* `execute_of_point`: a command whose point names no box is answered.

A session over an assembled program answers every line that makes no command, and every line whose
point is unknown. The lines that end in an error are those with a numeral that is not read.
-/
import LittleMan.Proofs.Debugger.Rejection
import LittleMan.Proofs.Session
namespace LittleMan.Debugger

open Text

/-! ### What points name -/

/-- The box that a point names. Numbers go round, and a tag that is a number is never looked for. -/
inductive Names (tags : TagTable) (point : String) : Int → Prop where
  | number (hd : isNumeral point.toList = true) :
      Names tags point (decimal point.toList % 100 : Nat)
  | tag {address : Int} (hd : isNumeral point.toList = false)
      (ht : (point, address) ∈ tags.entries) : Names tags point address

/-- A numeral of too many digits. -/
def IsLong (point : String) : Prop :=
  isNumeral point.toList = true ∧ maxNumeralLength < point.toList.length

instance (point : String) : Decidable (IsLong point) := inferInstanceAs (Decidable (_ ∧ _))

section Points

variable {tags : TagTable} {point : String} {address : Int}

theorem Names.bounds (htags : ∀ e ∈ tags.entries, 0 ≤ e.2 ∧ e.2 ≤ 99)
    (h : Names tags point address) : 0 ≤ address ∧ address ≤ 99 := by
  cases h with
  | number _ => omega
  | tag _ ht => exact htags (point, address) ht

theorem names_or_unknown (tags : TagTable) (point : String) :
    (∃ address, Names tags point address) ∨
      isNumeral point.toList = false ∧ point ∉ tags.names := by
  cases hd : isNumeral point.toList with
  | true => exact .inl ⟨_, .number hd⟩
  | false =>
    by_cases ht : point ∈ tags.names
    · obtain ⟨⟨name, address⟩, he, rfl⟩ := List.mem_map.mp ht
      exact .inl ⟨address, .tag hd he⟩
    · exact .inr ⟨rfl, ht⟩

theorem not_names_of_unknown (hd : isNumeral point.toList = false) (ht : point ∉ tags.names) :
    ¬∃ address, Names tags point address := by
  rintro ⟨address, h⟩
  cases h with
  | number hd' => exact absurd (hd'.symm.trans hd) (by simp)
  | tag _ ht' => exact ht (List.mem_map_of_mem ht')

end Points

namespace Session

variable {σ ε α : Type} {h : Host σ ε} {s : Session σ} {point : String} {address : Int}

theorem resolve_of_names (hnd : s.tags.names.Nodup) (hshort : ¬IsLong point)
    (hnames : Names s.tags point address) : s.resolve point = .ok (some address) := by
  cases hnames with
  | number hd =>
    have hle : point.toList.length ≤ maxNumeralLength :=
      Nat.le_of_not_lt fun hlt => hshort ⟨hd, hlt⟩
    rw [resolve, if_pos hd, readNumeral_of_le hle]
    have hwrap : ((Address.wrap (decimal point.toList)).val : Int) =
        (decimal point.toList % 100 : Nat) := by
      rw [Address.wrap_val, Int.natCast_emod]
      rfl
    exact congrArg (fun a => Except.ok (some a)) hwrap
  | tag hd ht =>
    rw [resolve, if_neg (by simp [hd]), TagTable.address?, (lookup_eq_some_iff_mem hnd).mpr ht]

theorem resolve_of_long (hlong : IsLong point) :
    s.resolve point = .error ⟨point.toList.length⟩ := by
  rw [resolve, if_pos hlong.1, readNumeral_of_lt hlong.2]
  rfl

theorem withPoint_of_names (hnd : s.tags.names.Nodup) (hshort : ¬IsLong point)
    (hnames : Names s.tags point address) (unknown : String)
    (next : Int → Except (Error ε) Unit × Session σ) :
    s.withPoint h point unknown next = next address := by
  rw [withPoint, resolve_of_names hnd hshort hnames]

/-- Every command with a point reads it first. -/
theorem execute_of_long {patience : Nat} {line word answer : String} (hlong : IsLong point)
    (hanswer : (word, answer) ∈ pointRefusals point) (hwords : words line = [word, point]) :
    s.execute h patience line = (.error (.numeral ⟨point.toList.length⟩), s) := by
  simp only [pointRefusals, List.mem_cons, List.not_mem_nil, or_false, Prod.mk.injEq] at hanswer
  rcases hanswer with ⟨rfl, rfl⟩ | ⟨rfl, rfl⟩ | ⟨rfl, rfl⟩ <;>
    rw [execute_of_words hwords rfl, perform, withPoint, resolve_of_long hlong]

/-- A command with a point is answered, unless it is carried out for a box. -/
theorem execute_of_point {io : σ → α} {shown : σ → List String} (hobs : h.Observed io shown)
    (htags : ∀ e ∈ s.tags.entries, 0 ≤ e.2 ∧ e.2 ≤ 99) {patience : Nat}
    {line word answer : String} (hanswer : (word, answer) ∈ pointRefusals point)
    (hwords : words line = [word, point]) {done : Int → Session σ → Prop}
    (hdone : ∀ address, Names s.tags point address →
      ∃ t, s.execute h patience line = (.ok (), t) ∧ done address t) :
    ∃ t, s.execute h patience line = (.ok (), t) ∧
      ((∃ address, Names s.tags point address ∧ 0 ≤ address ∧ address ≤ 99 ∧ done address t) ∨
        (¬∃ address, Names s.tags point address) ∧ Leaves io shown s.machine [answer] s t) := by
  rcases names_or_unknown s.tags point with ⟨address, hnames⟩ | ⟨hd, ht⟩
  · obtain ⟨t, hexecute, ht⟩ := hdone address hnames
    have hbounds := hnames.bounds htags
    exact ⟨t, hexecute, .inl ⟨address, hnames, hbounds.1, hbounds.2, ht⟩⟩
  · obtain ⟨t, hexecute, hleaves⟩ :=
      leaves_of_refuses hobs (.unknownPoint hanswer hwords hd ht)
    exact ⟨t, hexecute, .inr ⟨not_names_of_unknown hd ht, hleaves⟩⟩

/-- A line that makes no command is refused for its word or for the number of its arguments. -/
theorem refuses_of_no_command {line name : String} {args : List String}
    (hwords : words line = name :: args)
    (hnone : ¬∃ a ∈ Command.arities, a.word = name ∧ a.Takes args.length) :
    Refuses h s line s ("Unknown command: " ++ String.ofList (trim line.toList)) := by
  by_cases hname : ∃ a ∈ Command.arities, a.word = name
  · obtain ⟨a, ha, rfl⟩ := hname
    exact .wrongCount ha hwords fun htakes => hnone ⟨a, ha, rfl, htakes⟩
  · exact .unknownWord hwords fun a ha hword => hname ⟨a, ha, hword⟩

end Session

open Session

theorem nodup_names_of_assemble {lines : List String} {filename : String} {p : Program}
    (h : assemble lines filename = .ok p) : p.tags.names.Nodup := by
  have hp := assemble_eq_ok_iff.mp h
  rw [hp.names]
  exact hp.distinct

/-- In a session over an assembled program, a line that makes no command is answered, and so is a
line whose point names no box; a point that names a box gives one of the hundred boxes, which is
shown or becomes the next. Nothing else happens. The exception is a point that is a numeral of too
many digits: such a line ends in an error, and nothing is shown. -/
theorem bad_arguments_answered {σ ε α : Type} (h : Host σ ε) {io : σ → α}
    {shown : σ → List String} (hobs : h.Observed io shown) (patience : Nat) {lines : List String}
    {filename : String} {p : Program} (hp : assemble lines filename = .ok p) (s : Session σ)
    (htags : s.tags = p.tags) (line : String) :
    (∀ name args, words line = name :: args →
      (¬∃ a ∈ Command.arities, a.word = name ∧ a.Takes args.length) →
        ∃ t, s.execute h patience line = (.ok (), t) ∧ Leaves io shown s.machine
          ["Unknown command: " ++ String.ofList (trim line.toList)] s t) ∧
    (∀ point, words line = ["var", point] → ¬IsLong point →
      ∃ t, s.execute h patience line = (.ok (), t) ∧
        ((∃ address, Names p.tags point address ∧ 0 ≤ address ∧ address ≤ 99 ∧
            Leaves io shown s.machine [s.boxLine address (s.labelFor point address)] s t) ∨
          (¬∃ address, Names p.tags point address) ∧
            Leaves io shown s.machine ["No such tag " ++ point] s t)) ∧
    (∀ point, words line = ["br", point] → ¬IsLong point →
      ∃ t, s.execute h patience line = (.ok (), t) ∧
        ((∃ address, Names p.tags point address ∧ 0 ≤ address ∧ address ≤ 99 ∧
            Leaves io shown { s.machine with pc := address } [] s t) ∨
          (¬∃ address, Names p.tags point address) ∧ Leaves io shown s.machine
            ["Unknown target: " ++ point ++ ". Enter address or label."] s t)) ∧
    ∀ word answer point, (word, answer) ∈ pointRefusals point → words line = [word, point] →
      IsLong point →
        s.execute h patience line = (.error (.numeral ⟨point.toList.length⟩), s) := by
  have hnd : s.tags.names.Nodup := htags ▸ nodup_names_of_assemble hp
  have hbounds : ∀ e ∈ s.tags.entries, 0 ≤ e.2 ∧ e.2 ≤ 99 := htags ▸ tags_of_assemble hp
  rw [← htags]
  refine ⟨fun name args hwords hnone => leaves_of_refuses hobs (refuses_of_no_command hwords hnone),
    fun point hwords hshort => ?_, fun point hwords hshort => ?_,
    fun word answer point hanswer hwords hlong => execute_of_long hlong hanswer hwords⟩
  · refine execute_of_point hobs hbounds (by simp [pointRefusals]) hwords fun address hnames => ?_
    refine ⟨s.echo h (s.boxLine address (s.labelFor point address)), ?_,
      (Leaves.refl s).echo hobs _⟩
    rw [execute_of_words hwords rfl, perform, withPoint_of_names hnd hshort hnames]
  · refine execute_of_point hobs hbounds (by simp [pointRefusals]) hwords fun address hnames => ?_
    refine ⟨s.withMachine { s.machine with pc := address }, ?_, (Leaves.refl s).withMachine _⟩
    rw [execute_of_words hwords rfl, perform, withPoint_of_names hnd hshort hnames]

/-- A session over a program that has one tag. -/
def overOneTag : Session Rehearsal :=
  { execution := { machine := {}, world := {} }, tags := ⟨[("a", 0)]⟩ }

theorem exists_program_of_one_tag :
    ∃ p, assemble ["a HLT"] "f" = .ok p ∧ overOneTag.tags = p.tags := by
  obtain ⟨p, hp⟩ := exists_of_isOk (show (assemble ["a HLT"] "f").isOk = true by decide +kernel)
  have htags : (assemble ["a HLT"] "f").toOption.map Program.tags = some overOneTag.tags := by
    decide +kernel
  rw [hp] at htags
  exact ⟨p, hp, (Option.some_inj.mp htags).symm⟩

theorem bad_arguments_answered_one_tag :
    (∃ t, overOneTag.execute Rehearsal.host 0 "vars x" = (.ok (), t) ∧
      Leaves (fun w => w.tape) (fun w => w.echoed.toList) {} ["Unknown command: vars x"]
        overOneTag t) ∧
    ∃ t, overOneTag.execute Rehearsal.host 0 "br 1234" = (.ok (), t) ∧
      Leaves (fun w => w.tape) (fun w => w.echoed.toList) { pc := 34 } [] overOneTag t := by
  obtain ⟨p, hp, htags⟩ := exists_program_of_one_tag
  have hvars : words "vars x" = ["vars", "x"] := by decide +kernel
  have hbranch : words "br 1234" = ["br", "1234"] := by decide +kernel
  have hnumeral : isNumeral "1234".toList = true := by decide +kernel
  have hanswered (line : String) := bad_arguments_answered Rehearsal.host Rehearsal.host_observed 0
    hp overOneTag htags line
  refine ⟨(hanswered "vars x").1 "vars" ["x"] hvars (by decide), ?_⟩
  obtain ⟨t, hexecute, ⟨address, hnames, -, -, hleaves⟩ | ⟨hnone, -⟩⟩ :=
    (hanswered "br 1234").2.2.1 "1234" hbranch (by decide +kernel)
  · have haddress : address = 34 := by
      cases hnames with
      | number _ => decide
      | tag hd _ => exact absurd (hnumeral.symm.trans hd) (by simp)
    exact ⟨t, hexecute, haddress ▸ hleaves⟩
  · exact absurd ⟨_, .number hnumeral⟩ hnone

/-! ### A point that is not read -/

theorem words_of_two {word point : String} (hword : IsWord word.toList)
    (hpoint : IsWord point.toList) : words (word ++ " " ++ point) = [word, point] := by
  have hblank : (word ++ " " ++ point).toList = word.toList ++ ' ' :: (point.toList ++ []) := by
    simp
  rw [words, fields, hblank, fieldsFrom_word hword (by simp; decide), fieldsFrom_blank (by decide),
    fieldsFrom_word hpoint (by simp)]
  simp [fieldsFrom]

/-- The point is a number, and yet it names no box, and the line is not answered. -/
theorem long_point_unanswered :
    (∃ p, assemble ["a HLT"] "f" = .ok p ∧ overOneTag.tags = p.tags) ∧
      words ("var" ++ " " ++ tooManyOnes) = ["var", tooManyOnes] ∧
      overOneTag.execute Rehearsal.host 0 ("var" ++ " " ++ tooManyOnes) =
        (.error (.numeral ⟨4301⟩), overOneTag) ∧
      overOneTag.execution.world.echoed = #[] := by
  have hwords : words ("var" ++ " " ++ tooManyOnes) = ["var", tooManyOnes] :=
    words_of_two (by decide) (isWord_of_isNumeral isNumeral_tooManyOnes).1
  have hlong : IsLong tooManyOnes := by
    rw [IsLong, length_tooManyOnes]
    exact ⟨isNumeral_tooManyOnes, by decide⟩
  refine ⟨exists_program_of_one_tag, hwords, ?_, rfl⟩
  rw [execute_of_long hlong List.mem_cons_self hwords, length_tooManyOnes]

end LittleMan.Debugger
