/-
Lines behind a full memory.

A hundred lines of code fill memory, and what comes after them is not read: it can neither define a
tag nor cause an error. All that is left of it is the number of its first line of code.

* `Draft.surveyFrom_append`: the first pass over lines in two parts;
* `Draft.surveyFrom_full_memory`: what it makes of lines when memory is full;
* `assemble_append_of_full`: so an assembly is decided by the lines that fill memory;
* `Statement.take_stream`: the statements of a program are the first that reading line by line
  comes to;
* `full_memory_inert`: all this together.
-/
import LittleMan.Proofs.Assembly
namespace LittleMan

open Text

theorem codeLines_append (number : Nat) (front back : List String) :
    codeLines number (front ++ back) =
      codeLines number front ++ codeLines (number + front.length) back := by
  rw [codeLines, List.map_append, List.zipIdx_append, List.filter_append, List.length_map]
  rfl

theorem codeLines_eq_nil_iff {number : Nat} {lines : List String} :
    codeLines number lines = [] ↔
      ∀ raw ∈ lines, Statement.isCode (Statement.stripNewline raw) = false := by
  induction lines generalizing number with
  | nil => simp [codeLines_nil]
  | cons raw rest ih =>
    cases hcode : Statement.isCode (Statement.stripNewline raw) with
    | false => simp [codeLines_cons_of_blank hcode, ih, hcode]
    | true => simp [codeLines_cons_of_code hcode, hcode]

/-! ### The first pass in two parts -/

namespace Draft

theorem of_add {d next : Draft} {s : Statement} (h : d.add s = .ok next) :
    next.statements.length = d.statements.length + 1 ∧ next.dropped = d.dropped := by
  rw [add] at h
  split at h
  · obtain rfl := Except.ok.inj h
    simp
  · split at h
    · exact absurd h (by simp)
    · obtain rfl := Except.ok.inj h
      simp

/-- As long as there is room for the lines in front, the pass over more lines goes on from what
they have come to. -/
theorem surveyFrom_append (filename : String) (front back : List String) (number : Nat) (d : Draft)
    (hroom : d.statements.length + (codeLines number front).length ≤ 100) :
    surveyFrom filename number (front ++ back) d =
      surveyFrom filename number front d >>= surveyFrom filename (number + front.length) back := by
  induction front generalizing number d with
  | nil => rfl
  | cons raw rest ih =>
    have hnumber : number + (raw :: rest).length = number + 1 + rest.length := by
      rw [List.length_cons]
      omega
    rw [List.cons_append, hnumber]
    cases hcode : Statement.isCode (Statement.stripNewline raw) with
    | false =>
      rw [codeLines_cons_of_blank hcode] at hroom
      rw [surveyFrom_blank hcode, surveyFrom_blank hcode]
      exact ih (number + 1) d hroom
    | true =>
      rw [codeLines_cons_of_code hcode, List.length_cons] at hroom
      have hlt : ¬d.statements.length ≥ 100 := by omega
      rw [surveyFrom, surveyFrom]
      simp only [hcode, Bool.not_true, Bool.false_eq_true, if_false, if_neg hlt]
      -- an error in front ends both passes, and a statement takes up room in both
      cases Statement.parse (Statement.stripNewline raw) number filename with
      | error e => rfl
      | ok o =>
        cases o with
        | none => exact ih (number + 1) d (by omega)
        | some s =>
          dsimp only
          cases ha : d.add s with
          | error e => rfl
          | ok next => exact ih (number + 1) next (by have := (of_add ha).1; omega)

/-- When memory is full, all that the pass finds is the first line of code. -/
theorem surveyFrom_full_memory (filename : String) (lines : List String) (number : Nat) {d : Draft}
    (hd : 100 ≤ d.statements.length) (hdropped : d.dropped = none) :
    surveyFrom filename number lines d =
      .ok { d with dropped := (codeLines number lines).head?.map Prod.snd } := by
  induction lines generalizing number with
  | nil =>
    rw [surveyFrom, codeLines_nil, List.head?_nil, Option.map_none, ← hdropped]
  | cons raw rest ih =>
    cases hcode : Statement.isCode (Statement.stripNewline raw) with
    | false =>
      rw [surveyFrom_blank hcode, codeLines_cons_of_blank hcode]
      exact ih (number + 1)
    | true =>
      -- the pass ends here without reading the line
      rw [surveyFrom_full hcode filename number rest hd, codeLines_cons_of_code hcode]
      rfl

/-- Which line was dropped first has no part in the second pass. -/
theorem finish_dropped (d : Draft) (dropped : Option Nat) (filename : String) :
    ({ d with dropped } : Draft).finish filename =
      (d.finish filename).map fun p => { p with dropped } := by
  rw [finish, finish]
  cases d.statements.mapM (Statement.encode d.tags) <;> rfl

end Draft

/-! ### Assemblies -/

/-- The lines that fill memory decide about an assembly, in its errors too. -/
theorem assemble_append_of_full {front : List String} (hfull : (codeLines 1 front).length = 100)
    (back : List String) (filename : String) :
    assemble (front ++ back) filename = (assemble front filename).map fun p =>
      { p with dropped := (codeLines (1 + front.length) back).head?.map Prod.snd } := by
  have hempty : ({} : Draft).statements.length = 0 := rfl
  rw [assemble, assemble, Draft.survey, Draft.survey,
    Draft.surveyFrom_append filename front back 1 {} (by omega)]
  cases hs : Draft.surveyFrom filename 1 front {} with
  | error e => rfl
  | ok d =>
    obtain ⟨ss, hread, -, rfl⟩ := Draft.survey_eq_ok_iff.mp hs
    have hlength : ss.length = 100 := by
      rw [← hread.length_eq, List.length_take, hfull]
      rfl
    have hnone : (((codeLines 1 front).drop 100).head?.map Prod.snd) = none := by
      rw [List.drop_eq_nil_of_le hfull.le]
      rfl
    -- so the lines behind meet a full memory
    have hback := Draft.surveyFrom_full_memory filename back (1 + front.length)
      (d := Draft.ofStatements ss (((codeLines 1 front).drop 100).head?.map Prod.snd))
      (Nat.le_of_eq hlength.symm) hnone
    simp only [bind, Except.bind, hback]
    exact Draft.finish_dropped _ _ _

/-- What is said about a program whose first line of code too many is the given one. -/
theorem Program.warnings_of_dropped {p : Program} {line : Nat} (h : p.dropped = some line) :
    p.warnings =
      [p.filename ++ ": program truncated at line " ++ toString line ++ ", over 100 boxes"] := by
  rw [warnings, h]
  rfl

theorem Program.warnings_of_whole {p : Program} (h : p.truncated = false) : p.warnings = [] := by
  rw [truncated, Option.isSome_eq_false_iff, Option.isNone_iff_eq_none] at h
  rw [warnings, h]
  rfl

/-- A program without a line of code behind memory is whole. -/
theorem dropped_of_length_le {lines : List String} {filename : String} {p : Program}
    (h : assemble lines filename = .ok p) (hle : (codeLines 1 lines).length ≤ 100) :
    p.dropped = none := by
  rw [(assemble_eq_ok_iff.mp h).dropped, List.drop_eq_nil_of_le hle]
  rfl

/-- Lines in `back` make no difference behind those in `front`, but for one warning. -/
structure Inert (filename : String) (front back : List String) : Prop where
  succeeds : (∃ q, assemble (front ++ back) filename = .ok q) ↔ ∃ p, assemble front filename = .ok p
  error : ∀ e, assemble (front ++ back) filename = .error e ↔ assemble front filename = .error e
  same : ∀ p q, assemble front filename = .ok p → assemble (front ++ back) filename = .ok q →
    q.image = p.image ∧ q.tags = p.tags ∧ q.statements = p.statements
  whole : ∀ p, assemble front filename = .ok p → p.truncated = false ∧ p.warnings = []
  truncated : ∀ q, assemble (front ++ back) filename = .ok q →
    (q.truncated = true ↔
      ∃ raw ∈ back, Statement.isCode (Statement.stripNewline raw) = true)
  /-- The warning names the first line of code in `back` by its number. -/
  warned : ∀ q blanks raw rest, assemble (front ++ back) filename = .ok q →
    back = blanks ++ raw :: rest →
    (∀ l ∈ blanks, Statement.isCode (Statement.stripNewline l) = false) →
    Statement.isCode (Statement.stripNewline raw) = true →
      q.warnings = [filename ++ ": program truncated at line " ++
        toString (front.length + blanks.length + 1) ++ ", over 100 boxes"]
  silent : ∀ q, assemble (front ++ back) filename = .ok q → q.truncated = false → q.warnings = []

/-- A program of all the lines is one of the lines in front. -/
theorem exists_of_assemble_append {front back : List String} {filename : String} {q : Program}
    (hfull : (codeLines 1 front).length = 100) (hq : assemble (front ++ back) filename = .ok q) :
    ∃ p, assemble front filename = .ok p ∧
      q = { p with dropped := (codeLines (1 + front.length) back).head?.map Prod.snd } := by
  rw [assemble_append_of_full hfull] at hq
  obtain ⟨p, hp, hpq⟩ := exists_of_map_eq_ok hq
  exact ⟨p, hp, hpq.symm⟩

theorem inert_of_full {front : List String} (hfull : (codeLines 1 front).length = 100)
    (back : List String) (filename : String) : Inert filename front back where
  succeeds := by
    constructor
    · rintro ⟨q, hq⟩
      obtain ⟨p, hp, -⟩ := exists_of_assemble_append hfull hq
      exact ⟨p, hp⟩
    · rintro ⟨p, hp⟩
      exact ⟨_, by rw [assemble_append_of_full hfull, hp]; rfl⟩
  error e := by
    rw [assemble_append_of_full hfull]
    cases assemble front filename <;> simp [Except.map]
  same p q hp hq := by
    obtain ⟨p', hp', rfl⟩ := exists_of_assemble_append hfull hq
    obtain rfl := Except.ok.inj (hp.symm.trans hp')
    exact ⟨rfl, rfl, rfl⟩
  whole p hp := by
    have hwhole : p.truncated = false := by
      rw [Program.truncated, dropped_of_length_le hp hfull.le]
      rfl
    exact ⟨hwhole, Program.warnings_of_whole hwhole⟩
  truncated q hq := by
    obtain ⟨p, -, rfl⟩ := exists_of_assemble_append hfull hq
    rw [Program.truncated, Option.isSome_map, List.isSome_head?, Ne, codeLines_eq_nil_iff]
    simp
  warned q blanks raw rest hq hback hblanks hraw := by
    have hfilename := (assemble_eq_ok_iff.mp hq).filename
    obtain ⟨p, -, rfl⟩ := exists_of_assemble_append hfull hq
    have hnumber : 1 + front.length + blanks.length = front.length + blanks.length + 1 := by omega
    have hfirst : (codeLines (1 + front.length) back).head?.map Prod.snd =
        some (front.length + blanks.length + 1) := by
      rw [hback, codeLines_append, codeLines_eq_nil_iff.mpr hblanks, List.nil_append,
        codeLines_cons_of_code hraw, hnumber]
      rfl
    rw [Program.warnings_of_dropped hfirst, ← hfilename]
  silent q _ hwhole := Program.warnings_of_whole hwhole

/-! ### Reading line by line -/

namespace Statement

/-- Reading all lines is reading line by line, up to an error. -/
theorem parseFrom_eq_stream (filename : String) (number : Nat) (lines : List String) :
    parseFrom filename number lines = match streamFrom filename number lines with
      | (_, some e) => .error e
      | (ss, none) => .ok ss := by
  induction lines generalizing number with
  | nil => rfl
  | cons raw rest ih =>
    rw [parseFrom, streamFrom, ih]
    cases parse (stripNewline raw) number filename with
    | error e => rfl
    | ok here =>
      rcases streamFrom filename (number + 1) rest with ⟨later, _ | e⟩ <;> rfl

/-- If the first lines of code can be read, reading line by line comes to their statements
first. -/
theorem take_stream {filename : String} {lines : List String} {number count : Nat}
    {ss : List Statement}
    (h : List.Forall₂ (Reads filename) ((codeLines number lines).take count) ss) :
    (streamFrom filename number lines).1.take count = ss := by
  induction lines generalizing number count ss with
  | nil =>
    rw [codeLines_nil, List.take_nil, List.forall₂_nil_left_iff] at h
    rw [h, streamFrom, List.take_nil]
  | cons raw rest ih =>
    cases hcode : isCode (stripNewline raw) with
    | false =>
      rw [codeLines_cons_of_blank hcode] at h
      rw [streamFrom, parse_eq_none_iff.mpr hcode]
      exact ih h
    | true =>
      rw [codeLines_cons_of_code hcode] at h
      -- only lines of code are counted
      cases count with
      | zero =>
        rw [List.take_zero, List.forall₂_nil_left_iff] at h
        rw [h, List.take_zero]
      | succ count =>
        rw [List.take_succ_cons] at h
        obtain ⟨s, later, hs, hlater, rfl⟩ := List.forall₂_cons_left_iff.mp h
        have hparse : parse (stripNewline raw) number filename = .ok (some s) := hs
        rw [streamFrom, hparse]
        show s :: (streamFrom filename (number + 1) rest).1.take count = s :: later
        rw [ih hlater]

/-- If every line of code can be read, reading line by line does not stop. -/
theorem stream_of_reads {filename : String} {lines : List String} {number : Nat}
    {ss : List Statement} (h : List.Forall₂ (Reads filename) (codeLines number lines) ss) :
    streamFrom filename number lines = (ss, none) := by
  induction lines generalizing number ss with
  | nil =>
    rw [codeLines_nil, List.forall₂_nil_left_iff] at h
    rw [h, streamFrom]
  | cons raw rest ih =>
    cases hcode : isCode (stripNewline raw) with
    | false =>
      rw [codeLines_cons_of_blank hcode] at h
      rw [streamFrom, parse_eq_none_iff.mpr hcode, ih h]
      rfl
    | true =>
      rw [codeLines_cons_of_code hcode] at h
      obtain ⟨s, later, hs, hlater, rfl⟩ := List.forall₂_cons_left_iff.mp h
      have hparse : parse (stripNewline raw) number filename = .ok (some s) := hs
      rw [streamFrom, hparse, ih hlater]
      rfl

end Statement

/-- Behind a full memory nothing counts, and the statements of a program are those that reading line
by line comes to first; they are all there are, if there is room for all. -/
theorem full_memory_inert (filename : String) :
    (∀ front back : List String, (codeLines 1 front).length = 100 → Inert filename front back) ∧
      ∀ (lines : List String) (p : Program), assemble lines filename = .ok p →
        p.statements = (Statement.stream lines filename).1.take 100 ∧
          ((codeLines 1 lines).length ≤ 100 →
            Statement.parseAll lines filename = .ok p.statements) := by
  refine ⟨fun front back hfull => inert_of_full hfull back filename, fun lines p hp => ?_⟩
  have hread := (assemble_eq_ok_iff.mp hp).read
  refine ⟨(Statement.take_stream hread).symm, fun hle => ?_⟩
  rw [List.take_of_length_le hle] at hread
  rw [Statement.parseAll, Statement.parseFrom_eq_stream, Statement.stream_of_reads hread]

/-- A line of code for every box. -/
def hundredHalts : List String := List.replicate 100 " HLT"

/-- Behind them stand lines that could not be assembled. -/
theorem full_memory_inert_halts :
    (codeLines 1 hundredHalts).length = 100 ∧
      ∃ p q, assemble hundredHalts "f" = .ok p ∧
        assemble (hundredHalts ++ ["", "a b c d", " LDA nowhere"]) "f" = .ok q ∧
        q.image = p.image ∧ q.warnings = ["f: program truncated at line 102, over 100 boxes"] := by
  have hfull : (codeLines 1 hundredHalts).length = 100 := by decide +kernel
  have hinert := (full_memory_inert "f").1 hundredHalts ["", "a b c d", " LDA nowhere"] hfull
  have hok : (assemble hundredHalts "f").isOk = true := by decide +kernel
  obtain ⟨p, hp⟩ := exists_of_isOk hok
  obtain ⟨q, hq⟩ := hinert.succeeds.mpr ⟨p, hp⟩
  have hwarned := hinert.warned q [""] "a b c d" [" LDA nowhere"] hq rfl (by decide +kernel)
    (by decide +kernel)
  exact ⟨hfull, p, q, hp, hq, (hinert.same p q hp hq).1, hwarned.trans (by decide +kernel)⟩

end LittleMan
