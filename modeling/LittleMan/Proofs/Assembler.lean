/-
What an assembler tells after any calls.

An assembler is asked to assemble sources, to make images of words and to encode single statements,
in any order, and all of this can fail. Afterwards it tells of the last source that assembled, and
of nothing else.

* `Assembler.performAll`: calls one after the other;
* `Assembler.Call.Yields`: a call that leaves a program; `Assembler.Latest`: the last such call;
* `perform_of_yields`, `perform_of_not_yields`: what one call makes of an assembler;
* `performAll_of_not_yields`, `performAll_of_latest`: what any number of calls make of it;
* `tells_of_latest`: what the assembler tells after them.
-/
import LittleMan.Proofs.Truncation
namespace LittleMan

namespace Assembler

/-- Answers calls one after the other. -/
def performAll (a : Assembler) : List Call → List Reply × Assembler
  | [] => ([], a)
  | call :: calls =>
    let (reply, next) := a.perform call
    let (replies, last) := next.performAll calls
    (reply :: replies, last)

/-- The call assembles a source, and the source assembles to a program. -/
inductive Call.Yields : Call → Program → Prop where
  | assemble {lines : List String} {filename : String} {p : Program}
      (h : LittleMan.assemble lines filename = .ok p) : Yields (.assemble lines filename) p

/-- Of the calls that assemble a source with success, the one with this source is the last. -/
structure Latest (calls : List Call) (lines : List String) (filename : String) (p : Program) :
    Prop where
  succeeds : LittleMan.assemble lines filename = .ok p
  last : ∃ before after, calls = before ++ .assemble lines filename :: after ∧
    ∀ call ∈ after, ∀ q, ¬call.Yields q

section Calls

variable {a : Assembler} {call : Call} {calls : List Call} {lines : List String} {filename : String}
  {p : Program}

/-! ### One call -/

/-- No call is answered from what the assembler has kept. -/
theorem reply_perform (a b : Assembler) (call : Call) : (a.perform call).1 = (b.perform call).1 := by
  cases call with
  | assemble lines filename =>
    rw [perform, perform, assemble, assemble]
    cases LittleMan.assemble lines filename <;> rfl
  | loadWords words => rfl
  | encode tags statement => rfl

theorem perform_of_yields (h : call.Yields p) : (a.perform call).2 = { last := some p } := by
  obtain ⟨h⟩ := h
  rw [perform, assemble, h]

/-- A call that leaves no program leaves the assembler as it was. -/
theorem perform_of_not_yields (h : ∀ p, ¬call.Yields p) : (a.perform call).2 = a := by
  cases call with
  | assemble lines filename =>
    rw [perform, assemble]
    cases hassemble : LittleMan.assemble lines filename with
    | ok p => exact absurd (.assemble hassemble) (h p)
    | error e => rfl
  | loadWords words => rfl
  | encode tags statement => rfl

/-! ### Any number of calls -/

theorem performAll_append (a : Assembler) (before after : List Call) :
    (a.performAll (before ++ after)).2 = ((a.performAll before).2.performAll after).2 := by
  induction before generalizing a with
  | nil => rfl
  | cons call before ih => exact ih (a.perform call).2

/-- Every call is answered as a new assembler would answer it. -/
theorem replies_performAll (a : Assembler) (calls : List Call) :
    (a.performAll calls).1 = calls.map fun call => (({} : Assembler).perform call).1 := by
  induction calls generalizing a with
  | nil => rfl
  | cons call calls ih =>
    rw [List.map_cons, ← ih (a.perform call).2, reply_perform {} a]
    rfl

theorem performAll_of_not_yields (h : ∀ call ∈ calls, ∀ p, ¬call.Yields p) :
    (a.performAll calls).2 = a := by
  induction calls generalizing a with
  | nil => rfl
  | cons call calls ih =>
    obtain ⟨hcall, hcalls⟩ := List.forall_mem_cons.mp h
    show ((a.perform call).2.performAll calls).2 = a
    rw [perform_of_not_yields hcall]
    exact ih hcalls

/-- The last program that was left is kept through all later calls, and no earlier one shows. -/
theorem performAll_of_latest (h : Latest calls lines filename p) :
    (a.performAll calls).2 = { last := some p } := by
  obtain ⟨hsucceeds, before, after, rfl, hafter⟩ := h
  rw [performAll_append]
  show (((a.performAll before).2.perform (.assemble lines filename)).2.performAll after).2 = _
  rw [perform_of_yields (.assemble hsucceeds)]
  exact performAll_of_not_yields hafter

/-- Some call was the last to leave a program, unless none did. -/
theorem exists_latest_or (calls : List Call) :
    (∃ lines filename p, Latest calls lines filename p) ∨ ∀ call ∈ calls, ∀ p, ¬call.Yields p := by
  induction calls with
  | nil =>
    right
    intro call hcall
    exact absurd hcall List.not_mem_nil
  | cons call calls ih =>
    rcases ih with ⟨lines, filename, p, hsucceeds, before, after, rfl, hafter⟩ | hnone
    · exact .inl ⟨lines, filename, p, hsucceeds, call :: before, after, rfl, hafter⟩
    · by_cases hcall : ∃ p, call.Yields p
      · obtain ⟨p, ⟨h⟩⟩ := hcall
        exact .inl ⟨_, _, p, h, [], calls, rfl, hnone⟩
      · right
        exact List.forall_mem_cons.mpr ⟨not_exists.mp hcall, hnone⟩

end Calls

/-- All that the assembler tells is of one program, and that is the assembly of one source. -/
structure TellsOf (a : Assembler) (lines : List String) (filename : String) (p : Program) :
    Prop where
  result : a.last = some p
  image : a.image = p.image
  tags : a.tags = p.tags
  warnings : a.warnings = p.warnings
  source : p.IsAssemblyOf lines filename
  /-- There is a warning just if that source itself was too long. -/
  warned : a.warnings ≠ [] ↔ 100 < (codeLines 1 lines).length

/-- The assembler has nothing to tell. -/
structure TellsNothing (a : Assembler) : Prop where
  result : a.last = none
  image : a.image = .zero
  tags : a.tags = {}
  warnings : a.warnings = []

theorem tellsOf_of_assemble {lines : List String} {filename : String} {p : Program}
    (h : LittleMan.assemble lines filename = .ok p) :
    ({ last := some p } : Assembler).TellsOf lines filename p := by
  have hassembly := assemble_eq_ok_iff.mp h
  refine ⟨rfl, rfl, rfl, rfl, hassembly, ?_⟩
  show p.warnings ≠ [] ↔ _
  rw [Program.warnings, Ne, List.map_eq_nil_iff, Option.toList_eq_nil_iff, hassembly.dropped,
    Option.map_eq_none_iff, List.head?_eq_none_iff, List.drop_eq_nil_iff, Nat.not_le]

end Assembler

/-- After any calls an assembler tells of the last source that assembled, whatever failed before and
since, and of nothing if there was none. A call that leaves no program changes nothing, and no
answer depends on the calls before it. -/
theorem tells_of_latest (calls : List Assembler.Call) :
    (∀ lines filename p, Assembler.Latest calls lines filename p →
      (({} : Assembler).performAll calls).2.TellsOf lines filename p) ∧
    ((∀ call ∈ calls, ∀ p, ¬call.Yields p) →
      (({} : Assembler).performAll calls).2.TellsNothing) ∧
    ((∃ lines filename p, Assembler.Latest calls lines filename p) ∨
      ∀ call ∈ calls, ∀ p, ¬call.Yields p) ∧
    (∀ call, (∀ p, ¬call.Yields p) → (({} : Assembler).performAll (calls ++ [call])).2 =
      (({} : Assembler).performAll calls).2) ∧
    (({} : Assembler).performAll calls).1 =
      calls.map fun call => (({} : Assembler).perform call).1 := by
  refine ⟨?_, ?_, Assembler.exists_latest_or calls, ?_, Assembler.replies_performAll {} calls⟩
  · intro lines filename p hlatest
    rw [Assembler.performAll_of_latest hlatest]
    exact Assembler.tellsOf_of_assemble hlatest.succeeds
  · intro hnone
    rw [Assembler.performAll_of_not_yields hnone]
    exact ⟨rfl, rfl, rfl, rfl⟩
  · intro call hcall
    rw [Assembler.performAll_append]
    exact Assembler.perform_of_not_yields hcall

/-- A source that fails when its tags are known already, and numbers that are not all words. -/
def failingCalls : List Assembler.Call :=
  [.assemble ["x DAT 1", " LDA y"] "broken", .loadWords [5, 1000]]

/-- They stand between a source that is cut off and a short one; the last source cannot be read. -/
def mixedCalls : List Assembler.Call :=
  .assemble (hundredHalts ++ [" IN"]) "long" :: failingCalls ++
    [.assemble ["x IN", " BR x"] "short", .assemble ["a b c d"] "odd"]

theorem tells_of_latest_short :
    ∃ p, Assembler.Latest mixedCalls ["x IN", " BR x"] "short" p ∧
      (({} : Assembler).performAll mixedCalls).2.TellsOf ["x IN", " BR x"] "short" p ∧
      (({} : Assembler).performAll mixedCalls).2.warnings = [] ∧
      (({} : Assembler).performAll mixedCalls).2 =
        (({} : Assembler).performAll (mixedCalls.take 4)).2 ∧
      (∀ call ∈ failingCalls, ∀ q, ¬call.Yields q) ∧
      (({} : Assembler).performAll failingCalls).2.TellsNothing := by
  have hok : (assemble ["x IN", " BR x"] "short").isOk = true := by decide +kernel
  have hodd : (assemble ["a b c d"] "odd").isOk = false := by decide +kernel
  have hbroken : (assemble ["x DAT 1", " LDA y"] "broken").isOk = false := by decide +kernel
  have hshort : ¬100 < (codeLines 1 ["x IN", " BR x"]).length := by decide +kernel
  have hfails : ∀ {lines filename}, (assemble lines filename).isOk = false →
      ∀ q, ¬Assembler.Call.Yields (.assemble lines filename) q := by
    rintro lines filename hfails q ⟨hq⟩
    rw [hq] at hfails
    exact absurd hfails (by simp [Except.isOk, Except.toBool])
  have hnone : ∀ call ∈ failingCalls, ∀ q, ¬call.Yields q := by
    intro call hcall q
    rcases List.mem_pair.mp hcall with rfl | rfl
    · exact hfails hbroken q
    · rintro ⟨⟩
  obtain ⟨p, hp⟩ := exists_of_isOk hok
  have hlatest : Assembler.Latest mixedCalls ["x IN", " BR x"] "short" p :=
    ⟨hp, mixedCalls.take 3, [.assemble ["a b c d"] "odd"], rfl,
      List.forall_mem_singleton.mpr (hfails hodd)⟩
  have htells := (tells_of_latest mixedCalls).1 _ _ p hlatest
  exact ⟨p, hlatest, htells, not_not.mp (htells.warned.not.mpr hshort),
    (tells_of_latest (mixedCalls.take 4)).2.2.2.1 (.assemble ["a b c d"] "odd") (hfails hodd),
    hnone, (tells_of_latest failingCalls).2.1 hnone⟩

end LittleMan
