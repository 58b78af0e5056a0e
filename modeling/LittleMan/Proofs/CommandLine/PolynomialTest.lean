/-
The polynomial test, as a command.

Whatever the environment and the options say, the numbers that the test hands over are words of
memory, so no program crashes on them. What the command shows and how it ends is therefore a matter
of the combinations that pass and those that fail.

* `Combination.verdict_ne_crash`: words crash no program;
* `exists_report`, `report_of_inBounds`: there is a report, within the bounds of the settings, and its
  counts;
* `does_test`: the command shows the report, and ends as it says;
* `polynomialTest_crashes_nothing`: all of this, for every invocation of the test.
-/
import LittleMan.Proofs.CommandLine.Actions
import LittleMan.Proofs.CommandLine.Extent
import LittleMan.Proofs.Grading.Report
import LittleMan.Proofs.Grading.Script
namespace LittleMan

/-- The machine can be given the coefficients and the argument. -/
structure Combination.OfWords (q : Combination) : Prop where
  a : isWord q.a = true
  b : isWord q.b = true
  c : isWord q.c = true
  x : isWord q.x = true

/-- With words, a program does not crash. -/
theorem Combination.verdict_ne_crash {q : Combination} (hq : q.OfWords) (patience : Nat)
    {budget : Int} (hbudget : Text.HasText budget) (base : Machine) :
    (q.outcome patience budget base).verdict ≠ .crash := by
  intro hcrash
  rcases (gradeScript_crash_iff (fun h => absurd h (by simp))).mp hcrash with
    ⟨n, -, k, d, v, rest, -, -, -, hsaid, hv⟩ | ⟨n, -, k, d, v, rest, -, -, -, hsaid, hv⟩ |
    ⟨limit, d, hlimit, htext, -⟩
  · -- what the machine is given are the parts of the combination
    have hturn : Turn.input v ∈ d.world.turns ++ .input v :: rest := by simp
    have hword : isWord v = true := by
      rw [hsaid] at hturn
      simp only [List.mem_cons, Turn.input.injEq, List.not_mem_nil, or_false, reduceCtorEq] at hturn
      rcases hturn with rfl | rfl | rfl | rfl
      · exact hq.a
      · exact hq.b
      · exact hq.c
      · exact hq.x
    rw [isWord_iff] at hword
    omega
  · -- what it has to write is brought into the range of a word
    have hturn : Turn.output v ∈ d.world.turns ++ .output v :: rest := by simp
    rw [hsaid] at hturn
    simp only [List.mem_cons, Turn.output.injEq, List.not_mem_nil, or_false, reduceCtorEq,
      false_or] at hturn
    refine hv (hasText_of_isWord ?_)
    rw [isWord_iff]
    omega
  · obtain rfl := Option.some.inj hlimit
    exact htext hbudget

namespace CommandLine

open Text

/-! ### The report -/

theorem length_below (n : Int) : (below n).length = n.toNat := by
  rw [below, List.length_map, List.length_range]

theorem mem_below {n v : Int} : v ∈ below n ↔ 0 ≤ v ∧ v < n := by
  simp only [below, List.mem_map, List.mem_range]
  constructor
  · rintro ⟨k, hk, rfl⟩
    exact ⟨Int.natCast_nonneg k, Int.lt_toNat.mp hk⟩
  · rintro ⟨hv, hn⟩
    exact ⟨v.toNat, by omega, Int.toNat_of_nonneg hv⟩

theorem isWord_of_mem_below {n v : Int} (hn : n ≤ 1000) (hv : v ∈ below n) : isWord v = true := by
  have := mem_below.mp hv
  rw [isWord_iff]
  omega

section Reports

variable {s : Settings}

theorem ofWords_of_mem (hs : s.InBounds) {q : Combination}
    (hq : q ∈ combinations (below s.coefficients) (below s.arguments)) : q.OfWords := by
  obtain ⟨⟨ha, hb, hc⟩, hx⟩ := mem_combinations.mp hq
  have hcoefficient : ∀ v ∈ below s.coefficients, isWord v = true :=
    fun v => isWord_of_mem_below hs.coefficients.2
  exact ⟨hcoefficient q.a ha, hcoefficient q.b hb, hcoefficient q.c hc,
    isWord_of_mem_below hs.arguments.2 hx⟩

/-- The test reports on all combinations, since all that it has to name has a text. -/
theorem exists_report (hs : s.InBounds) (patience : Nat) (m : Machine) :
    ∃ report, (polynomialReport patience s m).1 = .ok report ∧
      report.Accounts (Combination.outcome patience s.testMaxSteps m)
        (combinations (below s.coefficients) (below s.arguments)) := by
  have hworkers : HasText (max 1 s.workers) := by
    rw [max_eq_right hs.workers.1]
    exact hs.workers.2
  have harguments : ∀ x ∈ below s.arguments, HasText x :=
    fun x hx => hasText_of_isWord (isWord_of_mem_below hs.arguments.2 hx)
  exact ⟨_, (polynomialTest_eq ..).trans (if_pos ⟨hworkers, harguments⟩), accounts_ofTried (.refl _)⟩

theorem report_of_inBounds (hs : s.InBounds) (patience : Nat) (m : Machine) :
    ∃ report, (polynomialReport patience s m).1 = .ok report ∧ report.crashed = 0 ∧
      (report.passed + report.failed : Int) = s.coefficients ^ 3 * s.arguments := by
  obtain ⟨report, hreport, haccounts⟩ := exists_report hs patience m
  have hcrashed : report.crashed = 0 := by
    rw [haccounts.crashed, List.countP_eq_zero]
    intro q hq
    rw [decide_eq_true_eq]
    exact Combination.verdict_ne_crash (ofWords_of_mem hs hq) patience hs.testMaxSteps m
  have htotal := haccounts.total
  rw [Report.total, hcrashed, Nat.add_zero, length_combinations, length_below,
    length_below] at htotal
  have hcoefficients : (s.coefficients.toNat : Int) = s.coefficients :=
    Int.toNat_of_nonneg (by have := hs.coefficients; omega)
  have harguments : (s.arguments.toNat : Int) = s.arguments :=
    Int.toNat_of_nonneg (by have := hs.arguments; omega)
  refine ⟨report, hreport, hcrashed, ?_⟩
  calc (report.passed + report.failed : Int)
      = (s.coefficients.toNat ^ 3 * s.arguments.toNat : Nat) := by rw [← htotal, Int.natCast_add]
    _ = s.coefficients ^ 3 * s.arguments := by push_cast [hcoefficients, harguments]; rfl

end Reports

/-! ### The command -/

namespace Action

/-- The lines about a report. -/
def reportLines (r : Report) : List String :=
  r.render :: r.failures.map fun (q, o) => failureLine q o

theorem does_showReport (r : Report) {files : Directory} :
    Does (do
        print r.render
        printAll (r.failures.map fun (q, o) => failureLine q o)
        exit (testCode r.ok) : Action Unit)
      files (.error (.finished (testCode r.ok))) (reportLines r) := by
  have hfailures : Does (do
        printAll (r.failures.map fun (q, o) => failureLine q o)
        exit (testCode r.ok) : Action Unit)
      files (.error (.finished (testCode r.ok)))
      ((r.failures.map fun (q, o) => failureLine q o) ++ []) :=
    (does_printAll _).bind (does_exit _)
  rw [List.append_nil] at hfailures
  exact (does_print _).bind hfailures

theorem does_test {patience : Nat} {settings : Settings} {name source : String}
    {extent : TestExtent} {files : Directory} {program : Program} {report : Report}
    (hname : lower name = polynomialName) (h : HoldsProgram files source program)
    (hreport : (polynomialReport patience (extent.apply settings) (machineOf program)).1 =
      .ok report) :
    Does (test patience settings name (some source) extent) files
      (.error (.finished (testCode report.ok))) (reportLines report) := by
  have hlist : name ≠ "list" := by
    rintro rfl
    exact absurd hname (by decide +kernel)
  rw [test, if_neg hlist, if_neg (not_not_intro hname)]
  refine (does_assembleFile h).bind ?_
  rw [show polynomialReport _ _ _ = (.ok report, _) from Prod.ext hreport rfl]
  exact (does_logAll _).bind (does_showReport report)

end Action

/-- An invocation of the polynomial test on a source, to some extent. -/
def Invocation.TestsPolynomial (i : Invocation) (source : String) (extent : TestExtent) : Prop :=
  ∃ verbose words name, readOpening i.words = .ok (.command verbose .test words) ∧
    Command.test.read i.files words = .ok (some (.test name (some source) extent)) ∧
    lower name = Action.polynomialName

theorem testCode_number_eq_zero_iff {passed : Bool} :
    (Action.testCode passed).number = 0 ↔ passed = true := by
  cases passed <;> decide

/-- The polynomial test crashes no program. In every environment the settings are within their
bounds; and whatever number of coefficients and arguments is asked for, every combination passes or
fails on a source that assembles, which is what is shown and what the exit code says. -/
theorem polynomialTest_crashes_nothing :
    (∀ env, (Settings.ofEnvironment env).InBounds) ∧
    ∀ (patience : Nat) (i : Invocation) (source : String) (extent : TestExtent) (program : Program),
      i.TestsPolynomial source extent → Action.HoldsProgram i.files source program →
      let settings := Settings.ofEnvironment i.environment
      ∃ report, (polynomialReport patience (extent.apply settings)
          (Action.machineOf program)).1 = .ok report ∧
        report.crashed = 0 ∧
        (report.passed + report.failed : Int) =
          extent.coefficients.getD settings.coefficients ^ 3 *
            extent.arguments.getD settings.arguments ∧
        (i.transcript patience).console.textOf .output = outputOf (Action.reportLines report) ∧
        ((i.transcript patience).exitCode = 0 ↔ report.failed = 0) := by
  refine ⟨Settings.inBounds_ofEnvironment, fun patience i source extent program hi hprogram => ?_⟩
  obtain ⟨verbose, words, name, hopening, hread, hname⟩ := hi
  intro settings
  obtain ⟨report, hreport, hcrashed, htotal⟩ := report_of_inBounds
    (inBounds_apply (inBounds_of_read hread) (Settings.inBounds_ofEnvironment i.environment))
    patience (Action.machineOf program)
  obtain ⟨hending, houtput⟩ := transcript_of_does
    (Action.does_whole hopening hread (Action.does_test hname hprogram hreport))
  refine ⟨report, hreport, hcrashed, htotal, houtput, ?_⟩
  have hok : report.ok = true ↔ report.failed = 0 := by
    rw [Report.ok, Bool.and_eq_true, decide_eq_true_eq, decide_eq_true_eq]
    exact and_iff_left hcrashed
  rw [Transcript.exitCode, hending]
  exact testCode_number_eq_zero_iff.trans hok

/-- A program that writes the first of four numbers. -/
def firstOfFour : String := "\tIN\n\tSTO a\n\tIN\n\tIN\n\tIN\n\tLDA a\n\tOUT\n\tHLT\na\tDAT 0"

/-- The test of constant polynomials, for want of another argument than 0. -/
def constantPolynomials : Invocation where
  words := ["test", "Polynomial", "p", "--coefficients", "2", "--xs=1"]
  environment := [("LMC_POLYNOMIAL_X", "5000")]
  files := { entries := [(["p"], .file (Utf8.encode firstOfFour))] }

theorem polynomialTest_crashes_nothing_constant :
    constantPolynomials.TestsPolynomial "p" ⟨some 2, some 1, none⟩ ∧
      ∃ program report, Action.HoldsProgram constantPolynomials.files "p" program ∧
        (polynomialReport 0 (TestExtent.apply ⟨some 2, some 1, none⟩
          (Settings.ofEnvironment constantPolynomials.environment))
          (Action.machineOf program)).1 = .ok report ∧ report.crashed = 0 ∧ (report.passed + report.failed : Int) = 2 ^ 3 * 1 ∧
        (constantPolynomials.transcript 0).console.textOf .output =
          outputOf (Action.reportLines report) ∧
        ((constantPolynomials.transcript 0).exitCode = 0 ↔ report.failed = 0) := by
  have hread : Command.test.read constantPolynomials.files
      ["Polynomial", "p", "--coefficients", "2", "--xs=1"] =
        .ok (some (.test "Polynomial" (some "p") ⟨some 2, some 1, none⟩)) := by
    have hnull : "p".contains '\x00' = false := by simp
    have hkind : constantPolynomials.files.kind? "p" = some false := by decide +kernel
    have harguments : readArguments constantPolynomials.files Command.test.arguments
        ["Polynomial", "p"] = .ok [("NAME", "Polynomial"), ("SOURCE", "p")] := by
      simp only [Command.arguments, readArguments, ArgumentForm.check, hnull, hkind]
      rfl
    have hscan : scan Command.test.options true
        ["Polynomial", "p", "--coefficients", "2", "--xs=1"] =
          .ok ⟨[], [("--coefficients", .thousand, "2"), ("--xs", .thousand, "1")],
            ["Polynomial", "p"]⟩ := by
      decide +kernel
    rw [Command.read, hscan]
    simp only [bind, Except.bind, harguments]
    decide +kernel
  have htests : constantPolynomials.TestsPolynomial "p" ⟨some 2, some 1, none⟩ :=
    ⟨false, _, "Polynomial", by decide +kernel, hread, by decide +kernel⟩
  obtain ⟨program, hassemble⟩ : ∃ program,
      assemble ((splitLines (unifyNewlines firstOfFour.toList)).map String.ofList) "p" =
        .ok program :=
    exists_of_isOk (by decide +kernel)
  have hholds : Action.HoldsProgram constantPolynomials.files "p" program :=
    ⟨_, ⟨Utf8.encode firstOfFour, firstOfFour.toList, by decide +kernel, by decide +kernel, rfl⟩,
      hassemble⟩
  obtain ⟨report, hreport⟩ :=
    polynomialTest_crashes_nothing.2 0 constantPolynomials "p" _ program htests hholds
  exact ⟨htests, program, report, hholds, hreport⟩

end CommandLine

end LittleMan
