/-
What commands do on a console, one thing after the other.

An action is described by what it comes to and the lines of output that it shows (`Does`), on every
console with the given files. Complaints and notes are left out, and so is the level of detail,
which concerns notes only. Nothing described here changes a file.

* `Does.bind`: one action and then another;
* `does_assembleFile`: a program, if the file has its source;
* `transcript_of_does`: what is left of an invocation in its transcript.
-/
import LittleMan.CommandLine.Transcript
import LittleMan.Proofs.Results
namespace LittleMan.CommandLine

open Text

/-! ### Consoles -/

/-- Lines as output shows them. -/
def outputOf (lines : List String) : String :=
  String.join (lines.map fun line => plain line ++ "\n")

theorem outputOf_append (lines more : List String) :
    outputOf (lines ++ more) = outputOf lines ++ outputOf more := by
  rw [outputOf, List.map_append, String.join_append]
  rfl

/-- From one console to another, with these lines of output. -/
structure Shows (c c' : Console) (lines : List String) : Prop where
  files : c'.files = c.files
  output : c'.textOf .output = c.textOf .output ++ outputOf lines

section Consoles

variable {c c' c'' : Console} {lines more : List String}

theorem Shows.refl (c : Console) : Shows c c [] := ⟨rfl, String.append_empty.symm⟩

theorem Shows.trans (h : Shows c c' lines) (h' : Shows c' c'' more) :
    Shows c c'' (lines ++ more) :=
  ⟨h'.files.trans h.files, by rw [h'.output, h.output, outputOf_append, String.append_assoc]⟩

theorem textOf_put (c : Console) (channel other : Channel) (text : String) :
    (c.put other text).textOf channel =
      c.textOf channel ++ if other = channel then text else "" := by
  rw [Console.textOf, Console.put, Array.toList_push, List.filterMap_append, String.join_append]
  by_cases h : other = channel <;> simp [h, Console.textOf]

theorem shows_print (c : Console) (line : String) : Shows c (c.print line) [line] :=
  ⟨rfl, by rw [Console.print, textOf_put, if_pos rfl, outputOf]; simp⟩

theorem shows_complaint (c : Console) (text : String) : Shows c (c.put .complaints text) [] :=
  ⟨rfl, by rw [textOf_put, if_neg (by decide)]; rfl⟩

theorem shows_log (c : Console) (entry : Entry) : Shows c (c.log entry) [] := by
  rw [Console.log]
  split
  · exact shows_complaint c _
  · split
    · exact .refl c
    · exact shows_complaint c _

theorem shows_printAll (lines : List String) (c : Console) : Shows c (c.printAll lines) lines := by
  induction lines generalizing c with
  | nil => exact .refl c
  | cons line lines ih => exact (shows_print c line).trans (ih _)

theorem shows_logAll (journal : Journal) (c : Console) : Shows c (c.logAll journal) [] := by
  induction journal generalizing c with
  | nil => exact .refl c
  | cons entry journal ih => exact (shows_log c entry).trans (ih _)

end Consoles

/-! ### Actions -/

namespace Action

/-- On a console with these files, an action comes to a result and shows lines of output. -/
def Does {α : Type} (act : Action α) (files : Directory) (result : Except Ending α)
    (lines : List String) : Prop :=
  ∀ c : Console, c.files = files →
    ∃ c', ExceptT.run act c = (result, c') ∧ Shows c c' lines

section Rules

variable {α β : Type} {act : Action α} {next : α → Action β} {files : Directory}
  {a : α} {result : Except Ending β} {lines more : List String}

theorem does_pure (a : α) : Does (pure a) files (.ok a) [] := fun c _ => ⟨c, rfl, .refl c⟩

theorem Does.bind (h : Does act files (.ok a) lines) (hnext : Does (next a) files result more) :
    Does (act >>= next) files result (lines ++ more) := by
  intro c hc
  obtain ⟨c', hrun, hshows⟩ := h c hc
  obtain ⟨c'', hrun', hshows'⟩ := hnext c' (hshows.files.trans hc)
  refine ⟨c'', ?_, hshows.trans hshows'⟩
  have hbind : ExceptT.run (act >>= next) c =
      ExceptT.bindCont next (ExceptT.run act c).1 (ExceptT.run act c).2 := rfl
  rw [hbind, hrun]
  exact hrun'

/-- What depends on the console depends on its files at most. -/
theorem does_get {f : Console → Action β}
    (h : ∀ c : Console, c.files = files → Does (f c) files result lines) :
    Does (get >>= f) files result lines :=
  fun c hc => h c hc c hc

theorem does_exit (code : ExitCode) :
    Does (exit code : Action α) files (.error (.finished code)) [] :=
  fun c _ => ⟨c, rfl, .refl c⟩

theorem does_modify {f : Console → Console} (h : ∀ c, Shows c (f c) lines) :
    Does (modify f) files (.ok ()) lines :=
  fun c _ => ⟨f c, rfl, h c⟩

theorem does_print (line : String) : Does (print line) files (.ok ()) [line] :=
  does_modify fun c => shows_print c line

theorem does_printAll (lines : List String) : Does (printAll lines) files (.ok ()) lines :=
  does_modify (shows_printAll lines)

theorem does_log (entry : Entry) : Does (log entry) files (.ok ()) [] :=
  does_modify fun c => shows_log c entry

theorem does_logAll (journal : Journal) : Does (logAll journal) files (.ok ()) [] :=
  does_modify (shows_logAll journal)

end Rules

/-! ### Reading a source -/

/-- The lines of a text file. -/
def Holds (files : Directory) (path : Path) (lines : List String) : Prop :=
  ∃ bytes cs, files.read path.render = .ok bytes ∧ Utf8.decode bytes = .ok cs ∧
    lines = (splitLines (unifyNewlines cs)).map String.ofList

variable {files : Directory} {stage : Option String}

theorem does_readLines {path : Path} {lines : List String} (h : Holds files path lines) :
    Does (readLines stage path) files (.ok lines) [] := by
  obtain ⟨bytes, cs, hread, hdecode, rfl⟩ := h
  have htext : Does (readText stage path) files (.ok (unifyNewlines cs)) [] := by
    refine does_get fun c hc => ?_
    rw [hc, hread]
    dsimp only
    rw [hdecode]
    exact does_pure _
  exact htext.bind (does_pure _)

/-- A file with the source of a program. -/
def HoldsProgram (files : Directory) (source : String) (program : Program) : Prop :=
  ∃ lines, Holds files (Path.parse source) lines ∧
    assemble lines (Path.parse source).render = .ok program

theorem does_assembleFile {source : String} {program : Program}
    (h : HoldsProgram files source program) :
    Does (assembleFile stage source) files (.ok program) [] := by
  obtain ⟨lines, hlines, hassemble⟩ := h
  refine (does_log _).bind ((does_readLines hlines).bind ((does_logAll _).bind ?_))
  rw [hassemble]
  exact does_pure program

/-! ### Whole invocations -/

/-- A command that is called with words that make a request. -/
theorem does_whole {patience : Nat} {i : Invocation} {verbose : Bool} {c : Command}
    {words : List String} {request : Request} {result : Except Ending Unit} {lines : List String}
    (hopening : readOpening i.words = .ok (.command verbose c words))
    (hread : c.read i.files words = .ok (some request))
    (h : Does (request.perform patience (Settings.ofEnvironment i.environment)) i.files result
      lines) :
    Does (whole patience i) i.files result lines := by
  have hset (prompt : String) (console : Console) :
      Shows console { console with verbose, prompt } [] := ⟨rfl, String.append_empty.symm⟩
  rw [whole, hopening]
  refine (does_pure (Opening.command verbose c words)).bind ((does_logAll _).bind ?_)
  refine (does_modify (hset _)).bind (does_get fun console hfiles => ?_)
  rw [hfiles, hread]
  exact (does_pure (some request)).bind h

end Action

/-- What an invocation does is what its transcript tells. -/
theorem transcript_of_does {patience : Nat} {i : Invocation} {ending : Ending} {lines : List String}
    (h : Action.Does (Action.whole patience i) i.files (.error ending) lines) :
    (i.transcript patience).ending = ending ∧
      (i.transcript patience).console.textOf .output = outputOf lines := by
  obtain ⟨console, hrun, hshows⟩ := h i.console rfl
  rw [Invocation.transcript, hrun]
  exact ⟨rfl, hshows.output.trans String.empty_append⟩

end LittleMan.CommandLine
