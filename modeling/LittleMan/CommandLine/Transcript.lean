/-
Invocations of the tool, and what comes of them.

* `Invocation.transcript`: everything that an invocation shows, what it leaves in the files, and how
  it ends, all as a function of its words, its surroundings and the lines that are typed.

Wrong words end an invocation before it does anything. Warnings about the settings come as soon as
there is a command, whatever its level of detail.
-/
import LittleMan.CommandLine.Action
namespace LittleMan.CommandLine

open Text

/-- An invocation. -/
structure Invocation where
  words : List String
  environment : Environment := []
  files : Directory := {}
  /-- The lines that were typed. -/
  typed : List String := []
  /-- Whether the input ends with them. -/
  closed : Bool := true
  /-- Whether a line that is read shows up in the output. -/
  echoing : Bool := true

/-- What has come of an invocation. -/
structure Transcript where
  ending : Ending
  console : Console

/-- The lines of a text that is typed as a whole. -/
def typedLines (text : String) : List String :=
  let lines := splitOn '\n' (unifyNewlines text.toList)
  (if lines.getLast? = some [] then lines.dropLast else lines).map String.ofList

/-- The version of the tool. -/
def versionLine : String := "lmc, version 1.0.0"

namespace Action

/-- Refuses the words of an invocation. -/
def refuse {α : Type} : UsageError → Action α
  | .nullInPath => throw (.uncaught "ValueError" UsageError.nullInPath.message)
  | e => do
    modify (·.complain ("Error: " ++ e.message))
    exit .usage

/-- A result, unless the words were wrong. -/
def orRefuse {α : Type} : Except UsageError α → Action α
  | .ok a => pure a
  | .error e => refuse e

/-- Carries out a command of which the words are still to be read. -/
def command (patience : Nat) (environment : Environment) (verbose : Bool) (command : Command)
    (words : List String) : Action Unit := do
  let settings := Settings.ofEnvironment environment
  logAll (Settings.warnings environment)
  modify fun c =>
    { c with verbose, prompt := String.ofList (trimEnd settings.inputPrompt.toList) }
  match ← orRefuse (command.read (← get).files words) with
  | none => print command.usage
  | some request => request.perform patience settings

/-- Carries out an invocation. -/
def whole (patience : Nat) (i : Invocation) : Action Unit := do
  match ← orRefuse (readOpening i.words) with
  | .version => print versionLine
  | .help => printAll (Command.all.map Command.usage)
  | .command verbose c words => command patience i.environment verbose c words

end Action

/-- The console before anything was shown. -/
def Invocation.console (i : Invocation) : Console :=
  { files := i.files, pending := i.typed, closed := i.closed, echoing := i.echoing }

/-- What comes of an invocation. A run without a budget and a debugger session may go on for
`patience` steps. -/
def Invocation.transcript (patience : Nat) (i : Invocation) : Transcript :=
  match ExceptT.run (Action.whole patience i) i.console with
  | (.ok (), console) => ⟨.finished .success, console⟩
  | (.error ending, console) => ⟨ending, console⟩

namespace Transcript

/-- The number that the invocation ends with. -/
def exitCode (t : Transcript) : Nat :=
  match t.ending with
  | .finished code => code.number
  | .uncaught .. => ExitCode.failure.number

/-- Whether more lines have to be typed before it is known how the invocation goes on. -/
def isWaiting (t : Transcript) : Bool := t.console.waiting

end Transcript

end LittleMan.CommandLine
