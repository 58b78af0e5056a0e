/-
How a command fails: the causes, one line of text for each, and the exit codes.

* `Failure.describe`, `Failure.exitCode`: what is shown, and how the command ends.

A source text, a state or a test file that is refused ends a command with 1, as do failing tests;
wrong arguments and files that cannot be opened with 2; anything unexpected with 3.
-/
import LittleMan.Files
import LittleMan.Source.Diagnostic
namespace LittleMan

/-- The kind of an error, by its number. -/
def FileError.kind (e : FileError) : String :=
  let kinds : List (Int × String) := [
    (1, "PermissionError"), (2, "FileNotFoundError"), (3, "ProcessLookupError"),
    (4, "InterruptedError"), (10, "ChildProcessError"), (11, "BlockingIOError"),
    (13, "PermissionError"), (17, "FileExistsError"), (20, "NotADirectoryError"),
    (21, "IsADirectoryError"), (32, "BrokenPipeError"), (103, "ConnectionAbortedError"),
    (104, "ConnectionResetError"), (108, "BrokenPipeError"), (110, "TimeoutError"),
    (111, "ConnectionRefusedError"), (114, "BlockingIOError"), (115, "BlockingIOError")]
  (kinds.lookup e.number).getD "OSError"

namespace CommandLine

/-- How a command ends. -/
inductive ExitCode where
  | success
  /-- Something was refused, or a test failed. -/
  | failure
  /-- Wrong arguments, or a file that cannot be opened. -/
  | usage
  | internal
deriving DecidableEq, Repr

/-- The number of an exit code. -/
def ExitCode.number : ExitCode → Nat
  | success => 0 | failure => 1 | usage => 2 | internal => 3

/-- Why a command fails. -/
inductive Failure where
  | source (diagnostic : Diagnostic)
  | caseFile (message : String)
  | state (message : String)
  /-- Any other error that the tools foresee. -/
  | foreseen (message : String)
  | usage (message : String)
  | file (error : FileError)
  | unexpected (kind message : String)
deriving DecidableEq, Repr

namespace Failure

/-- The text of something unexpected. -/
def describeUnexpected (kind message : String) : String :=
  "Internal error: " ++ kind ++ ": " ++ message

/-- The text of a file error. One without a file comes unexpected. -/
def describeFile (e : FileError) : String :=
  match e.file with
  | some name => "Cannot open " ++ name ++ ": " ++ if e.reason = "" then e.message else e.reason
  | none => describeUnexpected e.kind e.message

/-- What is shown of a failure; the stage names what the command was about. -/
def describe (stage : Option String) : Failure → String
  | source diagnostic => diagnostic.render
  | caseFile message => "Test file error: " ++ message
  | state message => "State error: " ++ message
  | foreseen message => (stage.filter (· ≠ "")).getD "LMC" ++ " error: " ++ message
  | usage message => "Usage error: " ++ message
  | file e => describeFile e
  | unexpected kind message => describeUnexpected kind message

/-- How a failure ends the command. -/
def exitCode : Failure → ExitCode
  | source _ | caseFile _ | state _ | foreseen _ => .failure
  | usage _ => .usage
  | file e => if e.file.isSome then .usage else .internal
  | unexpected .. => .internal

/-- The wording for a value that is not taken. -/
def invalidValue (message : String) : String := "Invalid value: " ++ message

end Failure

end CommandLine

end LittleMan
