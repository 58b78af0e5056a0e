/-
The commands of the tool: what each takes, and the request that its words make.

* `Command.read`: the request of a command's words;
* `readOpening`: the command, from all words.
-/
import LittleMan.CommandLine.Options
namespace LittleMan.CommandLine

/-- The commands. -/
inductive Command where
  | validate | run | debug | optimise | disassemble | test | testFile
deriving DecidableEq, Repr

/-- How far the polynomial test goes, as far as that was asked for. -/
structure TestExtent where
  coefficients : Option Int := none
  arguments : Option Int := none
  workers : Option Int := none
deriving DecidableEq, Repr

/-- What a command is asked to do. -/
inductive Request where
  | validate (source : String)
  | run (source : String) (budget : Option Int)
  | debug (source : Option String)
  | optimise (source : String) (target : Option String) (notice : Option Bool)
  | disassemble (source : String) (everyBox : Bool)
  | test (name : String) (source : Option String) (extent : TestExtent)
  | testFile (source cases : String)
deriving DecidableEq, Repr

/-- The switch that asks for help. -/
def helpSwitch : OptionForm := .switch "--help" none

namespace Command

/-- All commands. -/
def all : List Command := [validate, run, debug, optimise, disassemble, test, testFile]

/-- The word for a command. -/
def name : Command → String
  | validate => "val" | run => "run" | debug => "dbg" | optimise => "optimise"
  | disassemble => "disasm" | test => "test" | testFile => "testfile"

/-- The command of a word. -/
def ofName? (word : String) : Option Command := all.find? (·.name = word)

/-- The options of a command. -/
def options : Command → List OptionForm
  | run => [.number "--max-steps" .positive, helpSwitch]
  | optimise => [.switch "--notice" none, .switch "--no-notice" none, helpSwitch]
  | disassemble => [.switch "--all" (some 'a'), helpSwitch]
  | test =>
    [.number "--coefficients" .thousand, .number "--xs" .thousand, .number "--workers" .positive,
      helpSwitch]
  | validate | debug | testFile => [helpSwitch]

/-- The arguments of a command. -/
def arguments : Command → List ArgumentForm
  | validate | run | disassemble => [⟨"SOURCE", .source, true⟩]
  | debug => [⟨"SOURCE", .source, false⟩]
  | optimise => [⟨"SOURCE", .source, true⟩, ⟨"OUTPUT", .target, false⟩]
  | test => [⟨"NAME", .word, true⟩, ⟨"SOURCE", .source, false⟩]
  | testFile => [⟨"SOURCE", .source, true⟩, ⟨"TESTS", .source, true⟩]

/-- How a command is used, on one line. -/
def usage (c : Command) : String :=
  "Usage: lmc " ++ c.name ++ " [OPTIONS] " ++ " ".intercalate (c.arguments.map ArgumentForm.label)

/-- The request that options and arguments make. Of contrary switches the last one counts. -/
def request (c : Command) (switches : List String) (numbers : List (String × Int))
    (arguments : List (String × String)) : Request :=
  let source := (arguments.lookup "SOURCE").getD ""
  match c with
  | validate => .validate source
  | run => .run source (numbers.lookup "--max-steps")
  | debug => .debug (arguments.lookup "SOURCE")
  | optimise =>
    .optimise source (arguments.lookup "OUTPUT") (switches.getLast?.map (· = "--notice"))
  | disassemble => .disassemble source (switches.contains "--all")
  | test =>
    .test ((arguments.lookup "NAME").getD "") (arguments.lookup "SOURCE")
      { coefficients := numbers.lookup "--coefficients"
        arguments := numbers.lookup "--xs"
        workers := numbers.lookup "--workers" }
  | testFile => .testFile source ((arguments.lookup "TESTS").getD "")

/-- Reads the words after a command; there is no request if they ask for help. -/
def read (c : Command) (files : Directory) (words : List String) :
    Except UsageError (Option Request) := do
  let found ← scan c.options true words
  if found.switches.contains "--help" then return none
  let numbers ← found.readNumbers
  let arguments ← readArguments files c.arguments found.words
  return some (c.request found.switches numbers arguments)

end Command

/-- The options in front of a command. -/
def commonOptions : List OptionForm :=
  [.switch "--verbose" (some 'v'), .switch "--version" none, helpSwitch]

/-- What all words together ask for. -/
inductive Opening where
  | help
  | version
  | command (verbose : Bool) (command : Command) (words : List String)
deriving DecidableEq, Repr

/-- The switch, if there is one, that is answered before everything else. -/
def answeredFirst? (switches : List String) : Option Opening :=
  switches.findSome? fun name =>
    if name = "--version" then some .version else if name = "--help" then some .help else none

/-- Finds the command among the words. What stands in its place is looked at once more as an option,
because two dashes may have kept it from being one. -/
def readOpening (words : List String) : Except UsageError Opening := do
  if words = [] then return .help
  let found ← scan commonOptions false words
  if let some opening := answeredFirst? found.switches then return opening
  match found.words with
  | [] => throw .commandMissing
  | name :: rest =>
    if let some command := Command.ofName? name then
      return .command (found.switches.contains "--verbose") command rest
    let again ← scan commonOptions false found.words
    if let some opening := answeredFirst? again.switches then return opening
    throw (.noSuchCommand name)

end LittleMan.CommandLine
