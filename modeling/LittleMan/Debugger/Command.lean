/-
The commands of the debugger: a word and its arguments, separated by blanks.

* `Command.parse`: reads a command; an unknown word or a wrong number of arguments is none.
-/
import LittleMan.Text.Blank
namespace LittleMan.Debugger

open Text

/-- A command. -/
inductive Command where
  | step
  | run
  | showBox (point : String)
  | showTagged
  | runTo (point : String)
  | skip
  | branch (point : String)
  | dumpText
  | loadText
  | save (name : String)
  | restore (name : String)
  | exportTo (file : Option String)
  | importFrom (file : Option String)
  | help
  | quit
deriving DecidableEq, Repr

/-- The words of a line. -/
def words (line : String) : List String := (fields line.toList).map Field.text

/-- The command that words make, if they make one. -/
def Command.ofWords : List String → Option Command
  | [] => some .step
  | ["run"] => some .run
  | ["var", point] => some (.showBox point)
  | ["vars"] => some .showTagged
  | ["runto", point] => some (.runTo point)
  | ["s"] => some .skip
  | ["br", point] => some (.branch point)
  | ["dumpstr"] => some .dumpText
  | ["loadstr"] => some .loadText
  | ["save", name] => some (.save name)
  | ["load", name] => some (.restore name)
  | ["export"] => some (.exportTo none)
  | ["export", file] => some (.exportTo (some file))
  | ["import"] => some (.importFrom none)
  | ["import", file] => some (.importFrom (some file))
  | ["help"] => some .help
  | ["quit"] => some .quit
  | ["exit"] => some .quit
  | _ => none

/-- Reads a command. The empty line is one. -/
def Command.parse (line : String) : Option Command := Command.ofWords (words line)

/-- The list of commands that is shown on request. -/
def helpText : String := "\n".intercalate [
  "Debugger commands:",
  "    <enter> - empty input steps forward one instruction",
  "    run - run the program until it ends",
  "    var <var> - prints the value of <var> which can be a label or address",
  "    vars - prints the names and values of all labels",
  "    runto <point> - runs the program until the PC reaches <point>, a label or address",
  "    s - skips the current instruction, incrementing the PC without executing it",
  "    br <target> - jumps (sets the PC) to a target label or address",
  "    dumpstr - output the LMC state as a human readable string",
  "    loadstr - load the LMC state from a human readable string",
  "    save <name> - keep a copy of the state in memory until the debugger exits",
  "    load <name> - restore the copy saved as <name>",
  "    export [file] - save the LMC state in binary to a file",
  "    import [file] - load the LMC state in binary from a file",
  "    quit/exit - leave the debugger",
  "    help - shows this message",
  "",
  "Debugger view:",
  "    First line shows the PC, the accumulator (CALC) and the negative flag",
  "    Second line shows a disassembly of the instruction at the PC",
  ""]

end LittleMan.Debugger
