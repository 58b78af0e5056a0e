/-
The console that a command talks to: lines that were typed, output and complaints in the order they
came, and the files.

* `Console.ask`: shows a prompt and takes the next line;
* `Console.readNumber`: asks until a word of memory is typed;
* `Console.host`: the console as the world of a debugger session.

Output and complaints are shown without escape sequences; notes, and the lines that are read, as
they are. The console is a value. Lines that have not been typed yet are not there; a command that
asks for one leaves the mark that it waits, and can be carried out again from the start once there
are more.
-/
import LittleMan.CommandLine.Bounds
import LittleMan.Debugger.Session
import LittleMan.Text.Escape
namespace LittleMan.CommandLine

open Text

/-- Where something is shown. -/
inductive Channel where
  | output | complaints
deriving DecidableEq, Repr

/-- The end of the input. -/
inductive InputEnd where
  | inputEnd
deriving DecidableEq, Repr

/-- A console. -/
structure Console where
  files : Directory := {}
  /-- Lines that were typed and have not been read. -/
  pending : List String := []
  /-- Whether the input ends with them. -/
  closed : Bool := true
  /-- Whether a line that is read shows up in the output. -/
  echoing : Bool := true
  /-- Whether more lines were asked for than there are. -/
  waiting : Bool := false
  /-- What asks for a number. -/
  prompt : String := ""
  verbose : Bool := false
  shown : Array (Channel × String) := #[]

namespace Console

/-- Shows a text. -/
def put (channel : Channel) (text : String) (c : Console) : Console :=
  { c with shown := c.shown.push (channel, text) }

/-- Shows a line of output. -/
def print (line : String) (c : Console) : Console := c.put .output (plain line ++ "\n")

/-- Shows lines of output. -/
def printAll (lines : List String) (c : Console) : Console :=
  lines.foldl (fun c line => c.print line) c

/-- Shows a line of complaint. -/
def complain (line : String) (c : Console) : Console := c.put .complaints (plain line ++ "\n")

/-- Shows a note: with its level if the console is verbose, else unless it is a detail. -/
def log (entry : Entry) (c : Console) : Console :=
  if c.verbose then c.put .complaints (entry.level.name ++ ": " ++ entry.message ++ "\n")
  else if entry.level = .debug then c
  else c.put .complaints (entry.message ++ "\n")

/-- Shows notes. -/
def logAll (journal : Journal) (c : Console) : Console :=
  journal.foldl (fun c entry => c.log entry) c

/-- All that was shown on a channel. -/
def textOf (channel : Channel) (c : Console) : String :=
  String.join (c.shown.toList.filterMap fun (other, text) =>
    if other = channel then some text else none)

/-- Shows a prompt, with one space after it. -/
def showPrompt (prompt : String) (c : Console) : Console :=
  c.put .output (plain (String.ofList (dropEndWhile (· = ' ') prompt.toList)) ++ " ")

/-- A line was read. -/
def took (line : String) (rest : List String) (c : Console) : Console :=
  let c := { c with pending := rest }
  if c.echoing then c.put .output (line ++ "\n") else c

/-- A line was asked for, and there is none. -/
def ranOut (c : Console) : Console := { c with waiting := !c.closed }

/-- Asks for a line. -/
def ask (prompt : String) (c : Console) : Option String × Console :=
  let c := c.showPrompt prompt
  match c.pending with
  | [] => (none, c.ranOut)
  | line :: rest => (some line, c.took line rest)

/-- Asks for a word of memory until one of the given lines is one. -/
def readNumberFrom : List String → Console → Except InputEnd Int × Console
  | [], c => (.error .inputEnd, (c.showPrompt c.prompt).ranOut)
  | line :: rest, c =>
    let c := (c.showPrompt c.prompt).took line rest
    if line = "" then readNumberFrom rest c
    else match Bounds.word.read line with
      | .ok v => (.ok v, c)
      | .error defect => readNumberFrom rest (c.print ("Error: " ++ defect.message))

/-- Asks for a word of memory. -/
def readNumber (c : Console) : Except InputEnd Int × Console := readNumberFrom c.pending c

/-- The console as the boundary of a machine. -/
def boundary : Boundary Console InputEnd where
  request := readNumber
  emit v c := (.ok (), c.print ("Output: " ++ toString v))
  report f c := (.ok (), (c.log f.note).complain f.message)

/-- The console as the world of a debugger session. -/
def host : Debugger.Host Console InputEnd where
  boundary := boundary
  echo := print
  ask := ask
  readFile name c := c.files.read (Path.parse name).render
  writeFile name bytes c := match c.files.write (Path.parse name).render bytes with
    | .ok files => (.ok (), { c with files })
    | .error e => (.error e, c)
  note := log

end Console

end LittleMan.CommandLine
