/-
Sessions of the debugger over one machine.

* `Host`: what a session needs of the world around it, beside the boundary of the machine;
* `execute`: one command line;
* `loop`: commands until the program has halted, the user leaves, or no answer comes.

What the user gets wrong is answered with one line and changes nothing. What goes wrong in the
machine, or in writing a state that has no written form, ends the command with an error.
-/
import LittleMan.Debugger.Command
import LittleMan.Files
import LittleMan.Listing
import LittleMan.Run
import LittleMan.Snapshot.Binary
import LittleMan.Snapshot.Text
namespace LittleMan.Debugger

open Text

/-- The world around a session. -/
structure Host (σ ε : Type) where
  boundary : Boundary σ ε
  /-- Shows a line. -/
  echo : String → σ → σ
  /-- Asks for a line; there is none at the end of the input. -/
  ask : String → σ → Option String × σ
  readFile : String → σ → Except FileError (List UInt8)
  writeFile : String → List UInt8 → σ → Except FileError Unit × σ
  /-- Takes a note. -/
  note : Entry → σ → σ

/-- A session. The progress in `execution` is that of the machine; `halted` and `finished` are the
session's own. -/
structure Session (σ : Type) where
  execution : Execution σ
  tags : TagTable := {}
  saved : List (String × Machine) := []
  halted : Bool := false
  finished : Bool := false

/-- What ends a command early. -/
inductive Error (ε : Type) where
  | step (error : StepError ε)
  /-- A run without a budget went on for longer than anyone waits. -/
  | stillRunning
  | noAnswer
  | numeral (error : NumeralTooLong)
  | unencodable (error : Snapshot.Unencodable)
  | unwritten (error : NumberTooLong)
  /-- A file name holds a NUL. -/
  | nullInName
deriving DecidableEq, Repr

variable {σ ε : Type}

namespace Session

/-- The machine of a session. -/
def machine (s : Session σ) : Machine := s.execution.machine

/-- The session with another machine. -/
def withMachine (s : Session σ) (m : Machine) : Session σ :=
  { s with execution := { s.execution with machine := m } }

/-- The session in another world. -/
def withWorld (s : Session σ) (w : σ) : Session σ :=
  { s with execution := { s.execution with world := w } }

/-- The session after a line was shown. -/
def echo (h : Host σ ε) (line : String) (s : Session σ) : Session σ :=
  s.withWorld (h.echo line s.execution.world)

/-- The session after some lines were shown. -/
def echoAll (h : Host σ ε) (lines : List String) (s : Session σ) : Session σ :=
  lines.foldl (fun s line => s.echo h line) s

/-- The session after a note was taken. -/
def note (h : Host σ ε) (entry : Entry) (s : Session σ) : Session σ :=
  s.withWorld (h.note entry s.execution.world)

/-- The session with the program at its end. -/
def ended (s : Session σ) : Session σ := { s with halted := true, finished := true }

/-! ### What is shown -/

/-- Program counter, accumulator and flag on one line. -/
def statusLine (m : Machine) : String :=
  let line := "PC " ++ padded 3 m.pc ++ "  CALC " ++ padded 3 m.accumulator
  if m.negative then line ++ "  NEGATIVE" else line

/-- The listing of the box that an integer names. -/
def describe (s : Session σ) (address : Int) : String :=
  let box := Address.wrap address
  (Listing.Line.ofWord s.tags (s.machine.memory.get box).val (some box.val)).render

/-- The lines shown before each command. -/
def statusLines (s : Session σ) : List String :=
  ["", statusLine s.machine, "  next: " ++ s.describe s.machine.pc]

/-- The lines shown when the program has halted. -/
def haltedLines (s : Session σ) : List String :=
  ["Execution halted", statusLine s.machine, "  on: " ++ s.describe (s.machine.pc - 1)]

/-- A box with its value, and its tag in brackets. -/
def boxLine (s : Session σ) (address : Int) (tag : Option String) : String :=
  let label := match tag with
    | some name => if name = "" then "" else " (" ++ name ++ ")"
    | none => ""
  padded 3 address ++ label ++ " = " ++ toString (s.machine.memory.read address).val

/-- What a point names: a decimal number a box, anything else a tag. -/
def resolve (s : Session σ) (point : String) : Except NumeralTooLong (Option Int) :=
  if isNumeral point.toList then
    (readNumeral point.toList).map fun n => some (Address.wrap n).val
  else .ok (s.tags.address? point)

/-- The tag to show for a box that was asked for by name or number. -/
def labelFor (s : Session σ) (point : String) (address : Int) : Option String :=
  if (s.tags.address? point).isSome then some point else s.tags.nameAt? address

/-! ### Moving on -/

/-- One instruction; the session ends with the program. -/
def stepOnce (h : Host σ ε) (s : Session σ) : Except (Error ε) Unit × Session σ :=
  match step h.boundary s.execution with
  | (.error e, next) => (.error (.step e), { s with execution := next })
  | (.ok (), next) =>
    let s := { s with execution := next }
    (.ok (), if next.progress.halted then s.ended else s)

/-- Instructions until the program halts. -/
def runToEnd (h : Host σ ε) (patience : Nat) (s : Session σ) : Except (Error ε) Unit × Session σ :=
  match run h.boundary patience none s.execution with
  | (.failed e, next) => (.error (.step e), { s with execution := next })
  | (.exhausted, next) => (.error .stillRunning, { s with execution := next })
  | (.halted, next) => (.ok (), { s with execution := next }.ended)

/-- Instructions, at least one, until the program counter is at the target or the program halts.
Counts on from `executed`. -/
def stepsTo (h : Host σ ε) (target : Int) : (patience executed : Nat) → Session σ →
    Except (Error ε) Nat × Session σ
  | 0, _, s => (.error .stillRunning, s)
  | patience + 1, executed, s =>
    match s.stepOnce h with
    | (.error e, next) => (.error e, next)
    | (.ok (), next) =>
      -- looked at only after a step, so a run to where the machine stands goes round once
      if next.execution.progress.halted || next.machine.pc = target then (.ok (executed + 1), next)
      else stepsTo h target patience (executed + 1) next

/-- Runs up to a target and says how far it was. -/
def runTo (h : Host σ ε) (patience : Nat) (target : Int) (s : Session σ) :
    Except (Error ε) Unit × Session σ :=
  match stepsTo h target patience 0 (s.echo h ("Stepping to " ++ padded 2 target)) with
  | (.error e, next) => (.error e, next)
  | (.ok n, next) => (.ok (), next.echo h ("Stepped " ++ toString n ++ " instructions"))

/-! ### States from elsewhere -/

/-- Asks for a line. -/
def ask (h : Host σ ε) (prompt : String) (s : Session σ) : Option String × Session σ :=
  let (answer, world) := h.ask prompt s.execution.world
  (answer, s.withWorld world)

/-- Replaces the machine by the one that a typed text describes. -/
def loadText (h : Host σ ε) (s : Session σ) : Except (Error ε) Unit × Session σ :=
  match s.ask h "Load>" with
  | (none, s) => (.error .noAnswer, s)
  | (some text, s) =>
    match Snapshot.decodeText text with
    | .ok m => (.ok (), s.withMachine m)
    | .error e => (.ok (), s.echo h ("Invalid input: " ++ e.message))

/-- The name of a file, asked for unless it was given. -/
def fileName (h : Host σ ε) (given : Option String) (s : Session σ) : Option String × Session σ :=
  match given with
  | some name => (some name, s)
  | none => match s.ask h "Filename> " with
    | (answer, s) => (answer.map fun text => String.ofList (trim text.toList), s)

/-- Writes the machine to a file. -/
def writeTo (h : Host σ ε) (name : String) (s : Session σ) : Except (Error ε) Unit × Session σ :=
  match Snapshot.encodeBinary s.machine with
  | .error e => (.error (.unencodable e), s)
  | .ok bytes =>
    if name.contains '\x00' then (.error .nullInName, s)
    else match h.writeFile name bytes s.execution.world with
      | (.ok (), world) =>
        (.ok (), (s.withWorld world).note h ⟨.debug, "Exported state to " ++ name⟩)
      | (.error e, world) => (.ok (), (s.withWorld world).echo h ("Failed to write: " ++ e.message))

/-- Replaces the machine by the one in a file. -/
def readFrom (h : Host σ ε) (name : String) (s : Session σ) : Except (Error ε) Unit × Session σ :=
  if name.contains '\x00' then (.error .nullInName, s)
  else match h.readFile name s.execution.world with
    | .error e =>
      let line := if e.number = 2 then "File not found" else "Failed to read: " ++ e.message
      (.ok (), s.echo h line)
    | .ok bytes => match Snapshot.decodeBinary bytes with
      | .error e => (.ok (), s.echo h ("Failed to read: " ++ e.message))
      | .ok m => (.ok (), (s.withMachine m).note h ⟨.debug, "Imported state from " ++ name⟩)

/-! ### Commands -/

/-- Resolves a point and goes on with its address; a point that names nothing is answered with a
line. -/
def withPoint (h : Host σ ε) (point unknown : String) (s : Session σ)
    (next : Int → Except (Error ε) Unit × Session σ) : Except (Error ε) Unit × Session σ :=
  match s.resolve point with
  | .error e => (.error (.numeral e), s)
  | .ok none => (.ok (), s.echo h unknown)
  | .ok (some address) => next address

/-- Carries out a command. -/
def perform (h : Host σ ε) (patience : Nat) (s : Session σ) :
    Command → Except (Error ε) Unit × Session σ
  | .step => s.stepOnce h
  | .run => s.runToEnd h patience
  | .runTo point =>
    let unknown := "Unknown breakpoint: " ++ point ++ ". Enter address or label."
    s.withPoint h point unknown fun target => s.runTo h patience target
  | .skip =>
    let s := s.echo h "Skip instruction"
    (.ok (), s.withMachine s.machine.advanced)
  | .branch point =>
    let unknown := "Unknown target: " ++ point ++ ". Enter address or label."
    s.withPoint h point unknown fun target =>
      (.ok (), s.withMachine { s.machine with pc := target })
  | .showBox point =>
    s.withPoint h point ("No such tag " ++ point) fun address =>
      (.ok (), s.echo h (s.boxLine address (s.labelFor point address)))
  | .showTagged =>
    (.ok (), s.echoAll h (s.tags.entries.map fun (tag, address) => s.boxLine address (some tag)))
  | .dumpText => match Snapshot.encodeText s.machine with
    | .error e => (.error (.unwritten e), s)
    | .ok text => (.ok (), s.echo h text)
  | .loadText => s.loadText h
  | .save name =>
    let s := { s with saved := (name, s.machine) :: s.saved }
    (.ok (), s.echo h ("Stored state as " ++ name ++ "."))
  | .restore name => match s.saved.lookup name with
    | none => (.ok (), s.echo h ("No stored state found: " ++ name))
    | some m => (.ok (), (s.withMachine m).echo h ("Loaded stored state " ++ name))
  | .exportTo file => match s.fileName h file with
    | (none, s) => (.error .noAnswer, s)
    | (some name, s) => s.writeTo h name
  | .importFrom file => match s.fileName h file with
    | (none, s) => (.error .noAnswer, s)
    | (some name, s) => s.readFrom h name
  | .help => (.ok (), s.echo h helpText)
  | .quit => (.ok (), { s with finished := true })

/-- Carries out a command line. -/
def execute (h : Host σ ε) (patience : Nat) (s : Session σ) (line : String) :
    Except (Error ε) Unit × Session σ :=
  match Command.parse line with
  | some command => s.perform h patience command
  | none => (.ok (), s.echo h ("Unknown command: " ++ String.ofList (trim line.toList)))

/-- Shows the machine, asks for a command and carries it out, at most `turns` times. The end of the
input ends the commands like leaving does. -/
def commands (h : Host σ ε) (patience : Nat) : (turns : Nat) → Session σ →
    Except (Error ε) Unit × Session σ
  | 0, s => (.ok (), s)
  | turns + 1, s =>
    if s.finished then (.ok (), s)
    else match (s.echoAll h s.statusLines).ask h ">" with
      | (none, s) => (.ok (), s)
      | (some line, s) => match s.execute h patience line with
        | (.ok (), s) => commands h patience turns s
        | (.error .noAnswer, s) => (.ok (), s)
        | (.error e, s) => (.error e, s)

/-- A whole session. -/
def loop (h : Host σ ε) (patience : Nat) (s : Session σ) : Except (Error ε) Unit × Session σ :=
  match s.commands h patience patience with
  | (.error e, s) => (.error e, s)
  | (.ok (), s) => (.ok (), if s.halted then s.echoAll h s.haltedLines else s)

end Session

end LittleMan.Debugger
