/-
A world for a debugger session in which everything is prepared: the numbers for the machine, the
answers to questions, the files. What the session shows, asks and notes is kept.
-/
import LittleMan.Debugger.Session
namespace LittleMan.Debugger

/-- The prepared world, and what has come of it so far. -/
structure Rehearsal where
  tape : Tape := {}
  answers : List String := []
  files : Directory := {}
  echoed : Array String := #[]
  asked : Array String := #[]
  notes : Array Entry := #[]

namespace Rehearsal

/-- The machine's boundary: the tape, with a note on every fault. -/
def boundary : Boundary Rehearsal Tape.Error where
  request w := match Tape.checked.request w.tape with
    | (result, tape) => (result, { w with tape })
  emit v w := match Tape.checked.emit v w.tape with
    | (result, tape) => (result, { w with tape })
  report f w := match Tape.checked.report f w.tape with
    | (result, tape) => (result, { w with tape, notes := w.notes.push f.note })

/-- The prepared world as a host. -/
def host : Host Rehearsal Tape.Error where
  boundary := boundary
  echo line w := { w with echoed := w.echoed.push line }
  ask prompt w :=
    let w := { w with asked := w.asked.push prompt }
    match w.answers with
    | [] => (none, w)
    | answer :: rest => (some answer, { w with answers := rest })
  readFile name w := w.files.read (Path.parse name).render
  writeFile name bytes w := match w.files.write (Path.parse name).render bytes with
    | .ok files => (.ok (), { w with files })
    | .error e => (.error e, w)
  note entry w := { w with notes := w.notes.push entry }

end Rehearsal

end LittleMan.Debugger
