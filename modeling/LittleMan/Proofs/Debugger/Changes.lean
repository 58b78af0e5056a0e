/-
What commands are made of.

A command line makes a row of small changes to its session: a line is shown, the machine takes a
step, a machine is saved (`Change`). What no change takes away, no command takes away.

* `changes_execute`: a command line is a row of changes; it saves under a name only if it says so,
  and it writes a file only as an export (`Exports`);
* `Later`: the sessions that command lines lead to, some lines barred;
* `Later.changes`: they too come about by changes.
-/
import LittleMan.Proofs.Session
import Mathlib.Logic.Relation
namespace LittleMan.Debugger

open Text

namespace Session

variable {σ ε : Type}

/-- An export hands bytes to the file system, in a world. -/
inductive Exports (h : Host σ ε) (s : Session σ) (command : Command) :
    String → List UInt8 → σ → Prop where
  | intro {given : Option String} {name : String} {asked : Session σ} {bytes : List UInt8}
      (hcommand : command = .exportTo given) (hname : s.fileName h given = (some name, asked))
      (hnull : name.contains '\x00' = false)
      (hbytes : Snapshot.encodeBinary asked.machine = .ok bytes) :
      Exports h s command name bytes asked.execution.world

/-- One change to a session, with the names under which machines may be saved and the writes that
may be made. -/
inductive Change (h : Host σ ε) (saves : String → Prop) (writes : String → List UInt8 → σ → Prop) :
    Session σ → Session σ → Prop where
  | echo (s : Session σ) (line : String) : Change h saves writes s (s.echo h line)
  | ask (s : Session σ) (prompt : String) : Change h saves writes s (s.ask h prompt).2
  | note (s : Session σ) (entry : Entry) : Change h saves writes s (s.note h entry)
  | step (s : Session σ) :
      Change h saves writes s { s with execution := (step h.boundary s.execution).2 }
  | restart (s : Session σ) :
      Change h saves writes s { s with execution := s.execution.restart }
  | machine (s : Session σ) (m : Machine) : Change h saves writes s (s.withMachine m)
  | ended (s : Session σ) : Change h saves writes s s.ended
  | left (s : Session σ) : Change h saves writes s { s with finished := true }
  | save (s : Session σ) {name : String} (hname : saves name) :
      Change h saves writes s { s with saved := (name, s.machine) :: s.saved }
  | write (s : Session σ) {name : String} {bytes : List UInt8}
      (hwrite : writes name bytes s.execution.world) :
      Change h saves writes s (s.withWorld (h.writeFile name bytes s.execution.world).2)

/-- Any number of changes. -/
abbrev Changes (h : Host σ ε) (saves : String → Prop) (writes : String → List UInt8 → σ → Prop) :
    Session σ → Session σ → Prop :=
  Relation.ReflTransGen (Change h saves writes)

namespace Changes

open Relation (ReflTransGen)

variable {h : Host σ ε} {saves : String → Prop} {writes : String → List UInt8 → σ → Prop}
  {s t : Session σ}

/-- The session that comes with an answer. -/
theorem of_snd {α : Type} {x : α × Session σ} {answer : α} (hx : Changes h saves writes s x.2)
    (heq : x = (answer, t)) : Changes h saves writes s t := by
  rw [heq] at hx
  exact hx

theorem echo (s : Session σ) (line : String) : Changes h saves writes s (s.echo h line) :=
  .single (.echo s line)

theorem echoAll (s : Session σ) (lines : List String) :
    Changes h saves writes s (s.echoAll h lines) := by
  induction lines generalizing s with
  | nil => exact .refl
  | cons line lines ih => exact .head (.echo s line) (ih (s.echo h line))

/-! ### Commands that move on -/

theorem advance (s : Session σ) (n : Nat) :
    Changes h saves writes s
      { s with execution := (LittleMan.advance h.boundary n s.execution).2 } := by
  induction n generalizing s with
  | zero => exact .refl
  | succ n ih =>
    have hstep : Change h saves writes s
        { s with execution := (LittleMan.step h.boundary s.execution).2 } := .step s
    rw [LittleMan.advance]
    split
    · exact .refl
    · rcases hnext : LittleMan.step h.boundary s.execution with ⟨e | _, next⟩ <;>
        rw [hnext] at hstep
      · exact .single hstep
      · -- the other steps start from the session after this one
        exact .head hstep (ih { s with execution := next })

theorem stepOnce (s : Session σ) : Changes h saves writes s (s.stepOnce h).2 := by
  have hstep : Change h saves writes s
      { s with execution := (LittleMan.step h.boundary s.execution).2 } := .step s
  rw [Session.stepOnce]
  rcases hnext : LittleMan.step h.boundary s.execution with ⟨e | _, next⟩ <;> rw [hnext] at hstep
  · exact .single hstep
  · dsimp only
    split
    · exact .tail (.single hstep) (.ended _)
    · exact .single hstep

theorem runToEnd (s : Session σ) (patience : Nat) :
    Changes h saves writes s (s.runToEnd h patience).2 := by
  -- a run forgets how far the machine has come before its first step
  have hrun : Changes h saves writes s
      { s with execution := (run h.boundary patience none s.execution).2 } :=
    .head (.restart s) (advance { s with execution := s.execution.restart } patience)
  rw [Session.runToEnd]
  rcases hend : run h.boundary patience none s.execution with ⟨_ | _ | _, next⟩ <;>
    rw [hend] at hrun
  · exact .tail hrun (.ended _)
  · exact hrun
  · exact hrun

theorem stepsTo (s : Session σ) (target : Int) (patience executed : Nat) :
    Changes h saves writes s (s.stepsTo h target patience executed).2 := by
  induction patience generalizing s executed with
  | zero => exact .refl
  | succ patience ih =>
    have hstep : Changes h saves writes s (s.stepOnce h).2 := stepOnce s
    rw [Session.stepsTo]
    rcases hnext : s.stepOnce h with ⟨e | _, next⟩ <;> rw [hnext] at hstep
    · exact hstep
    · dsimp only
      split
      · exact hstep
      · exact hstep.trans (ih next (executed + 1))

theorem runTo (s : Session σ) (patience : Nat) (target : Int) :
    Changes h saves writes s (s.runTo h patience target).2 := by
  have hsteps : Changes h saves writes s _ :=
    .head (.echo s ("Stepping to " ++ padded 2 target)) (stepsTo _ target patience 0)
  rw [Session.runTo]
  split
  · next heq => exact hsteps.of_snd heq
  · next heq => exact .tail (hsteps.of_snd heq) (.echo _ _)

/-! ### Commands that bring in another state -/

theorem loadText (s : Session σ) : Changes h saves writes s (s.loadText h).2 := by
  have hask : Changes h saves writes s (s.ask h "Load>").2 := .single (.ask s _)
  rw [Session.loadText]
  split
  · next heq => exact hask.of_snd heq
  · next heq =>
    split
    · exact .tail (hask.of_snd heq) (.machine _ _)
    · exact .tail (hask.of_snd heq) (.echo _ _)

theorem fileName (s : Session σ) (given : Option String) :
    Changes h saves writes s (s.fileName h given).2 := by
  cases given with
  | some name => exact .refl
  | none => exact .single (.ask s _)

theorem writeTo (s : Session σ) (name : String)
    (hwrites : ∀ bytes, Snapshot.encodeBinary s.machine = .ok bytes →
      name.contains '\x00' = false → writes name bytes s.execution.world) :
    Changes h saves writes s (s.writeTo h name).2 := by
  rw [Session.writeTo]
  split
  · exact .refl
  · next bytes hbytes =>
    split
    · exact .refl
    · next hnull =>
      have hwrite : Changes h saves writes s
          (s.withWorld (h.writeFile name bytes s.execution.world).2) :=
        .single (.write s (hwrites bytes hbytes (by simpa using hnull)))
      split
      · next heq =>
        rw [heq] at hwrite
        exact .tail hwrite (.note _ _)
      · next heq =>
        rw [heq] at hwrite
        exact .tail hwrite (.echo _ _)

theorem readFrom (s : Session σ) (name : String) :
    Changes h saves writes s (s.readFrom h name).2 := by
  rw [Session.readFrom]
  split
  · exact .refl
  · split
    · exact echo s _
    · split
      · exact echo s _
      · exact .head (.machine s _) (.single (.note _ _))

/-! ### Commands -/

theorem withPoint (s : Session σ) (point unknown : String)
    {next : Int → Except (Error ε) Unit × Session σ}
    (hnext : ∀ address, Changes h saves writes s (next address).2) :
    Changes h saves writes s (s.withPoint h point unknown next).2 := by
  rw [Session.withPoint]
  split
  · exact .refl
  · exact echo s unknown
  · next address _ => exact hnext address

theorem perform (s : Session σ) (patience : Nat) (command : Command)
    (hsaves : ∀ name, command = .save name → saves name)
    (hwrites : ∀ name bytes w, Exports h s command name bytes w → writes name bytes w) :
    Changes h saves writes s (s.perform h patience command).2 := by
  cases command with
  | step => exact stepOnce s
  | run => exact runToEnd s patience
  | showBox point => exact withPoint s point _ fun address => echo s _
  | showTagged => exact echoAll s _
  | runTo point => exact withPoint s point _ fun address => runTo s patience address
  | skip => exact .head (.echo s _) (.single (.machine _ _))
  | branch point => exact withPoint s point _ fun address => .single (.machine s _)
  | dumpText =>
    rw [Session.perform]
    split
    · exact .refl
    · exact echo s _
  | loadText => exact loadText s
  | save name => exact .head (.save s (hsaves name rfl)) (.single (.echo _ _))
  | restore name =>
    rw [Session.perform]
    split
    · exact echo s _
    · exact .head (.machine s _) (.single (.echo _ _))
  | exportTo given =>
    have hfile : Changes h saves writes s (s.fileName h given).2 := fileName s given
    rw [Session.perform]
    split
    · next heq => exact hfile.of_snd heq
    · next name asked heq =>
      exact (hfile.of_snd heq).trans (writeTo asked name fun bytes hbytes hnull =>
        hwrites name bytes _ (.intro rfl heq hnull hbytes))
  | importFrom given =>
    have hfile : Changes h saves writes s (s.fileName h given).2 := fileName s given
    rw [Session.perform]
    split
    · next heq => exact hfile.of_snd heq
    · next heq => exact (hfile.of_snd heq).trans (readFrom _ _)
  | help => exact echo s _
  | quit => exact .single (.left s)

end Changes

variable {h : Host σ ε} {saves : String → Prop} {writes : String → List UInt8 → σ → Prop}
  {s t : Session σ}

/-- A command line changes a session by changes, and saves and writes only what it says. -/
theorem changes_execute (s : Session σ) (patience : Nat) (line : String)
    (hsaves : ∀ name, Command.parse line = some (.save name) → saves name)
    (hwrites : ∀ command, Command.parse line = some command →
      ∀ name bytes w, Exports h s command name bytes w → writes name bytes w) :
    Changes h saves writes s (s.execute h patience line).2 := by
  rw [execute]
  split
  · next command hparse =>
    refine Changes.perform s patience command (fun name hname => ?_) (hwrites command hparse)
    rw [hname] at hparse
    exact hsaves name hparse
  · exact Changes.echo s _

/-- The sessions that command lines lead to from `s`. In a session, some commands are barred; between
two lines something may be shown or asked. -/
inductive Later (h : Host σ ε) (barred : Session σ → Command → Prop) (s : Session σ) :
    Session σ → Prop where
  | refl : Later h barred s s
  | execute {t : Session σ} (ht : Later h barred s t) (patience : Nat) {line : String}
      (hline : ∀ command, Command.parse line = some command → ¬ barred t command) :
      Later h barred s (t.execute h patience line).2
  | echo {t : Session σ} (ht : Later h barred s t) (line : String) :
      Later h barred s (t.echo h line)
  | ask {t : Session σ} (ht : Later h barred s t) (prompt : String) :
      Later h barred s (t.ask h prompt).2

namespace Later

variable {barred : Session σ → Command → Prop} {u : Session σ}

theorem trans (hst : Later h barred s t) (htu : Later h barred t u) : Later h barred s u := by
  induction htu with
  | refl => exact hst
  | execute _ patience hline ih => exact ih.execute patience hline
  | echo _ line ih => exact ih.echo line
  | ask _ prompt ih => exact ih.ask prompt

/-- What comes later comes about by changes, and commands that are barred have no part in it. -/
theorem changes (hst : Later h barred s t)
    (hsaves : ∀ {t : Session σ} {name : String}, ¬ barred t (.save name) → saves name)
    (hwrites : ∀ {t : Session σ} {command : Command}, ¬ barred t command →
      ∀ name bytes w, Exports h t command name bytes w → writes name bytes w) :
    Changes h saves writes s t := by
  induction hst with
  | refl => exact .refl
  | @execute t _ patience line hline ih =>
    exact ih.trans (changes_execute t patience line (fun name hname => hsaves (hline _ hname))
      fun command hcommand => hwrites (hline command hcommand))
  | echo _ line ih => exact .tail ih (.echo _ line)
  | ask _ prompt ih => exact .tail ih (.ask _ prompt)

theorem inRange (hst : Later h barred s t) (hs : s.InRange) : t.InRange := by
  induction hst with
  | refl => exact hs
  | execute _ patience _ ih => exact ih.execute h patience _
  | echo _ line ih => exact ih.echo h line
  | ask _ prompt ih => exact ih.ask h prompt

end Later

end Session

end LittleMan.Debugger
