/-
A machine that was put aside comes back as it was.

There are three ways to put the machine of a session aside: to save it under a name, to have its text
shown, and to export it to a file. Whatever commands come after, each has its way back, as often as
one likes, until the same name is saved or the same file is written again (`Checkpoint`).

* `saved_kept`, `file_kept`: what no change takes away;
* `checkpoints_restore`: the three ways, in every session that is in range.

Of the files it is assumed that they hold what was written last (`Host.KeepsFiles`).
-/
import LittleMan.Debugger.Rehearsal
import LittleMan.Proofs.Debugger.Changes
import LittleMan.Proofs.Debugger.Rejection
import LittleMan.Proofs.Files
namespace LittleMan.Debugger

/-! ### Files -/

/-- What can be read in a world can be read after an act. -/
def Host.Preserves {σ ε : Type} (h : Host σ ε) (act : σ → σ) : Prop :=
  ∀ {name : String} {w : σ} {bytes : List UInt8}, h.readFile name w = .ok bytes →
    h.readFile name (act w) = .ok bytes

/-- Files hold the bytes that were written last; `same` are names of the same file. -/
structure Host.KeepsFiles {σ ε : Type} (h : Host σ ε) (same : String → String → Prop) : Prop where
  written : ∀ {name : String} {bytes : List UInt8} {w : σ},
    (h.writeFile name bytes w).1 = .ok () →
      h.readFile name (h.writeFile name bytes w).2 = .ok bytes
  elsewhere : ∀ {name other : String} {bytes : List UInt8} {w : σ}, ¬ same other name →
    h.readFile name w = .ok bytes →
      ∀ written, h.readFile name (h.writeFile other written w).2 = .ok bytes
  echo : ∀ line, h.Preserves (h.echo line)
  ask : ∀ prompt, h.Preserves fun w => (h.ask prompt w).2
  note : ∀ entry, h.Preserves (h.note entry)
  request : h.Preserves fun w => (h.boundary.request w).2
  emit : ∀ v, h.Preserves fun w => (h.boundary.emit v w).2
  report : ∀ f, h.Preserves fun w => (h.boundary.report f w).2

namespace Session

variable {σ ε : Type} {h : Host σ ε} {saves : String → Prop}
  {writes : String → List UInt8 → σ → Prop} {same : String → String → Prop} {s t : Session σ}
  {name : String} {m : Machine} {bytes : List UInt8} {patience : Nat} {line : String}

/-! ### What changes do not take away -/

/-- A saved machine stays as long as nothing is saved under its name. -/
theorem saved_kept (hst : Changes h saves writes s t) (hsaves : ¬ saves name)
    (hs : s.saved.lookup name = some m) : t.saved.lookup name = some m := by
  induction hst with
  | refl => exact hs
  | tail _ hchange ih =>
    cases hchange with
    | @save other hother =>
      -- the copy of another name goes in front of ours and does not hide it
      have hne : name ≠ other := by
        rintro rfl
        exact hsaves hother
      rw [List.lookup_cons, beq_false_of_ne hne]
      exact ih
    | _ => exact ih

/-- A write goes to the file of that name, and it is carried out or does harm. -/
def Overwrites (h : Host σ ε) (same : String → String → Prop) (name other : String)
    (written : List UInt8) (w : σ) : Prop :=
  same other name ∧ ((h.writeFile other written w).1 = .ok () ∨
    h.readFile name (h.writeFile other written w).2 ≠ h.readFile name w)

/-- A file stays as long as it is not written again. -/
theorem file_kept (hkeeps : h.KeepsFiles same)
    (hst : Changes h saves (fun other written w => ¬ Overwrites h same name other written w) s t)
    (hs : h.readFile name s.execution.world = .ok bytes) :
    h.readFile name t.execution.world = .ok bytes := by
  induction hst with
  | refl => exact hs
  | @tail u v _ hchange ih =>
    cases hchange with
    | echo line => exact hkeeps.echo line ih
    | ask prompt => exact hkeeps.ask prompt ih
    | note entry => exact hkeeps.note entry ih
    | step =>
      -- a step asks the boundary at most once, and no answer touches the file
      exact world_step (p := fun w => h.readFile name w = .ok bytes) ih (hkeeps.request ih)
        (fun v => hkeeps.emit v ih) fun f => hkeeps.report f ih
    | @write other written hwrite =>
      by_cases hsame : same other name
      · -- this write was refused and did no harm
        have hread : h.readFile name (h.writeFile other written u.execution.world).2 =
            h.readFile name u.execution.world :=
          not_not.mp fun hne => hwrite ⟨hsame, .inr hne⟩
        exact hread.trans ih
      · exact hkeeps.elsewhere hsame ih written
    | _ => exact ih

/-! ### Ways back -/

/-- From now on `m` can be brought back: every line that `restores` does it, whatever commands that
are not barred come before, and again after more of them. -/
structure Checkpoint (h : Host σ ε) (barred : Session σ → Command → Prop)
    (restores : Session σ → String → Prop) (m : Machine) (s : Session σ) : Prop where
  restored : ∀ {t : Session σ}, Later h barred s t →
    ∀ {line : String}, restores t line → ∀ patience,
      (t.execute h patience line).1 = .ok () ∧ (t.execute h patience line).2.machine = m
  again : ∀ {t : Session σ}, Later h barred s t →
    ∀ {line : String}, restores t line → ∀ patience {u : Session σ},
      Later h barred (t.execute h patience line).2 u →
        ∀ {line' : String}, restores u line' → ∀ patience',
          (u.execute h patience' line').1 = .ok () ∧ (u.execute h patience' line').2.machine = m

/-- Lines that bring a machine back are not barred, so they do so again. -/
theorem Checkpoint.of_restored {barred : Session σ → Command → Prop}
    {restores : Session σ → String → Prop}
    (hfree : ∀ {t : Session σ} {line : String} {command : Command}, restores t line →
      Command.parse line = some command → ¬ barred t command)
    (hrestored : ∀ {t : Session σ}, Later h barred s t → ∀ {line : String}, restores t line →
      ∀ patience,
        (t.execute h patience line).1 = .ok () ∧ (t.execute h patience line).2.machine = m) :
    Checkpoint h barred restores m s where
  restored := hrestored
  again ht _ hline patience _ hu _ hline' patience' :=
    hrestored ((ht.execute patience fun _ hcommand => hfree hline hcommand).trans hu) hline'
      patience'

/-- The line loads what was saved under the name. -/
def Loads (name line : String) : Prop := Command.parse line = some (.restore name)

/-- The line asks for a text, and the text is typed. -/
def TypesText (h : Host σ ε) (text : String) (t : Session σ) (line : String) : Prop :=
  Command.parse line = some .loadText ∧ (t.ask h "Load>").1 = some text

/-- The line imports the file of that name, which may be given or typed. -/
def ImportsFile (h : Host σ ε) (name : String) (t : Session σ) (line : String) : Prop :=
  ∃ asked, Imports h t line name asked

/-- To save a machine under a name makes a checkpoint, until the next time. -/
theorem checkpoint_of_save (hline : Command.parse line = some (.save name)) :
    Checkpoint h (fun _ command => command = .save name) (fun _ => Loads name) s.machine
      (s.execute h patience line).2 := by
  apply Checkpoint.of_restored
  · rintro t line command hload hcommand rfl
    exact absurd (hload.symm.trans hcommand) (by simp)
  · intro t ht line' hload patience'
    have hchanges : Changes h (· ≠ name) (fun _ _ _ => True) (s.execute h patience line).2 t :=
      ht.changes (fun hother heq => hother (congrArg Command.save heq)) fun _ _ _ _ _ => trivial
    have hsaved : t.saved.lookup name = some s.machine := by
      refine saved_kept hchanges (not_not.mpr rfl) ?_
      rw [execute_of_parse hline]
      exact List.lookup_cons_self
    rw [execute_of_parse hload, perform, hsaved]
    exact ⟨rfl, rfl⟩

/-- A text that is shown is a checkpoint for ever. -/
theorem checkpoint_of_text (hm : m.InRange) (s : Session σ) :
    Checkpoint h (fun _ _ => False) (TypesText h (Snapshot.textOf m)) m s := by
  apply Checkpoint.of_restored
  · exact fun _ _ hbarred => hbarred
  · intro t _ line htypes patience
    obtain ⟨hload, htext⟩ := htypes
    rw [execute_of_parse hload, perform, loadText]
    rcases hask : t.ask h "Load>" with ⟨reply, asked⟩
    rw [hask] at htext
    obtain rfl : reply = _ := htext
    dsimp only
    rw [Snapshot.decodeText_textOf hm]
    exact ⟨rfl, rfl⟩

/-- A command overwrites the file of that name. -/
def OverwritesIn (h : Host σ ε) (same : String → String → Prop) (name : String) (t : Session σ)
    (command : Command) : Prop :=
  ∃ other written w, Exports h t command other written w ∧ Overwrites h same name other written w

theorem machine_fileName (s : Session σ) (given : Option String) :
    (s.fileName h given).2.machine = s.machine := by
  cases given with
  | some name => rfl
  | none => rfl

/-- After an export that was carried out the file holds its bytes. -/
theorem read_of_export (hkeeps : h.KeepsFiles same) {command : Command} {w : σ}
    (hline : Command.parse line = some command) (hexports : Exports h s command name bytes w)
    (hwritten : (h.writeFile name bytes w).1 = .ok ()) :
    h.readFile name (s.execute h patience line).2.execution.world = .ok bytes := by
  have hread := hkeeps.written hwritten
  cases hexports with
  | @intro given _ asked _ hcommand hname hnull hbytes =>
    rw [hcommand] at hline
    rw [execute_of_parse hline, perform, hname]
    dsimp only
    rw [writeTo, hbytes]
    dsimp only
    rw [if_neg (by simp [hnull])]
    rcases hwrite : h.writeFile name bytes asked.execution.world with ⟨_ | _, world⟩ <;>
      rw [hwrite] at hwritten hread
    · exact absurd hwritten (by simp)
    · exact hkeeps.note _ hread

/-- To ask for the name of a file does not touch it. -/
theorem Imports.read_asked (hkeeps : h.KeepsFiles same) {asked : Session σ}
    (himports : Imports h t line name asked)
    (hread : h.readFile name t.execution.world = .ok bytes) :
    h.readFile name asked.execution.world = .ok bytes := by
  cases himports with
  | given _ => exact hread
  | answered _ hask =>
    obtain ⟨-, rfl⟩ := Prod.mk.inj hask
    exact hkeeps.ask _ hread

/-- An import of a machine's bytes brings it back. -/
theorem execute_of_importsFile (hkeeps : h.KeepsFiles same) (hm : m.InRange)
    (hbytes : Snapshot.encodeBinary m = .ok bytes) (hnull : name.contains '\x00' = false)
    (hread : h.readFile name t.execution.world = .ok bytes) (himports : ImportsFile h name t line) :
    (t.execute h patience line).1 = .ok () ∧ (t.execute h patience line).2.machine = m := by
  obtain ⟨asked, himports⟩ := himports
  have hdecode : Snapshot.decodeBinary bytes = .ok m :=
    Snapshot.decodeBinary_eq_ok_iff_encodeBinary.mpr ⟨hm, hbytes⟩
  rw [execute_of_import himports,
    readFrom_of_bytes hnull (himports.read_asked hkeeps hread) hdecode]
  exact ⟨rfl, rfl⟩

/-- An import is no export. -/
theorem Imports.not_exports {asked : Session σ} {command : Command}
    (himports : Imports h t line name asked) (hcommand : Command.parse line = some command)
    {other : String} {w : σ} : ¬ Exports h s command other bytes w := by
  rintro ⟨rfl, -, -, -⟩
  rw [Command.parse] at hcommand
  cases himports with
  | given hwords =>
    rw [hwords] at hcommand
    have hline : some (Command.importFrom (some name)) = some (.exportTo _) := hcommand
    cases hline
  | answered hwords _ =>
    rw [hwords] at hcommand
    have hline : some (Command.importFrom none) = some (.exportTo _) := hcommand
    cases hline

/-- An export that was carried out makes a checkpoint, until the file is written again. -/
theorem checkpoint_of_export (hkeeps : h.KeepsFiles same) (hm : s.machine.InRange)
    {command : Command} {w : σ} (hline : Command.parse line = some command)
    (hexports : Exports h s command name bytes w)
    (hwritten : (h.writeFile name bytes w).1 = .ok ()) :
    Checkpoint h (OverwritesIn h same name) (ImportsFile h name) s.machine
      (s.execute h patience line).2 := by
  have hread : h.readFile name (s.execute h patience line).2.execution.world = .ok bytes :=
    read_of_export hkeeps hline hexports hwritten
  apply Checkpoint.of_restored
  · rintro t line' command' ⟨asked, himports⟩ hcommand' ⟨other, written, w', hother, -⟩
    exact himports.not_exports hcommand' hother
  · intro t ht line' himports patience'
    have hchanges : Changes h (fun _ => True)
        (fun other written w => ¬ Overwrites h same name other written w)
        (s.execute h patience line).2 t :=
      ht.changes (fun _ => trivial) fun hbarred other written w' hother hover =>
        hbarred ⟨other, written, w', hother, hover⟩
    cases hexports with
    | @intro given _ asked _ hcommand hname hnull hbytes =>
      have hmachine : asked.machine = s.machine := by
        rw [← machine_fileName (h := h) s given, hname]
      rw [hmachine] at hbytes
      exact execute_of_importsFile hkeeps hm hbytes hnull (file_kept hkeeps hchanges hread) himports

end Session

open Session

/-- At any moment of a session in range its machine `s.machine` can be put aside in three ways, and
comes back from each: saved under a name, until the name is used again; shown as a text, which can
be typed at any time; and exported to a file, until the file is written again. -/
theorem checkpoints_restore {σ ε : Type} (h : Host σ ε) {s₀ s : Session σ} (h₀ : s₀.InRange)
    (hs : Later h (fun _ _ => False) s₀ s) (patience : Nat) (line : String) :
    (∀ {name : String}, Command.parse line = some (.save name) →
      Checkpoint h (fun _ command => command = .save name) (fun _ => Loads name) s.machine
        (s.execute h patience line).2) ∧
    (Command.parse line = some .dumpText →
      ∃ text, Snapshot.encodeText s.machine = .ok text ∧
        s.execute h patience line = (.ok (), s.echo h text) ∧
        Checkpoint h (fun _ _ => False) (TypesText h text) s.machine
          (s.execute h patience line).2) ∧
    ∀ {same : String → String → Prop}, h.KeepsFiles same →
      ∀ {command : Command} {name : String} {bytes : List UInt8} {w : σ},
        Command.parse line = some command → Exports h s command name bytes w →
          (h.writeFile name bytes w).1 = .ok () →
            Checkpoint h (OverwritesIn h same name) (ImportsFile h name) s.machine
              (s.execute h patience line).2 := by
  have hm : s.machine.InRange := (hs.inRange h₀).machine
  refine ⟨?_, ?_, ?_⟩
  · intro name hline
    exact checkpoint_of_save hline
  · intro hline
    have htext := Snapshot.encodeText_of_inRange hm
    refine ⟨_, htext, ?_, checkpoint_of_text hm (s.execute h patience line).2⟩
    rw [execute_of_parse hline, perform]
    simp only [htext]
  · intro same hkeeps command name bytes w hline hexports hwritten
    exact checkpoint_of_export hkeeps hm hline hexports hwritten

namespace Rehearsal

/-- Two names lead to one place. -/
def SamePlace (other name : String) : Prop :=
  (Path.parse (Path.parse other).render).place = (Path.parse (Path.parse name).render).place

/-- In the prepared world only exports touch the files. -/
theorem preserves_of_files {act : Rehearsal → Rehearsal} (hact : ∀ w, (act w).files = w.files) :
    host.Preserves act := by
  intro name w bytes hread
  have hsame : host.readFile name (act w) = host.readFile name w :=
    congrArg (fun files => files.read (Path.parse name).render) (hact w)
  exact hsame.trans hread

theorem files_ask (prompt : String) (w : Rehearsal) : (host.ask prompt w).2.files = w.files := by
  obtain ⟨tape, _ | ⟨answer, rest⟩, files, echoed, asked, notes⟩ := w
  · rfl
  · rfl

/-- The prepared world gives back what was written last. -/
theorem host_keepsFiles : host.KeepsFiles SamePlace where
  written {name bytes w} hwritten := by
    simp only [host] at hwritten ⊢
    split at hwritten
    · next files hfiles => exact Directory.read_write hfiles
    · exact absurd hwritten (by simp)
  elsewhere {name other bytes w} hother hread written := by
    simp only [host] at hread ⊢
    split
    · next files hfiles => exact Directory.read_write_of_ne hfiles hread hother
    · exact hread
  echo _ := preserves_of_files fun _ => rfl
  ask prompt := preserves_of_files (files_ask prompt)
  note _ := preserves_of_files fun _ => rfl
  request := preserves_of_files fun _ => rfl
  emit _ := preserves_of_files fun _ => rfl
  report _ := preserves_of_files fun _ => rfl

end Rehearsal

/-- A session whose machine stands at box 3; its text waits to be typed. -/
def pausedSession : Session Rehearsal :=
  { execution :=
      { machine := { pc := 3, accumulator := 7 }
        world := { answers := [Snapshot.textOf { pc := 3, accumulator := 7 }] } } }

theorem checkpoints_restore_paused :
    pausedSession.InRange ∧
    ((((pausedSession.execute Rehearsal.host 0 "save a").2.execute Rehearsal.host 0
      "br 9").2.execute Rehearsal.host 0 "load a").2.machine = { pc := 3, accumulator := 7 }) ∧
    ((((pausedSession.execute Rehearsal.host 0 "dumpstr").2.execute Rehearsal.host 0
      "br 9").2.execute Rehearsal.host 0 "loadstr").2.machine = { pc := 3, accumulator := 7 }) ∧
    (((pausedSession.execute Rehearsal.host 0 "export f").2.execute Rehearsal.host 0
      "br 9").2.execute Rehearsal.host 0 "import f").2.machine = { pc := 3, accumulator := 7 } := by
  have hrange : pausedSession.InRange := ⟨by decide, by simp [pausedSession], by
    simp [pausedSession]⟩
  have hbranch : Command.parse "br 9" = some (.branch "9") := by decide +kernel
  have hbr : ∀ command, Command.parse "br 9" = some command → command = .branch "9" :=
    fun command h => Option.some_inj.mp (h.symm.trans hbranch)
  refine ⟨hrange, ?_, ?_, ?_⟩
  · have hsave : Command.parse "save a" = some (.save "a") := by decide +kernel
    have hload : Command.parse "load a" = some (.restore "a") := by decide +kernel
    have hcheck := (checkpoints_restore Rehearsal.host hrange .refl 0 "save a").1 hsave
    refine (hcheck.restored (Later.refl.execute 0 fun command h => ?_) hload 0).2
    rw [hbr command h]
    decide
  · have hdump : Command.parse "dumpstr" = some .dumpText := by decide +kernel
    have hload : Command.parse "loadstr" = some .loadText := by decide +kernel
    obtain ⟨text, htext, -, hcheck⟩ :=
      (checkpoints_restore Rehearsal.host hrange .refl 0 "dumpstr").2.1 hdump
    obtain rfl : text = Snapshot.textOf { pc := 3, accumulator := 7 } :=
      Except.ok.inj (htext.symm.trans (Snapshot.encodeText_of_inRange hrange.machine))
    refine (hcheck.restored (Later.refl.execute 0 fun _ _ => not_false) ⟨hload, ?_⟩ 0).2
    decide +kernel
  · have hexport : Command.parse "export f" = some (.exportTo (some "f")) := by decide +kernel
    have himport : words "import f" = ["import", "f"] := by decide +kernel
    have hnull : "f".contains '\x00' = false := by
      rw [String.contains_char_eq]
      decide
    have hspot : ({} : Directory).resolve (Path.parse "f").render = .ok (.vacant ["f"]) := by
      decide +kernel
    obtain ⟨bytes, hbytes, -⟩ := Snapshot.encodeBinary_of_inRange hrange.machine
    have hwritten :
        (Rehearsal.host.writeFile "f" bytes pausedSession.execution.world).1 = .ok () := by
      have hfiles : pausedSession.execution.world.files = {} := rfl
      simp only [Rehearsal.host, hfiles, Directory.write, hspot, Place.spot?]
    have hcheck := (checkpoints_restore Rehearsal.host hrange .refl 0 "export f").2.2
      Rehearsal.host_keepsFiles hexport (.intro rfl rfl hnull hbytes) hwritten
    refine (hcheck.restored (Later.refl.execute 0 fun command h => ?_)
      ⟨_, .given himport⟩ 0).2
    rw [hbr command h]
    rintro ⟨_, _, _, hother, -⟩
    cases hother with
    | intro hcommand _ _ _ => exact absurd hcommand (by simp)

end LittleMan.Debugger
