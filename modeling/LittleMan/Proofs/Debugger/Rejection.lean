/-
What a debugger refuses changes nothing.

A command line is refused because no command has its word and its number of arguments, because a
point names no box, because nothing was saved under a name, or because a text or a file makes no
machine. Each of these is answered with one line (`Refuses`), and that line is all that comes of it.
A text or a file that makes a machine puts it in the place of the old one and does nothing else
(`Fetches`).

* `ofWords_isSome_iff`: the commands, by their words and the numbers of their arguments;
* `execute_of_refuses`, `execute_of_fetches`: what becomes of such a line;
* `refused_line_changes_nothing`: so a refused line leaves everything as it was, and one that
  fetches a machine everything else.

The name of a file may hold a NUL, whether it was given or asked for. Such a line too leaves all as
it was, but it ends in an error instead of an answer.
-/
import LittleMan.Debugger.Rehearsal
import LittleMan.Proofs.Snapshot.Text
import LittleMan.Proofs.Survey
namespace LittleMan.Debugger

open Text

/-! ### The words of commands -/

/-- The word of a command, and how many arguments it takes. -/
structure Command.Arity where
  word : String
  least : Nat := 0
  most : Nat := 0
deriving DecidableEq, Repr

namespace Command

/-- The words of all commands. -/
def arities : List Arity := [
  { word := "run" },
  { word := "var", least := 1, most := 1 },
  { word := "vars" },
  { word := "runto", least := 1, most := 1 },
  { word := "s" },
  { word := "br", least := 1, most := 1 },
  { word := "dumpstr" },
  { word := "loadstr" },
  { word := "save", least := 1, most := 1 },
  { word := "load", least := 1, most := 1 },
  { word := "export", most := 1 },
  { word := "import", most := 1 },
  { word := "help" },
  { word := "quit" },
  { word := "exit" }]

/-- The command takes that many arguments. -/
def Arity.Takes (a : Arity) (count : Nat) : Prop := a.least ≤ count ∧ count ≤ a.most

instance (a : Arity) (count : Nat) : Decidable (a.Takes count) :=
  inferInstanceAs (Decidable (_ ∧ _))

theorem isSome_ofWords_one {a : Arity} (ha : a ∈ arities) (hmost : a.most = 1) (arg : String) :
    (ofWords [a.word, arg]).isSome = true := by
  simp only [arities, List.mem_cons, List.not_mem_nil, or_false] at ha
  rcases ha with rfl | rfl | rfl | rfl | rfl | rfl | rfl | rfl | rfl | rfl | rfl | rfl | rfl |
    rfl | rfl <;> first | rfl | exact absurd hmost (by decide)

/-- The table lists the commands, and none that is not there. -/
theorem ofWords_isSome_iff {name : String} {args : List String} :
    (ofWords (name :: args)).isSome = true ↔ ∃ a ∈ arities, a.word = name ∧ a.Takes args.length := by
  constructor
  · intro h
    unfold ofWords at h
    split at h
    -- every row of the match but the last is one of the table
    all_goals first
      | exact absurd h (by decide)
      | next heq =>
        cases heq <;>
          simp only [List.length_nil, List.length_cons] <;> decide
  · rintro ⟨a, ha, rfl, hleast, hmost⟩
    have hnone : ∀ a ∈ arities, a.least = 0 → (ofWords [a.word]).isSome = true := by decide
    have hle : ∀ a ∈ arities, a.most ≤ 1 := by decide
    -- no command takes a second argument, so one argument is the most to look at
    rcases args with _ | ⟨arg, _ | ⟨second, rest⟩⟩
    · exact hnone a ha (Nat.le_zero.mp hleast)
    · exact isSome_ofWords_one ha (Nat.le_antisymm (hle a ha) hmost) arg
    · exact absurd (hmost.trans (hle a ha)) (by simp)

end Command

namespace Session

variable {σ ε α : Type} {h : Host σ ε} {s t u asked : Session σ} {line answer : String}
  {m : Machine} {patience : Nat}

theorem execute_of_parse {command : Command} (hparse : Command.parse line = some command) :
    s.execute h patience line = s.perform h patience command := by
  rw [execute, hparse]

theorem execute_of_words {ws : List String} {command : Command} (hwords : words line = ws)
    (hcommand : Command.ofWords ws = some command) :
    s.execute h patience line = s.perform h patience command :=
  execute_of_parse (by rw [Command.parse, hwords, hcommand])

/-! ### Imports -/

/-- The line is an import of the file of that name, given with it or asked for; `asked` is the
session once it is known. -/
inductive Imports (h : Host σ ε) (s : Session σ) (line : String) : String → Session σ → Prop where
  | given {name : String} (hwords : words line = ["import", name]) : Imports h s line name s
  | answered {text : String} {asked : Session σ} (hwords : words line = ["import"])
      (hask : s.ask h "Filename> " = (some text, asked)) :
      Imports h s line (String.ofList (trim text.toList)) asked

theorem execute_of_import {name : String} (hname : Imports h s line name asked) :
    s.execute h patience line = asked.readFrom h name := by
  cases hname with
  | given hwords => rw [execute_of_words hwords rfl, perform, fileName]
  | answered hwords hask =>
    rw [execute_of_words hwords rfl, perform, fileName, hask]
    rfl

/-- A NUL in the name is found out before the file is looked for. -/
theorem execute_of_import_null {name : String} (hname : Imports h s line name asked)
    (hnull : name.contains '\x00' = true) :
    s.execute h patience line = (.error .nullInName, asked) := by
  rw [execute_of_import hname, readFrom, if_pos hnull]

section Reading

variable {name : String} {bytes : List UInt8} (hnull : name.contains '\x00' = false)

include hnull

theorem readFrom_of_no_file {e : FileError}
    (hread : h.readFile name s.execution.world = .error e) :
    s.readFrom h name = (.ok (), s.echo h
      (if e.number = 2 then "File not found" else "Failed to read: " ++ e.message)) := by
  rw [readFrom, if_neg (by simp [hnull]), hread]

theorem readFrom_of_bad_bytes {e : Snapshot.Error}
    (hread : h.readFile name s.execution.world = .ok bytes)
    (hbytes : Snapshot.decodeBinary bytes = .error e) :
    s.readFrom h name = (.ok (), s.echo h ("Failed to read: " ++ e.message)) := by
  rw [readFrom, if_neg (by simp [hnull]), hread]
  simp only [hbytes]

theorem readFrom_of_bytes (hread : h.readFile name s.execution.world = .ok bytes)
    (hbytes : Snapshot.decodeBinary bytes = .ok m) :
    s.readFrom h name =
      (.ok (), (s.withMachine m).note h ⟨.debug, "Imported state from " ++ name⟩) := by
  rw [readFrom, if_neg (by simp [hnull]), hread]
  simp only [hbytes]

end Reading

/-! ### Lines that are refused -/

/-- The answers to a point that names no box, each with the word of its command. -/
def pointRefusals (point : String) : List (String × String) := [
  ("var", "No such tag " ++ point),
  ("runto", "Unknown breakpoint: " ++ point ++ ". Enter address or label."),
  ("br", "Unknown target: " ++ point ++ ". Enter address or label.")]

/-- A line is refused with an answer; `asked` is the session once the line has asked for what it
needs. -/
inductive Refuses (h : Host σ ε) (s : Session σ) (line : String) : Session σ → String → Prop where
  | unknownWord {name : String} {args : List String} (hwords : words line = name :: args)
      (hname : ∀ a ∈ Command.arities, a.word ≠ name) :
      Refuses h s line s ("Unknown command: " ++ String.ofList (trim line.toList))
  | wrongCount {a : Command.Arity} {args : List String} (ha : a ∈ Command.arities)
      (hwords : words line = a.word :: args) (hcount : ¬ a.Takes args.length) :
      Refuses h s line s ("Unknown command: " ++ String.ofList (trim line.toList))
  | unknownPoint {word point answer : String} (hanswer : (word, answer) ∈ pointRefusals point)
      (hwords : words line = [word, point]) (hnumber : isNumeral point.toList = false)
      (htag : point ∉ s.tags.names) : Refuses h s line s answer
  | unsaved {name : String} (hwords : words line = ["load", name])
      (hname : name ∉ s.saved.map Prod.fst) :
      Refuses h s line s ("No stored state found: " ++ name)
  | badText {text : String} {asked : Session σ} {e : Snapshot.Error}
      (hwords : words line = ["loadstr"]) (hask : s.ask h "Load>" = (some text, asked))
      (htext : Snapshot.decodeText text = .error e) :
      Refuses h s line asked ("Invalid input: " ++ e.message)
  | missingFile {name : String} {asked : Session σ} {e : FileError}
      (hname : Imports h s line name asked) (hnull : name.contains '\x00' = false)
      (hread : h.readFile name asked.execution.world = .error e) (he : e.number = 2) :
      Refuses h s line asked "File not found"
  | unreadableFile {name : String} {asked : Session σ} {e : FileError}
      (hname : Imports h s line name asked) (hnull : name.contains '\x00' = false)
      (hread : h.readFile name asked.execution.world = .error e) (he : e.number ≠ 2) :
      Refuses h s line asked ("Failed to read: " ++ e.message)
  | badBytes {name : String} {asked : Session σ} {bytes : List UInt8} {e : Snapshot.Error}
      (hname : Imports h s line name asked) (hnull : name.contains '\x00' = false)
      (hread : h.readFile name asked.execution.world = .ok bytes)
      (hbytes : Snapshot.decodeBinary bytes = .error e) :
      Refuses h s line asked ("Failed to read: " ++ e.message)

theorem execute_of_ofWords_eq_none (hwords : Command.ofWords (words line) = none) :
    s.execute h patience line =
      (.ok (), s.echo h ("Unknown command: " ++ String.ofList (trim line.toList))) := by
  rw [execute, Command.parse, hwords]

/-- A point that is neither a number nor a tag names no box. -/
theorem withPoint_of_unknown {point : String} (hnumber : isNumeral point.toList = false)
    (htag : point ∉ s.tags.names) (unknown : String)
    (next : Int → Except (Error ε) Unit × Session σ) :
    s.withPoint h point unknown next = (.ok (), s.echo h unknown) := by
  have hresolve : s.resolve point = .ok none := by
    rw [resolve, if_neg (by simp [hnumber]), TagTable.address?_eq_none_iff.mpr htag]
  rw [withPoint, hresolve]

/-- A refused line shows its answer and does nothing else. -/
theorem execute_of_refuses (hrefuses : Refuses h s line asked answer) :
    s.execute h patience line = (.ok (), asked.echo h answer) := by
  cases hrefuses with
  | @unknownWord name args hwords hname =>
    apply execute_of_ofWords_eq_none
    rw [hwords, ← Option.not_isSome_iff_eq_none, Command.ofWords_isSome_iff]
    rintro ⟨a, ha, hword, -⟩
    exact hname a ha hword
  | @wrongCount a args ha hwords hcount =>
    apply execute_of_ofWords_eq_none
    rw [hwords, ← Option.not_isSome_iff_eq_none, Command.ofWords_isSome_iff]
    -- a word stands for one command only
    have hunique : ∀ a ∈ Command.arities, ∀ b ∈ Command.arities, b.word = a.word → b = a := by
      decide +kernel
    rintro ⟨b, hb, hword, hcount'⟩
    rw [hunique a ha b hb hword] at hcount'
    exact hcount hcount'
  | @unknownPoint word point answer hanswer hwords hnumber htag =>
    simp only [pointRefusals, List.mem_cons, List.not_mem_nil, or_false, Prod.mk.injEq] at hanswer
    rcases hanswer with ⟨rfl, rfl⟩ | ⟨rfl, rfl⟩ | ⟨rfl, rfl⟩ <;>
      rw [execute_of_words hwords rfl] <;>
      exact withPoint_of_unknown hnumber htag _ _
  | @unsaved name hwords hname =>
    have hlookup : s.saved.lookup name = none := by
      rw [List.lookup_eq_none_iff]
      rintro e he
      rw [bne_iff_ne]
      rintro rfl
      exact hname (List.mem_map_of_mem he)
    rw [execute_of_words hwords rfl, perform, hlookup]
  | badText hwords hask htext =>
    rw [execute_of_words hwords rfl, perform, loadText, hask]
    simp only [htext]
  | missingFile hname hnull hread he =>
    rw [execute_of_import hname, readFrom_of_no_file hnull hread, if_pos he]
  | unreadableFile hname hnull hread he =>
    rw [execute_of_import hname, readFrom_of_no_file hnull hread, if_neg he]
  | badBytes hname hnull hread hbytes =>
    rw [execute_of_import hname, readFrom_of_bad_bytes hnull hread hbytes]

/-! ### Lines that fetch a machine -/

/-- A line brings in a machine, from a text or from a file. -/
inductive Fetches (h : Host σ ε) (s : Session σ) (line : String) : Machine → Prop where
  | text {text : String} {asked : Session σ} {m : Machine} (hwords : words line = ["loadstr"])
      (hask : s.ask h "Load>" = (some text, asked)) (htext : Snapshot.decodeText text = .ok m) :
      Fetches h s line m
  | file {name : String} {asked : Session σ} {bytes : List UInt8} {m : Machine}
      (hname : Imports h s line name asked) (hnull : name.contains '\x00' = false)
      (hread : h.readFile name asked.execution.world = .ok bytes)
      (hbytes : Snapshot.decodeBinary bytes = .ok m) : Fetches h s line m

end Session

/-- `io` is the machine's side of a world, and `shown` are the lines shown so far. To show, to ask
and to note has to do with the machine's side in no way, and only what is shown is added to the
lines. -/
structure Host.Observed {σ ε α : Type} (h : Host σ ε) (io : σ → α) (shown : σ → List String) :
    Prop where
  echo : ∀ line w, io (h.echo line w) = io w ∧ shown (h.echo line w) = shown w ++ [line]
  ask : ∀ prompt w, io (h.ask prompt w).2 = io w ∧ shown (h.ask prompt w).2 = shown w
  note : ∀ entry w, io (h.note entry w) = io w ∧ shown (h.note entry w) = shown w

namespace Session

variable {σ ε α : Type} {h : Host σ ε} {s t asked : Session σ} {line answer : String}
  {m : Machine} {patience : Nat} {io : σ → α} {shown : σ → List String} {lines : List String}

/-- Some lines were shown, the machine is now `m`, and nothing else has happened. -/
structure Leaves (io : σ → α) (shown : σ → List String) (m : Machine) (lines : List String)
    (s t : Session σ) : Prop where
  machine : t.machine = m
  progress : t.execution.progress = s.execution.progress
  tags : t.tags = s.tags
  saved : t.saved = s.saved
  halted : t.halted = s.halted
  finished : t.finished = s.finished
  io : io t.execution.world = io s.execution.world
  shown : shown t.execution.world = shown s.execution.world ++ lines

namespace Leaves

theorem refl (s : Session σ) : Leaves io shown s.machine [] s s :=
  ⟨rfl, rfl, rfl, rfl, rfl, rfl, rfl, (List.append_nil _).symm⟩

theorem withMachine (hl : Leaves io shown m lines s t) (m' : Machine) :
    Leaves io shown m' lines s (t.withMachine m') := { hl with machine := rfl }

theorem withWorld {w : σ} (hl : Leaves io shown m lines s t)
    (hw : io w = io t.execution.world ∧ shown w = shown t.execution.world) :
    Leaves io shown m lines s (t.withWorld w) :=
  { hl with io := hw.1.trans hl.io, shown := hw.2.trans hl.shown }

theorem echo (hobs : h.Observed io shown) (hl : Leaves io shown m [] s t) (line : String) :
    Leaves io shown m [line] s (t.echo h line) := by
  have hw := hobs.echo line t.execution.world
  have hshown : shown t.execution.world = shown s.execution.world :=
    hl.shown.trans (List.append_nil _)
  exact { hl with io := hw.1.trans hl.io, shown := by rw [← hshown]; exact hw.2 }

theorem of_ask (hobs : h.Observed io shown) {prompt : String} {reply : Option String}
    (hask : s.ask h prompt = (reply, asked)) : Leaves io shown s.machine [] s asked := by
  obtain ⟨-, rfl⟩ := Prod.mk.inj hask
  exact (refl s).withWorld (hobs.ask prompt s.execution.world)

theorem of_import (hobs : h.Observed io shown) {name : String}
    (hname : Imports h s line name asked) : Leaves io shown s.machine [] s asked := by
  cases hname with
  | given _ => exact refl s
  | answered _ hask => exact of_ask hobs hask

end Leaves

/-- Before a refusal the line has at most asked for something. -/
theorem Refuses.leaves_asked (hobs : h.Observed io shown)
    (hrefuses : Refuses h s line asked answer) : Leaves io shown s.machine [] s asked := by
  cases hrefuses with
  | badText _ hask _ => exact .of_ask hobs hask
  | missingFile hname _ _ _ => exact .of_import hobs hname
  | unreadableFile hname _ _ _ => exact .of_import hobs hname
  | badBytes hname _ _ _ => exact .of_import hobs hname
  | _ => exact .refl s

theorem leaves_of_refuses (hobs : h.Observed io shown)
    (hrefuses : Refuses h s line asked answer) :
    ∃ t, s.execute h patience line = (.ok (), t) ∧ Leaves io shown s.machine [answer] s t :=
  ⟨asked.echo h answer, execute_of_refuses hrefuses,
    (hrefuses.leaves_asked hobs).echo hobs answer⟩

theorem leaves_of_fetches (hobs : h.Observed io shown) (hfetches : Fetches h s line m) :
    ∃ t, s.execute h patience line = (.ok (), t) ∧ Leaves io shown m [] s t := by
  cases hfetches with
  | @text text asked _ hwords hask htext =>
    refine ⟨asked.withMachine m, ?_, (Leaves.of_ask hobs hask).withMachine m⟩
    rw [execute_of_words hwords rfl, perform, loadText, hask]
    simp only [htext]
  | @file name asked bytes _ hname hnull hread hbytes =>
    refine ⟨(asked.withMachine m).note h ⟨.debug, "Imported state from " ++ name⟩, ?_,
      ((Leaves.of_import hobs hname).withMachine m).withWorld (hobs.note _ _)⟩
    rw [execute_of_import hname, readFrom_of_bytes hnull hread hbytes]

end Session

open Session

/-- A refused line is answered with one line and leaves everything as it was. A line that fetches a
machine puts it in the place of the old one and leaves everything else; nothing is shown. A file
name with a NUL is neither refused nor read: the line ends in an error, and nothing is shown. -/
theorem refused_line_changes_nothing {σ ε α : Type} (h : Host σ ε) {io : σ → α}
    {shown : σ → List String} (hobs : h.Observed io shown) (patience : Nat) (s : Session σ)
    (line : String) :
    (∀ {asked : Session σ} {answer : String}, Refuses h s line asked answer →
      ∃ t, s.execute h patience line = (.ok (), t) ∧ Leaves io shown s.machine [answer] s t) ∧
    (∀ {m : Machine}, Fetches h s line m →
      ∃ t, s.execute h patience line = (.ok (), t) ∧ Leaves io shown m [] s t) ∧
    ∀ {name : String} {asked : Session σ}, Imports h s line name asked →
      name.contains '\x00' = true →
        ∃ t, s.execute h patience line = (.error .nullInName, t) ∧
          Leaves io shown s.machine [] s t := by
  refine ⟨fun hrefuses => leaves_of_refuses hobs hrefuses,
    fun hfetches => leaves_of_fetches hobs hfetches, fun {name asked} hname hnull => ?_⟩
  exact ⟨asked, execute_of_import_null hname hnull, .of_import hobs hname⟩

/-- In the prepared world the tape is the machine's side. -/
theorem Rehearsal.host_observed :
    Rehearsal.host.Observed (fun w => w.tape) (fun w => w.echoed.toList) where
  echo _ _ := ⟨rfl, Array.toList_push⟩
  ask _ w := by
    obtain ⟨tape, _ | ⟨answer, rest⟩, files, echoed, asked, notes⟩ := w
    · exact ⟨rfl, rfl⟩
    · exact ⟨rfl, rfl⟩
  note _ _ := ⟨rfl, rfl⟩

/-- A session with one machine saved, and the text of another to be typed. -/
def withOneSaved : Session Rehearsal :=
  { execution :=
      { machine := { pc := 7 }
        world := { answers := [Snapshot.textOf { accumulator := 5 }] } }
    saved := [("a", {})] }

theorem refused_line_unsaved :
    (∃ t, withOneSaved.execute Rehearsal.host 0 "load b" = (.ok (), t) ∧
      Leaves (fun w => w.tape) (fun w => w.echoed.toList) { pc := 7 }
        ["No stored state found: b"] withOneSaved t) ∧
    ∃ t, withOneSaved.execute Rehearsal.host 0 "loadstr" = (.ok (), t) ∧
      Leaves (fun w => w.tape) (fun w => w.echoed.toList) { accumulator := 5 } [] withOneSaved t := by
  have hload : words "load b" = ["load", "b"] := by decide +kernel
  have hloadText : words "loadstr" = ["loadstr"] := by decide +kernel
  refine ⟨?_, ?_⟩
  · exact (refused_line_changes_nothing Rehearsal.host Rehearsal.host_observed 0 withOneSaved
      "load b").1 (.unsaved hload (by decide))
  · exact (refused_line_changes_nothing Rehearsal.host Rehearsal.host_observed 0 withOneSaved
      "loadstr").2.1 (.text hloadText rfl (Snapshot.decodeText_textOf (by decide)))

/-- There is no file of that name, and yet the line is not answered. -/
theorem missing_file_unanswered :
    (∃ e, Rehearsal.host.readFile "a\x00b" withOneSaved.execution.world = .error e ∧
      e.number = 2) ∧
    withOneSaved.execute Rehearsal.host 0 "import a\x00b" = (.error .nullInName, withOneSaved) ∧
    withOneSaved.execution.world.echoed = #[] := by
  have hwords : words "import a\x00b" = ["import", "a\x00b"] := by decide +kernel
  have hnull : "a\x00b".contains '\x00' = true := by
    rw [String.contains_char_eq]
    decide
  refine ⟨⟨.notFound "a\x00b", ?_, rfl⟩, execute_of_import_null (.given hwords) hnull, rfl⟩
  decide +kernel

end LittleMan.Debugger
