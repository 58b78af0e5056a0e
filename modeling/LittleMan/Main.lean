/-
The command line tool. Whatever an invocation does is decided by its transcript; here files are
looked up, what was shown is written out, and lines are read as long as the transcript waits for
more.

The transcript is drawn up anew after each line. It starts with what it held before, so only the
rest is shown.
-/
import LittleMan.CommandLine.Transcript
namespace LittleMan.CommandLine

/-- More steps than anyone waits for. -/
def enoughSteps : Nat := 1000000000000

/-- What there is at a path, if anything. -/
def lookAt (path : Path) : IO (Option Node) := do
  try
    let bytes ← IO.FS.readBinFile path.render
    return some (.file bytes.toList)
  catch e => match e with
    | .inappropriateType .. => return some .directory
    | _ => return none

/-- The paths that lead to a path, and itself. -/
def leading (path : Path) : List Path :=
  (List.range path.parts.length).map fun n => { path with parts := path.parts.take (n + 1) }

/-- What words name, as far as it was not looked up before. -/
def lookUp (words : List String) (known : List (List String)) :
    IO (List (List String) × List (Path × Node)) := do
  let mut known := known
  let mut found := []
  for path in words.flatMap fun word => leading (Path.parse word) do
    unless known.contains path.place do
      known := path.place :: known
      if let some node ← lookAt path then found := found ++ [(path, node)]
  return (known, found)

/-- Adds what was found. -/
def addAll (files : Directory) (found : List (Path × Node)) : Directory :=
  found.foldl (fun files (path, node) => files.add path node) files

/-- Shows a text. -/
def showText : Channel × String → IO Unit
  | (.output, text) => do
    let stream ← IO.getStdout
    stream.putStr text
    stream.flush
  | (.complaints, text) => do
    let stream ← IO.getStderr
    stream.putStr text
    stream.flush

/-- Writes the files that have changed. -/
def saveChanges (before after : Directory) : IO Unit := do
  for (place, bytes) in before.changedSince after do
    IO.FS.writeBinFile (Path.ofPlace place).render ⟨bytes.toArray⟩

/-- Goes on with an invocation of which some things have been shown, and some files saved. -/
partial def converse (i : Invocation) (known : List (List String)) (shown : Nat)
    (saved : Directory) : IO UInt32 := do
  let t := i.transcript enoughSteps
  for item in t.console.shown.toList.drop shown do showText item
  saveChanges saved t.console.files
  if t.isWaiting then
    let line ← (← IO.getStdin).getLine
    let typed := typedLines line
    let (known, found) ← lookUp (typed.flatMap Debugger.words) known
    converse
      { i with typed := i.typed ++ typed, closed := line.isEmpty, files := addAll i.files found }
      known t.console.shown.size (addAll t.console.files found)
  else
    if let .uncaught kind message := t.ending then
      showText (.complaints, kind ++ ": " ++ message ++ "\n")
    return UInt32.ofNat t.exitCode

/-- Carries out an invocation with the given words. -/
def invoke (words : List String) : IO UInt32 := do
  let mut environment : Environment := []
  for name in Settings.names do
    if let some value ← IO.getEnv name then environment := environment ++ [(name, value)]
  let (known, found) ← lookUp words []
  let files := addAll {} found
  converse { words, environment, files, closed := false, echoing := false } known 0 files

end LittleMan.CommandLine

/-- The command line tool. -/
def main (words : List String) : IO UInt32 := LittleMan.CommandLine.invoke words
