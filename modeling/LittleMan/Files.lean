/-
Files as far as the tools see them, from a working directory.

* `Directory.read`, `Directory.write`: a whole file at once;
* `Directory.kind?`: what a path names, if anything;
* `Directory.read_write`: what was written is read.

Every refusal is one of the operating system's, with its number and its wording.
-/
import LittleMan.Path
namespace LittleMan

/-- An error of the operating system, and the file it is about. -/
structure FileError where
  number : Int
  reason : String
  file : Option String
deriving DecidableEq, Repr

namespace FileError

def message (e : FileError) : String :=
  let about := match e.file with
    | some name => ": " ++ Text.quote name
    | none => ""
  "[Errno " ++ toString e.number ++ "] " ++ e.reason ++ about

/-- There is no such file. -/
def notFound (name : String) : FileError := ⟨2, "No such file or directory", some name⟩

/-- A file stands where a directory should. -/
def notADirectory (name : String) : FileError := ⟨20, "Not a directory", some name⟩

/-- A directory stands where a file should. -/
def isADirectory (name : String) : FileError := ⟨21, "Is a directory", some name⟩

/-- A name is longer than 255 bytes. -/
def nameTooLong (name : String) : FileError := ⟨36, "File name too long", some name⟩

end FileError

/-- What a name in a directory stands for. -/
inductive Node where
  | file (bytes : List UInt8)
  | directory
deriving DecidableEq, Repr

/-- The known files and directories, each at its place. The working directory, those above it and
the root are there without being listed. -/
structure Directory where
  entries : List (List String × Node) := []
deriving DecidableEq, Repr, Inhabited

/-- What a path leads to. -/
inductive Place where
  | file (place : List String) (bytes : List UInt8)
  | directory
  /-- Nothing is there, but a file could be. -/
  | vacant (place : List String)
deriving DecidableEq, Repr

/-- Where a file is or could be. -/
def Place.spot? : Place → Option (List String)
  | .file place _ => some place
  | .directory => none
  | .vacant place => some place

namespace Directory

/-- Follows names from a place; `name` is the whole path, for the errors. -/
def follow (d : Directory) (name : String) : (here : List String) → List String →
    Except FileError Place
  | _, [] => .ok .directory
  | here, part :: rest =>
    let there := Path.climb here part
    if part = ".." then follow d name there rest
    else if part.utf8ByteSize > 255 then .error (.nameTooLong name)
    else match d.entries.lookup there with
      | some .directory => follow d name there rest
      | some (.file bytes) =>
        if rest = [] then .ok (.file there bytes) else .error (.notADirectory name)
      | none => if rest = [] then .ok (.vacant there) else .error (.notFound name)

/-- Whether a path can only lead to a directory, because a slash or a single dot ends it. -/
def isOpenEnded (name : String) : Bool := name.endsWith "/" || name.endsWith "/."

/-- What a path leads to. The empty path leads nowhere. -/
def resolve (d : Directory) (name : String) : Except FileError Place :=
  if name = "" then .error (.notFound name)
  else if name.utf8ByteSize > 4095 then .error (.nameTooLong name)
  else match d.follow name (Path.parse name).start (Path.parse name).parts with
    | .error e => .error e
    | .ok .directory => .ok .directory
    | .ok (.file place bytes) =>
      if isOpenEnded name then .error (.notADirectory name) else .ok (.file place bytes)
    | .ok (.vacant place) =>
      if isOpenEnded name then .error (.notFound name) else .ok (.vacant place)

/-- The bytes of a file. -/
def read (d : Directory) (name : String) : Except FileError (List UInt8) :=
  match d.resolve name with
  | .error e => .error e
  | .ok (.file _ bytes) => .ok bytes
  | .ok .directory => .error (.isADirectory name)
  | .ok (.vacant _) => .error (.notFound name)

/-- Puts a node at a place; one that is there already is replaced. -/
def put (d : Directory) (place : List String) (node : Node) : Directory :=
  ⟨go d.entries⟩
where
  /-- Replaces the entry of that place, or adds one at the end. -/
  go : List (List String × Node) → List (List String × Node)
    | [] => [(place, node)]
    | (other, old) :: rest =>
      if other = place then (place, node) :: rest else (other, old) :: go rest

/-- Writes a whole file, new or not. -/
def write (d : Directory) (name : String) (bytes : List UInt8) : Except FileError Directory :=
  match d.resolve name with
  | .error e => .error e
  | .ok found => match found.spot? with
    | none => .error (.isADirectory name)
    | some place => .ok (d.put place (.file bytes))

/-- What a path names: `some true` for a directory, `some false` for a file. -/
def kind? (d : Directory) (name : String) : Option Bool :=
  match d.resolve name with
  | .ok .directory => some true
  | .ok (.file ..) => some false
  | _ => none

/-- Adds what a path names, with the directories that lead there. -/
def add (d : Directory) (p : Path) (node : Node) : Directory :=
  let leading := (List.range p.parts.length).drop 1
  (leading.foldl (fun d n => d.put ({ p with parts := p.parts.take n }.place) .directory) d).put
    p.place node

/-- The directory with the given files and subdirectories. -/
def ofList (files : List (String × Node)) : Directory :=
  files.foldl (fun d (name, node) => d.add (Path.parse name) node) {}

/-- The files that are new or different from before, each with its place. -/
def changedSince (before after : Directory) : List (List String × List UInt8) :=
  after.entries.filterMap fun entry => match entry with
    | (place, .file bytes) =>
      if before.entries.lookup place = some (.file bytes) then none else some (place, bytes)
    | _ => none

theorem lookup_put (d : Directory) (place other : List String) (node : Node) :
    (d.put place node).entries.lookup other =
      if other = place then some node else d.entries.lookup other := by
  simp only [put]
  induction d.entries with
  | nil =>
    by_cases h : other = place
    · simp [put.go, h]
    · have hne : (other == place) = false := by simpa using h
      simp [put.go, List.lookup_cons, h, hne]
  | cons e rest ih =>
    obtain ⟨key, old⟩ := e
    by_cases hk : key = place
    · subst hk
      by_cases h : other = key
      · simp [put.go, h]
      · have hne : (other == key) = false := by simpa using h
        simp [put.go, List.lookup_cons, h, hne]
    · by_cases h : other = key
      · subst h
        simp [put.go, hk]
      · have hne : (other == key) = false := by simpa using h
        simp only [put.go, if_neg hk, List.lookup_cons, hne, ih]

/-- Where a file is or could be, there is no directory. -/
theorem lookup_ne_directory {d : Directory} {name : String} {place : List String} {found : Place}
    {parts here : List String} (h : d.follow name here parts = .ok found)
    (hs : found.spot? = some place) : d.entries.lookup place ≠ some .directory := by
  induction parts generalizing here with
  | nil =>
    simp only [follow, Except.ok.injEq] at h
    subst h
    cases hs
  | cons part rest ih =>
    simp only [follow] at h
    split at h
    · exact ih h
    · split at h
      · cases h
      · split at h
        · exact ih h
        · next hl =>
          split at h
          · cases h
            cases hs
            simp [hl]
          · cases h
        · next hl =>
          split at h
          · cases h
            cases hs
            simp [hl]
          · cases h

/-- Names that lead to a spot lead to the file that is put there. -/
theorem follow_put {d : Directory} {name : String} {place : List String} {found : Place}
    {bytes : List UInt8} {parts here : List String} (h : d.follow name here parts = .ok found)
    (hs : found.spot? = some place) :
    (d.put place (.file bytes)).follow name here parts = .ok (.file place bytes) := by
  induction parts generalizing here with
  | nil =>
    simp only [follow, Except.ok.injEq] at h
    subst h
    cases hs
  | cons part rest ih =>
    have hd := lookup_ne_directory h hs
    simp only [follow] at h ⊢
    split at h
    · next hp => rw [if_pos hp]; exact ih h
    · next hp =>
      rw [if_neg hp]
      split at h
      · cases h
      · next hl =>
        rw [if_neg hl, lookup_put]
        split at h
        · next hn =>
          have : Path.climb here part ≠ place := by rintro rfl; exact hd hn
          simp only [if_neg this, hn]
          exact ih h
        · next hn =>
          split at h
          · next hr =>
            cases h
            cases hs
            simp [hr]
          · cases h
        · next hn =>
          split at h
          · next hr =>
            cases h
            cases hs
            simp [hr]
          · cases h

/-- A path that leads to a spot leads to the file that is put there. -/
theorem resolve_put {d : Directory} {name : String} {place : List String} {found : Place}
    {bytes : List UInt8} (h : d.resolve name = .ok found) (hs : found.spot? = some place) :
    (d.put place (.file bytes)).resolve name = .ok (.file place bytes) := by
  unfold resolve at h ⊢
  split at h
  · cases h
  · next hn =>
    rw [if_neg hn]
    split at h
    · cases h
    · next hl =>
      rw [if_neg hl]
      split at h
      · cases h
      · cases h
        cases hs
      · next hf =>
        split at h
        · cases h
        · next ho =>
          cases h
          simp only [follow_put hf hs, if_neg ho]
      · next hf =>
        split at h
        · cases h
        · next ho =>
          cases h
          simp only [follow_put hf hs, if_neg ho]

/-- What was written is read. -/
theorem read_write {d after : Directory} {name : String} {bytes : List UInt8}
    (h : d.write name bytes = .ok after) : after.read name = .ok bytes := by
  unfold write at h
  split at h
  · cases h
  · next found hf =>
    split at h
    · cases h
    · next place hs =>
      cases h
      simp only [read, resolve_put hf hs]

end Directory

end LittleMan
