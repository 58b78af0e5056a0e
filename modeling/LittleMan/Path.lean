/-
Paths of files: a root, if the path is absolute, and names. Repeated slashes and single dots do not
count; two dots are a name like any other.

* `Path.parse`, `Path.render`: reading and writing;
* `Path.climb`: where a name leads from a place, two dots to the place above;
* `Path.packed`: the default place of a packed program, beside its source, as a text; slashes and
  dots in the suffix stay in it, even if they do not count.
-/
import LittleMan.Text.Blank
import LittleMan.Text.Quoted
namespace LittleMan

open Text

/-- A path. -/
structure Path where
  root : String
  parts : List String
deriving DecidableEq, Repr, Inhabited

namespace Path

/-- Reads a path. Exactly two slashes at the start are a root of their own. -/
def parse (text : String) : Path :=
  let cs := text.toList
  let slashes := (cs.takeWhile (· = '/')).length
  let root := if slashes = 0 then "" else if slashes = 2 then "//" else "/"
  let pieces := (splitOn '/' cs).map String.ofList
  { root, parts := pieces.filter fun piece => piece ≠ "" && piece ≠ "." }

/-- Writes a path; the path of nothing is a dot. -/
def render (p : Path) : String :=
  let text := p.root ++ "/".intercalate p.parts
  if text = "" then "." else text

/-- The place that a name leads to. Places are lists of names, the root being the name `/`; two dots
lead one up, from the root to itself, and beyond the top of a relative path to further dots. -/
def climb (here : List String) (name : String) : List String :=
  if name = ".." then
    match here.getLast? with
    | none | some ".." => here ++ [".."]
    | some "/" => here
    | some _ => here.dropLast
  else here ++ [name]

/-- Where a path starts. -/
def start (p : Path) : List String := if p.root = "" then [] else ["/"]

/-- The place that a path leads to. -/
def place (p : Path) : List String := p.parts.foldl climb p.start

/-- A place as a path. -/
def ofPlace : List String → Path
  | "/" :: parts => ⟨"/", parts⟩
  | parts => ⟨"", parts⟩

/-- The last name, empty if there is none. -/
def name (p : Path) : String := p.parts.getLast?.getD ""

/-- A name as stem and extension. The extension starts at the last dot, which may be neither the
first nor the last character. -/
def splitName (name : String) : String × String :=
  let cs := name.toList
  let extension := (cs.reverse.takeWhile (· ≠ '.')).reverse
  let stem := cs.take (cs.length - extension.length - 1)
  if cs.contains '.' && !extension.isEmpty && !stem.isEmpty then
    (String.ofList stem, "." ++ String.ofList extension)
  else (name, "")

/-- Why a path has no packed neighbour. -/
inductive Error where
  | emptyName (path : String)
  | invalidName (name : String)
deriving DecidableEq, Repr

def Error.message : Error → String
  | .emptyName path => "PosixPath(" ++ quote path ++ ") has an empty name"
  | .invalidName name => "Invalid name " ++ quote name

/-- Whether a text is one name. Slashes and dots that do not count may stand around it, except for a
slash at either end. -/
def isSingle (text : String) : Bool :=
  !text.startsWith "/" && !text.endsWith "/" && (parse text).parts.length = 1

/-- The text of the path of the packed program: the same, with a suffix on the stem. -/
def packed (p : Path) (suffix : String) : Except Error String :=
  if p.name = "" then .error (.emptyName p.render)
  else
    let (stem, extension) := splitName p.name
    let name := stem ++ suffix ++ extension
    if isSingle name then .ok { p with parts := p.parts.dropLast ++ [name] }.render
    else .error (.invalidName name)

end Path

end LittleMan
