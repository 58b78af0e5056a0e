/-
Diagnostics on source text: a place, what is wrong there, the line in question and a hint.
-/
namespace LittleMan

/-- A place in a source text. Lines and columns count from 1; column 0 means the line as a whole. -/
structure Location where
  filename : String
  line : Int
  column : Int := 0
deriving DecidableEq, Repr, Inhabited

/-- `file:line:column`. -/
def Location.render (l : Location) : String :=
  l.filename ++ ":" ++ toString l.line ++ ":" ++ toString l.column

/-- A complaint about a source text. -/
structure Diagnostic where
  message : String
  place : Option Location := none
  hint : Option String := none
  quoted : Option String := none
deriving DecidableEq, Repr, Inhabited

namespace Diagnostic

/-- The first line of a diagnostic. -/
def headline (d : Diagnostic) : String :=
  match d.place with
  | some l => l.render ++ ": error: " ++ d.message
  | none => "error: " ++ d.message

/-- The quoted line, indented by four, and a caret under the column at fault. -/
def excerpt (d : Diagnostic) : List String :=
  match d.quoted, d.place with
  | some text, some l =>
    ("    " ++ text) ::
      if l.column > 0 then [String.ofList (List.replicate (3 + l.column.toNat) ' ') ++ "^"] else []
  | _, _ => []

/-- The hint, unless it is empty. -/
def hintLine (d : Diagnostic) : List String :=
  match d.hint with
  | some hint => if hint = "" then [] else ["hint: " ++ hint]
  | none => []

/-- The lines of a diagnostic. -/
def lines (d : Diagnostic) : List String := d.headline :: d.excerpt ++ d.hintLine

/-- A diagnostic as it is shown. -/
def render (d : Diagnostic) : String := "\n".intercalate d.lines

end Diagnostic

end LittleMan
