/-
Options and arguments of a command, as forms that it declares and words that were typed.

* `scan`: takes the options out of the words, by their spelling alone;
* `Scan.readNumbers`, `readArguments`: what the values mean, and which are refused.

An option starts with a dash. A long name goes with its value as the next word or after an equals
sign; switches of one letter may share a dash. Two dashes alone end the options. Spelling is looked
at first, from left to right; values come after it, numbers before arguments.
-/
import LittleMan.CommandLine.Bounds
import LittleMan.Files
import LittleMan.Text.Blank
import LittleMan.Text.Resemblance
namespace LittleMan.CommandLine

open Text

/-- An option that a command knows. -/
inductive OptionForm where
  | switch (name : String) (letter : Option Char)
  | number (name : String) (bounds : Bounds)
deriving DecidableEq, Repr

/-- The long name, with its dashes. -/
def OptionForm.name : OptionForm → String
  | switch name _ => name
  | number name _ => name

/-- What an argument stands for. -/
inductive ArgumentKind where
  | word
  /-- A file that is there already. -/
  | source
  /-- A file that may be there, but no directory. -/
  | target
deriving DecidableEq, Repr

/-- An argument that a command takes. -/
structure ArgumentForm where
  name : String
  kind : ArgumentKind
  required : Bool := true
deriving DecidableEq, Repr

/-- An argument as complaints name it: in brackets if it may be missing. -/
def ArgumentForm.label (f : ArgumentForm) : String :=
  if f.required then f.name else "[" ++ f.name ++ "]"

/-- What is wrong with a command line. -/
inductive UsageError where
  | noSuchOption (name : String) (resembling : List String)
  | valueMissing (name : String)
  | valueUnwanted (name : String)
  | numberRefused (name : String) (defect : NumberDefect)
  | argumentMissing (label : String)
  | fileMissing (label file : String)
  | fileIsDirectory (label file : String)
  /-- A path with a NUL, which no file can have. -/
  | nullInPath
  | unexpectedArguments (words : List String)
  | commandMissing
  | noSuchCommand (name : String)
deriving DecidableEq, Repr

namespace UsageError

/-- The options to suggest. -/
def suggestion : List String → String
  | [] => ""
  | [name] => " Did you mean " ++ name ++ "?"
  | names => " (Possible options: " ++ ", ".intercalate names ++ ")"

/-- The wording of a complaint about the value of an option or argument. -/
def invalid (label defect : String) : String := "Invalid value for '" ++ label ++ "': " ++ defect

def message : UsageError → String
  | noSuchOption name resembling => "No such option: " ++ name ++ suggestion resembling
  | valueMissing name => "Option " ++ quote name ++ " requires an argument."
  | valueUnwanted name => "Option " ++ quote name ++ " does not take a value."
  | numberRefused name defect => invalid name defect.message
  | argumentMissing label => "Missing argument '" ++ label ++ "'."
  | fileMissing label file => invalid label ("File " ++ quote file ++ " does not exist.")
  | fileIsDirectory label file => invalid label ("File " ++ quote file ++ " is a directory.")
  | nullInPath => "embedded null byte"
  | unexpectedArguments words =>
    "Got unexpected extra argument" ++ (if words.length = 1 then "" else "s") ++
      " (" ++ " ".intercalate words ++ ")"
  | commandMissing => "Missing command."
  | noSuchCommand name => "No such command " ++ quote name ++ "."

end UsageError

/-- Options and other words, in the order they were typed. -/
structure Scan where
  switches : List String := []
  numbers : List (String × Bounds × String) := []
  words : List String := []
deriving DecidableEq, Repr, Inhabited

namespace Scan

/-- A switch that was typed before everything else. -/
def addSwitch (name : String) (s : Scan) : Scan := { s with switches := name :: s.switches }

/-- A number that was typed before everything else. -/
def addNumber (name : String) (bounds : Bounds) (text : String) (s : Scan) : Scan :=
  { s with numbers := (name, bounds, text) :: s.numbers }

/-- A word that was typed before everything else. -/
def addWord (word : String) (s : Scan) : Scan := { s with words := word :: s.words }

end Scan

/-- Whether a word is an option. A dash alone is none. -/
def isOption (word : String) : Bool := word.startsWith "-" && word ≠ "-"

/-- A word as the name of an option and the value that is attached to it. -/
def splitAttached (word : String) : String × Option String :=
  let cs := word.toList
  let name := String.ofList (cs.takeWhile (· ≠ '='))
  match cs.dropWhile (· ≠ '=') with
  | [] => (name, none)
  | _ :: value => (name, some (String.ofList value))

/-- The switch with a letter. -/
def switchWith? (forms : List OptionForm) (letter : Char) : Option String :=
  forms.findSome? fun form => match form with
    | .switch name (some l) => if l = letter then some name else none
    | _ => none

/-- The switches that letters behind one dash stand for. -/
def readLetters (forms : List OptionForm) (letters : List Char) : Except UsageError (List String) :=
  letters.mapM fun letter => match switchWith? forms letter with
    | some name => .ok name
    | none => .error (.noSuchOption (String.ofList ['-', letter]) [])

/-- Takes the options out of the words. If words and options may not be mixed, the first word that
is no option ends the options. -/
def scan (forms : List OptionForm) (mixed : Bool) : List String → Except UsageError Scan
  | [] => .ok {}
  | word :: rest =>
    if word = "--" then .ok { words := rest }
    else if !isOption word then
      if mixed then (scan forms mixed rest).map (Scan.addWord word)
      else .ok { words := word :: rest }
    else
      let (name, attached) := splitAttached word
      match forms.find? (·.name = name) with
      | some (.switch name _) =>
        if attached.isSome then .error (.valueUnwanted name)
        else (scan forms mixed rest).map (Scan.addSwitch name)
      | some (.number name bounds) =>
        match attached, rest with
        | some text, rest => (scan forms mixed rest).map (Scan.addNumber name bounds text)
        | none, text :: rest => (scan forms mixed rest).map (Scan.addNumber name bounds text)
        | none, [] => .error (.valueMissing name)
      | none =>
        if word.startsWith "--" then
          .error (.noSuchOption name (closest name (forms.map OptionForm.name)))
        else match readLetters forms (word.toList.drop 1) with
          | .error e => .error e
          | .ok names => (scan forms mixed rest).map fun s => names.foldr Scan.addSwitch s

/-- The numbers, each under its name. Of an option that was given twice the last value counts, in
the place of the first. -/
def Scan.readNumbers (s : Scan) : Except UsageError (List (String × Int)) :=
  (s.numbers.map Prod.fst).eraseDups.mapM fun name =>
    match s.numbers.reverse.lookup name with
    | none => .error (.valueMissing name)
    | some (bounds, text) => match bounds.read text with
      | .ok v => .ok (name, v)
      | .error defect => .error (.numberRefused name defect)

/-- Whether a file can be what an argument stands for. -/
def ArgumentForm.check (files : Directory) (f : ArgumentForm) (word : String) :
    Except UsageError Unit :=
  if f.kind = .word then .ok ()
  else if word.contains '\x00' then .error .nullInPath
  else match files.kind? word with
    | some true => .error (.fileIsDirectory f.label word)
    | some false => .ok ()
    | none => if f.kind = .source then .error (.fileMissing f.label word) else .ok ()

/-- The arguments, each under its name. None may be left over. -/
def readArguments (files : Directory) : List ArgumentForm → List String →
    Except UsageError (List (String × String))
  | [], [] => .ok []
  | [], words => .error (.unexpectedArguments words)
  | f :: forms, [] =>
    if f.required then .error (.argumentMissing f.label) else readArguments files forms []
  | f :: forms, word :: words =>
    match f.check files word with
    | .error e => .error e
    | .ok () => (readArguments files forms words).map ((f.name, word) :: ·)

end LittleMan.CommandLine
