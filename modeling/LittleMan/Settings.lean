/-
The settings of the tools, read from environment variables.

* `Settings.ofEnvironment`: the settings, and a warning for each number that is none.

A variable that is unset or empty changes nothing, and neither does a number below one.
-/
import LittleMan.Journal
import LittleMan.Text.Case
import LittleMan.Text.Integer
import LittleMan.Text.Quoted
namespace LittleMan

open Text

/-- What can be set. -/
structure Settings where
  /-- The budget of a run, if it has one. -/
  maxSteps : Option Int := none
  packedSuffix : String := "_packed"
  notice : Bool := true
  inputPrompt : String := "Input> "
  workers : Int := 4
  /-- The coefficients of the polynomial test run from 0 up to here. -/
  coefficients : Int := 10
  /-- The arguments of the polynomial test run from 0 up to here. -/
  arguments : Int := 10
  /-- The budget of one run of the polynomial test. -/
  testMaxSteps : Int := 10000
deriving DecidableEq, Repr, Inhabited

/-- Environment variables and their values. -/
abbrev Environment := List (String × String)

namespace Settings

/-- The value of a variable, unless it is empty. -/
def text? (env : Environment) (name : String) : Option String :=
  (env.lookup name).filter (· ≠ "")

/-- The number in a variable, if it is at least one. -/
def number? (env : Environment) (name : String) : Option Int :=
  ((text? env name).bind readInteger?).filter (· > 0)

/-- The warning about a variable that holds no number. -/
def numberWarning (env : Environment) (name : String) : Journal :=
  match text? env name with
  | none => []
  | some value =>
    if (readInteger? value).isSome then []
    else [⟨.warning, "Ignoring " ++ name ++ "=" ++ quote value ++ ": not an integer"⟩]

/-- The words that turn the notice off. -/
def offWords : List String := ["0", "false", "no", "off"]

/-- Whether a value turns the notice on. -/
def isOn (value : String) : Bool :=
  !offWords.contains (lower (String.ofList (trim value.toList)))

/-- The variables that hold numbers, in the order they are read. -/
def numberVariables : List String :=
  ["LMC_MAX_STEPS", "LMC_POLYNOMIAL_WORKERS", "LMC_POLYNOMIAL_COEFFICIENTS", "LMC_POLYNOMIAL_X"]

/-- The variables that count. -/
def names : List String :=
  numberVariables ++ ["LMC_OPTIMISED_SUFFIX", "LMC_OPTIMISER_NOTICE", "LMC_INPUT_PROMPT"]

/-- The settings of an environment. -/
def ofEnvironment (env : Environment) : Settings :=
  let standard : Settings := {}
  { maxSteps := number? env "LMC_MAX_STEPS"
    packedSuffix := (text? env "LMC_OPTIMISED_SUFFIX").getD standard.packedSuffix
    notice := ((text? env "LMC_OPTIMISER_NOTICE").map isOn).getD standard.notice
    inputPrompt := (text? env "LMC_INPUT_PROMPT").getD standard.inputPrompt
    workers := (number? env "LMC_POLYNOMIAL_WORKERS").getD standard.workers
    coefficients :=
      ((number? env "LMC_POLYNOMIAL_COEFFICIENTS").map (min · 1000)).getD standard.coefficients
    arguments := ((number? env "LMC_POLYNOMIAL_X").map (min · 1000)).getD standard.arguments }

/-- The warnings about an environment. -/
def warnings (env : Environment) : Journal := numberVariables.flatMap (numberWarning env)

end Settings

end LittleMan
