/-
What the tools note about their work: messages with a level, in the order they arise.
-/
namespace LittleMan

/-- How important a note is. -/
inductive Level where
  | debug | info | warning
deriving DecidableEq, Repr

/-- How a level is written. -/
def Level.name : Level → String
  | .debug => "DEBUG" | .info => "INFO" | .warning => "WARNING"

/-- A note. -/
structure Entry where
  level : Level
  message : String
deriving DecidableEq, Repr

/-- Notes in the order they were taken. -/
abbrev Journal := List Entry

end LittleMan
