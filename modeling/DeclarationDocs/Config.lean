/-!
# Configuration

How loudly inconsistent data is reported, and which log messages are shown. Every setting has a
default, so an empty document is a configuration.
-/

namespace DeclarationDocs

/-- What happens when an overload lacks a declaration for the trait in which its group is shown. -/
inductive DiagnosticLevel where
  /-- It is left out. -/
  | ignore
  /-- It is left out with a warning. -/
  | warn
  /-- After a warning, rendering ends with a fault. The fault is that of a build with debug
  assertions, which is the build described here; without them the warning is all. -/
  | assert
deriving DecidableEq, Inhabited

namespace DiagnosticLevel

/-- Every level, in the order in which they are listed to a reader who gave an unknown one. -/
def all : List DiagnosticLevel := [.ignore, .warn, .assert]

def name : DiagnosticLevel → String
  | .ignore => "ignore"
  | .warn => "warn"
  | .assert => "assert"

theorem mem_all (level : DiagnosticLevel) : level ∈ all := by cases level <;> decide

def standard : DiagnosticLevel := .warn

end DiagnosticLevel

/-- The environment variable that takes precedence over the configured log filter. -/
def logVariable : String := "SYMDOC_LOG"

/-- Which log messages are shown. -/
structure LogConfig where
  filter : String
deriving DecidableEq, Inhabited

namespace LogConfig

def standard : LogConfig := ⟨"symdoc_render=info"⟩

end LogConfig

/-- All settings. -/
structure Config where
  missingOverloadFragments : DiagnosticLevel
  log : LogConfig
deriving DecidableEq, Inhabited

namespace Config

def standard : Config := ⟨.standard, .standard⟩

end Config

end DeclarationDocs
