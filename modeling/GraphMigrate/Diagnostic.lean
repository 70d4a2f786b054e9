/-
Notes about constructs that a migration left alone.
-/
import GraphMigrate.Text.Span

namespace GraphMigrate

/-- How much attention a note asks for. -/
inductive Severity where
  | info
  | warning
  deriving DecidableEq, Repr, Inhabited

namespace Severity

/-- The name of a severity. -/
def display : Severity → String
  | .info => "info"
  | .warning => "warning"

end Severity

/-- A message about a span of a text. -/
structure Diagnostic where
  severity : Severity
  message : String
  span : Span
  deriving DecidableEq, Repr, Inhabited

namespace Diagnostic

/-- A note on something that was left untouched. -/
def info (message : String) (span : Span) : Diagnostic := ⟨.info, message, span⟩

/-- A note on something that someone should look at. -/
def warning (message : String) (span : Span) : Diagnostic := ⟨.warning, message, span⟩

end Diagnostic

end GraphMigrate
