import LocaleKeys.Text.Point

/-!
The contract of exit codes: clean, issues found, or no answer.
-/

namespace LocaleKeys

/-- The meaning of an exit code. -/
inductive ExitCode
  | success
  | violation
  | error
  deriving DecidableEq, Repr

def ExitCode.number : ExitCode → Nat
  | .success => 0
  | .violation => 1
  | .error => 2

def ExitCode.name : ExitCode → Text
  | .success => "SUCCESS"
  | .violation => "VIOLATION"
  | .error => "ERROR"

end LocaleKeys
