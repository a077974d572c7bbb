/-!
# Diagnostics

What a compile has to say about its source, with the place it speaks of. Lines and columns count
from zero, columns in bytes, and are shown counting from one.
-/

namespace RobotArena

/-- How grave a diagnostic is. -/
inductive Severity where
  | error
  | warning
  | info
  | hint
  deriving DecidableEq, Repr

namespace Severity

/-- The word for the severity. -/
def word : Severity → String
  | .error => "error"
  | .warning => "warning"
  | .info => "info"
  | .hint => "hint"

/-- The severity that a word stands for. -/
def ofWord? (w : String) : Option Severity :=
  [error, warning, info, hint].find? (·.word == w)

end Severity

/-- A place in a source. -/
structure TextPosition where
  line : Nat
  column : Nat
  deriving DecidableEq, Repr

/-- The part of a source from one place up to another. -/
structure TextRange where
  start : TextPosition
  stop : TextPosition
  deriving DecidableEq, Repr

/-- The range of `length` columns of one line. -/
def TextRange.onLine (line column length : Nat) : TextRange :=
  ⟨⟨line, column⟩, ⟨line, column + length⟩⟩

/-- A remark about a range of a source. -/
structure Diagnostic where
  range : TextRange
  severity : Severity
  message : String
  deriving DecidableEq, Repr

namespace Diagnostic

/-- Whether a program with this diagnostic is rejected. -/
def isError (d : Diagnostic) : Bool :=
  d.severity = .error

/-- The line and column, the severity and the message. -/
def render (d : Diagnostic) : String :=
  s!"{d.range.start.line + 1}:{d.range.start.column + 1}: {d.severity.word}: {d.message}"

end Diagnostic

end RobotArena
