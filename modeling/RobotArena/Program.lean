import RobotArena.Diagnostic
import RobotArena.Isa.Bytecode

/-!
# Compiled programs
-/

namespace RobotArena

/-- A program that can be run, with the origins of its instructions and what the compile had to
say about its source. -/
structure Program where
  code : Bytecode
  debug : DebugInfo := {}
  diagnostics : List Diagnostic := []
  deriving DecidableEq, Inhabited

end RobotArena
