import RobotArena.Isa.Instruction

/-!
# Faults in assembly text
-/

namespace RobotArena.Assembly

/-- Why a line of assembly text is rejected. -/
inductive Fault where
  | includeForm
  | includeCycle (path : String)
  | invalidName (name : String)
  | redefined (name : String)
  | constantForm
  | stringForm
  | heapExhausted
  | unknownDirective (word : String)
  | unknownInstruction (word : String)
  | operandCount (op : Opcode) (expected found : Nat)
  | invalidRegister (token : String)
  | immediateRange (token : String)
  | unknownSymbol (token : String)
  | functionRange (value : Int)
  | unknownFunction (token : String)
  deriving DecidableEq, Repr

/-- The words for the fault. -/
def Fault.message : Fault → String
  | .includeForm => "expected a quoted path after .include"
  | .includeCycle path => s!"include cycle through \"{path}\""
  | .invalidName name => s!"`{name}` is not a valid name"
  | .redefined name => s!"`{name}` is already defined"
  | .constantForm => "expected `.equ NAME value`"
  | .stringForm => "expected `.string NAME \"text\"`"
  | .heapExhausted => "string data does not fit in the heap"
  | .unknownDirective word => s!"unknown directive `{word}`"
  | .unknownInstruction word => s!"unknown instruction `{word}`"
  | .operandCount op expected found =>
    s!"`{op.mnemonic}` expects {expected} operand(s), found {found}"
  | .invalidRegister token =>
    s!"expected a register r0..r{registerCount - 1}, found `{token}`"
  | .immediateRange token => s!"immediate {token} does not fit in 32 bits"
  | .unknownSymbol token => s!"unknown symbol `{token}`"
  | .functionRange value => s!"external id {value} is out of range"
  | .unknownFunction token => s!"unknown external function `{token}`"

end RobotArena.Assembly
