import RobotArena.Isa.Instruction
import RobotArena.Memory.Basic

/-!
# Traps and signals

A trap stops a program at an instruction. The processor keeps the trap's kind as its signal until
it is given a program again.
-/

namespace RobotArena

/-- Why a processor stands still. -/
inductive Signal where
  | none
  | halt
  | userCrash
  | stackOverflow
  | undefinedExternal
  | illegalInstruction
  | memoryFault
  | divideByZero
  deriving DecidableEq, Inhabited, Repr

namespace Signal

/-- The signal's name. -/
def name : Signal → String
  | none => "None"
  | halt => "Halt"
  | userCrash => "UserCrash"
  | stackOverflow => "StackOverflow"
  | undefinedExternal => "UndefinedExternalFunction"
  | illegalInstruction => "IllegalInstruction"
  | memoryFault => "MemoryFault"
  | divideByZero => "DivideByZero"

/-- Whether something went wrong. -/
def isCrash (s : Signal) : Bool :=
  s ≠ none && s ≠ halt

end Signal

/-- What stops a program, with the number of the instruction. -/
inductive Trap where
  | halt
  | userCrash (pc message : UInt32)
  | stackOverflow (pc : UInt32)
  | undefinedExternal (pc : UInt32) (id : Int32)
  | illegalInstruction (pc : UInt32) (reason : CodeError)
  | memoryFault (pc : UInt32) (fault : Memory.Fault)
  | divideByZero (pc : UInt32)
  deriving DecidableEq, Repr

namespace Trap

/-- The trap's kind. -/
def signal : Trap → Signal
  | halt => .halt
  | userCrash .. => .userCrash
  | stackOverflow .. => .stackOverflow
  | undefinedExternal .. => .undefinedExternal
  | illegalInstruction .. => .illegalInstruction
  | memoryFault .. => .memoryFault
  | divideByZero .. => .divideByZero

/-- The number of the instruction; nothing for a program that ends. -/
def pc? : Trap → Option UInt32
  | halt => none
  | userCrash pc _ | stackOverflow pc | undefinedExternal pc _ | illegalInstruction pc _
  | memoryFault pc _ | divideByZero pc => some pc

/-- The words for the trap. -/
def message : Trap → String
  | halt => "program halted"
  | userCrash pc _ => s!"program crashed at pc {pc}"
  | stackOverflow pc => s!"stack overflow at pc {pc}"
  | undefinedExternal pc id => s!"undefined external function {id} at pc {pc}"
  | illegalInstruction pc reason => s!"illegal instruction at pc {pc}: {reason.message}"
  | memoryFault pc fault => s!"memory fault at pc {pc}: {fault.message}"
  | divideByZero pc => s!"divide by zero at pc {pc}"

end Trap

end RobotArena
