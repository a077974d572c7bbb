import RobotArena.Isa.Bytecode
import RobotArena.Machine.Interpreter

/-!
# Slices

A slice executes a program up to a budget of instructions, until the program yields, or until it
traps. It can keep a trace of the first instructions that it executes.
-/

namespace RobotArena

/-- An executed instruction, with the registers after it. -/
structure TraceEntry where
  pc : UInt32
  instruction : Instruction
  general : Vector UInt32 16
  deriving DecidableEq

/-- The first executed instructions of a slice, up to a capacity. -/
structure Trace where
  capacity : Nat := 0
  entries : Array TraceEntry := #[]
  deriving DecidableEq, Inhabited

/-- Adds an entry if there is room for it. -/
def Trace.record (t : Trace) (e : TraceEntry) : Trace :=
  if t.entries.size < t.capacity then { t with entries := t.entries.push e } else t

/-- How a slice ends. -/
inductive SliceEnd where
  | exhausted
  | yielded
  | stopped (trap : Trap)
  deriving DecidableEq

/-- The state of a slice: the program's, how many instructions were executed, those that trapped
or yielded included, and the trace if one is kept. -/
structure Slice where
  state : MachineState
  executed : Nat := 0
  trace : Option Trace := none

namespace Slice

/-- Counts an executed instruction and traces it. -/
def note (state : MachineState) (executed : Nat) (trace : Option Trace) (pc : UInt32)
    (i : Instruction) : Slice :=
  { state
    executed := executed + 1
    trace := trace.map (·.record ⟨pc, i, state.registers.general⟩) }

/-- Executes at most `budget` instructions. Running off the end of the program halts it. -/
def run (code : Bytecode) (table : Table) : Nat → Slice → Slice × SliceEnd
  | 0, s => (s, .exhausted)
  | budget + 1, ⟨state, executed, trace⟩ =>
    let pc := state.registers.pc
    match code.fetch pc with
    | none => (⟨state, executed, trace⟩, .stopped .halt)
    | some (.error e) => (⟨state, executed + 1, trace⟩, .stopped (.illegalInstruction pc e))
    | some (.ok i) =>
      match state.step table i with
      | (state, .advanced) => run code table budget (note state executed trace pc i)
      | (state, .yielded) => (note state executed trace pc i, .yielded)
      | (state, .trapped t) => (note state executed trace pc i, .stopped t)

end Slice

end RobotArena
