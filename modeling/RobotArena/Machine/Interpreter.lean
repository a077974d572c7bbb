import RobotArena.External.Table
import RobotArena.Machine.State

/-!
# One instruction

`MachineState.step` executes an instruction. Registers hold plain words: integer operations wrap,
floating-point operations take the words as the bits of numbers, and nothing is converted unless
an instruction says so. An instruction that traps changes nothing.
-/

namespace RobotArena.MachineState

/-- Goes on with an instruction. -/
def goto (s : MachineState) (pc : UInt32) : MachineState × Event :=
  ({ s with registers := { s.registers with pc } }, .advanced)

/-- Goes on with the following instruction. -/
def next (s : MachineState) : MachineState × Event :=
  s.goto (s.registers.pc + 1)

/-- Stops at the instruction. -/
def trap (s : MachineState) (t : Trap) : MachineState × Event :=
  (s, .trapped t)

/-- Puts a word in a register and goes on. -/
def put (s : MachineState) (index : UInt8) (w : UInt32) : MachineState × Event :=
  { s with registers := s.registers.set index w }.next

/-- The words of the two source registers. -/
def operands (s : MachineState) (i : Instruction) : UInt32 × UInt32 :=
  (s.registers.get i.b, s.registers.get i.c)

/-- Combines the source registers as words. -/
def onWords (s : MachineState) (i : Instruction) (f : UInt32 → UInt32 → UInt32) :
    MachineState × Event :=
  s.put i.a (f (s.registers.get i.b) (s.registers.get i.c))

/-- Combines the source registers as numbers. -/
def onNumbers (s : MachineState) (i : Instruction)
    (f : Binary32 → Binary32 → Binary32) : MachineState × Event :=
  s.onWords i fun x y => (f ⟨x⟩ ⟨y⟩).bits

/-- Puts 1 or 0 in the target register. -/
def test (s : MachineState) (i : Instruction) (f : UInt32 → UInt32 → Bool) :
    MachineState × Event :=
  s.onWords i fun x y => if f x y then 1 else 0

/-- Combines the source registers as signed integers, of which the second must not be zero. -/
def onQuotient (s : MachineState) (i : Instruction) (f : Int32 → Int32 → Int32) :
    MachineState × Event :=
  let divisor := s.registers.get i.c
  if divisor = 0 then s.trap (.divideByZero s.registers.pc)
  else s.put i.a (f (s.registers.get i.b).toInt32 divisor.toInt32).toUInt32

/-! ### Memory -/

/-- The address of a memory access. -/
def address (s : MachineState) (i : Instruction) : UInt32 :=
  s.registers.get i.b + i.imm.toUInt32

/-- Stops because of an access outside memory. -/
def fault (s : MachineState) (address length : UInt32) : MachineState × Event :=
  s.trap (.memoryFault s.registers.pc ⟨address, length⟩)

/-- Replaces bytes of memory. -/
def setBytes (s : MachineState) (address : UInt32) (data : List UInt8) : MachineState :=
  { s with context := { s.context with memory := s.context.memory.setBytes address.toNat data } }

/-- Loads a word. -/
def load (s : MachineState) (i : Instruction) : MachineState × Event :=
  let address := s.address i
  if Memory.InRange address 4 then s.put i.a (s.context.memory.wordAt address.toNat)
  else s.fault address 4

/-- Loads a byte. -/
def loadByte (s : MachineState) (i : Instruction) : MachineState × Event :=
  let address := s.address i
  if Memory.InRange address 1 then s.put i.a (s.context.memory.byte address.toNat).toUInt32
  else s.fault address 1

/-- Stores a word. -/
def store (s : MachineState) (i : Instruction) : MachineState × Event :=
  let address := s.address i
  if Memory.InRange address 4 then
    (s.setBytes address (Word.toBytes (s.registers.get i.a))).next
  else s.fault address 4

/-- Stores a byte. -/
def storeByte (s : MachineState) (i : Instruction) : MachineState × Event :=
  let address := s.address i
  if Memory.InRange address 1 then
    (s.setBytes address [(s.registers.get i.a).toUInt8]).next
  else s.fault address 1

/-! ### Stack -/

/-- Whether there is room for another word on the stack. -/
def hasRoom (sp : UInt32) : Bool :=
  Layout.stackBase + 4 ≤ sp.toNat && sp.toNat ≤ Layout.stackTop

/-- Whether there is a word on the stack. -/
def hasWord (sp : UInt32) : Bool :=
  Layout.stackBase ≤ sp.toNat && sp.toNat + 4 ≤ Layout.stackTop

/-- Pushes a word and goes on with an instruction. -/
def push (s : MachineState) (w pc : UInt32) : MachineState × Event :=
  let sp := s.registers.sp
  if hasRoom sp then
    let s := s.setBytes (sp - 4) (Word.toBytes w)
    { s with registers := { s.registers with sp := sp - 4 } }.goto pc
  else s.trap (.stackOverflow s.registers.pc)

/-- The word on top of the stack. -/
def top (s : MachineState) : UInt32 :=
  s.context.memory.wordAt s.registers.sp.toNat

/-- Removes the word on top of the stack. -/
def drop (s : MachineState) : MachineState :=
  { s with registers := { s.registers with sp := s.registers.sp + 4 } }

/-- Pops a word into a register. -/
def pop (s : MachineState) (i : Instruction) : MachineState × Event :=
  if hasWord s.registers.sp then s.drop.put i.a s.top
  else s.trap (.stackOverflow s.registers.pc)

/-- Goes on where the call came from. A return from the outermost frame ends the program. -/
def ret (s : MachineState) : MachineState × Event :=
  if Layout.stackTop ≤ s.registers.sp.toNat then s.trap .halt
  else if hasWord s.registers.sp then s.drop.goto s.top
  else s.trap (.stackOverflow s.registers.pc)

/-! ### Calls -/

/-- What the first register holds after a rejected call. -/
def rejected : UInt32 := 0xFFFFFFFF

/-- Calls an external function. The result replaces the first registers; a function without
result leaves zero, and a rejected call the word `rejected`, in the first one. -/
def callExternal (table : Table) (s : MachineState) (id : Int32) : MachineState × Event :=
  match table.find? id with
  | none => s.trap (.undefinedExternal s.registers.pc id)
  | some f =>
    let r := s.registers
    match f.body (r.arguments f.signature.argWords) f.signature.retSize.toNat s.context with
    | .ok block context =>
      let words := (List.range f.signature.retWords).map (Word.ofBlock block)
      let results := if f.signature.retSize = 0 then [0] else words
      { registers := r.setFirst 0 results, context : MachineState }.next
    | .error _ context => { registers := r.setFirst 0 [rejected], context : MachineState }.next

/-- Executes an instruction. -/
def step (table : Table) (i : Instruction) (s : MachineState) : MachineState × Event :=
  match i.op with
  | .nop => s.next
  | .halt => s.trap .halt
  | .crash => s.trap (.userCrash s.registers.pc (s.registers.get i.a))
  | .li => s.put i.a i.imm.toUInt32
  | .mov => s.put i.a (s.registers.get i.b)
  | .addi => s.put i.a (s.address i)
  | .add => s.onWords i (· + ·)
  | .sub => s.onWords i (· - ·)
  | .mul => s.onWords i (· * ·)
  | .div => s.onQuotient i (· / ·)
  | .rem => s.onQuotient i (· % ·)
  | .and => s.onWords i (· &&& ·)
  | .or => s.onWords i (· ||| ·)
  | .xor => s.onWords i (· ^^^ ·)
  | .shl => s.onWords i (· <<< ·)
  | .shr => s.onWords i (· >>> ·)
  | .fadd => s.onNumbers i (· + ·)
  | .fsub => s.onNumbers i (· - ·)
  | .fmul => s.onNumbers i (· * ·)
  | .fdiv => s.onNumbers i (· / ·)
  | .itof => s.put i.a (Binary32.ofInt32 (s.registers.get i.b).toInt32).bits
  | .ftoi => s.put i.a (Binary32.toInt32 ⟨s.registers.get i.b⟩).toUInt32
  | .eq => s.test i (· == ·)
  | .lt => s.test i fun x y => x.toInt32 < y.toInt32
  | .le => s.test i fun x y => x.toInt32 ≤ y.toInt32
  | .flt => s.test i fun x y => Binary32.lt ⟨x⟩ ⟨y⟩
  | .jmp => s.goto i.imm.toUInt32
  | .jz => if s.registers.get i.a = 0 then s.goto i.imm.toUInt32 else s.next
  | .jnz => if s.registers.get i.a ≠ 0 then s.goto i.imm.toUInt32 else s.next
  | .ld => s.load i
  | .st => s.store i
  | .ldb => s.loadByte i
  | .stb => s.storeByte i
  | .push => s.push (s.registers.get i.a) (s.registers.pc + 1)
  | .pop => s.pop i
  | .call => s.push (s.registers.pc + 1) i.imm.toUInt32
  | .ret => s.ret
  | .ext => callExternal table s i.imm
  | .yield => (s.next.1, .yielded)

end RobotArena.MachineState
