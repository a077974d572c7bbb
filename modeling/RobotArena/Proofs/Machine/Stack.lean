import RobotArena.Proofs.Isa.Encoding
import RobotArena.Proofs.Machine.Traps
import RobotArena.Proofs.Memory.Blocks

/-!
# The stack

Between `Layout.stackBase` and `Layout.stackTop` there is room for 1792 words. The stack pointer never
leaves this part of memory, and what the stack instructions do there is what they would do to a list of
at most 1792 words. The main statement follows a program instruction by instruction.
-/

namespace RobotArena

/-- Some words of memory, one behind the other. -/
def Memory.wordsAt (m : Memory) (address : Nat) : Nat → List UInt32
  | 0 => []
  | n + 1 => m.wordAt address :: m.wordsAt (address + 4) n

namespace Memory

variable {m m' : Memory} {address : Nat}

theorem length_wordsAt (n : Nat) : (m.wordsAt address n).length = n := by
  induction n generalizing address with
  | zero => rfl
  | succ n ih => rw [wordsAt, List.length_cons, ih]

theorem wordsAt_congr {n : Nat}
    (same : ∀ i, address ≤ i → i + 4 ≤ address + 4 * n → m'.wordAt i = m.wordAt i) :
    m'.wordsAt address n = m.wordsAt address n := by
  induction n generalizing address with
  | zero => rfl
  | succ n ih =>
    rw [wordsAt, wordsAt, same address (by omega) (by omega),
      ih fun i low high => same i (by omega) (by omega)]

end Memory

namespace MachineState

variable {table : Table} {i : Instruction} {s : MachineState}

/-- The words on the stack, the newest first. -/
def stack (s : MachineState) : List UInt32 :=
  s.context.memory.wordsAt s.registers.sp.toNat ((Layout.stackTop - s.registers.sp.toNat) / 4)

/-- The stack pointer stands at a word of the stack, or at its end. -/
structure InStack (s : MachineState) : Prop where
  low : Layout.stackBase ≤ s.registers.sp.toNat
  high : s.registers.sp.toNat ≤ Layout.stackTop
  whole : 4 ∣ s.registers.sp.toNat

/-! ### The pointer and the length of the list -/

theorem stack_of_sp {t : MachineState} (sp : t.registers.sp = s.registers.sp)
    (same : ∀ k, s.registers.sp.toNat ≤ k → t.context.memory.wordAt k = s.context.memory.wordAt k) :
    t.stack = s.stack := by
  unfold stack
  rw [sp]
  exact Memory.wordsAt_congr fun k low _ => same k low

namespace InStack

theorem of_sp {t : MachineState} (h : s.InStack) (sp : t.registers.sp = s.registers.sp) :
    t.InStack :=
  ⟨sp ▸ h.low, sp ▸ h.high, sp ▸ h.whole⟩

theorem sp_eq (h : s.InStack) : s.registers.sp.toNat + 4 * s.stack.length = Layout.stackTop := by
  obtain ⟨low, high, k, same⟩ := h
  rw [stack, Memory.length_wordsAt]
  simp only [Layout.stackBase, Layout.stackTop] at *
  omega

theorem length_le (h : s.InStack) : s.stack.length ≤ 1792 := by
  have place := h.sp_eq
  have low := h.low
  simp only [Layout.stackBase, Layout.stackTop] at *
  omega

theorem hasRoom_iff (h : s.InStack) : hasRoom s.registers.sp = true ↔ s.stack.length < 1792 := by
  have place := h.sp_eq
  simp only [Layout.stackTop] at place
  simp only [hasRoom, Bool.and_eq_true, decide_eq_true_eq]
  simp only [Layout.stackBase, Layout.stackTop]
  omega

theorem hasWord_iff (h : s.InStack) : hasWord s.registers.sp = true ↔ 0 < s.stack.length := by
  have place := h.sp_eq
  have low := h.low
  simp only [Layout.stackTop, Layout.stackBase] at place low
  simp only [hasWord, Bool.and_eq_true, decide_eq_true_eq]
  simp only [Layout.stackBase, Layout.stackTop]
  omega

end InStack

/-! ### Instructions beside the stack -/

@[simp] theorem goto_sp (s : MachineState) (pc : UInt32) :
    (s.goto pc).1.registers.sp = s.registers.sp := rfl

@[simp] theorem goto_context (s : MachineState) (pc : UInt32) : (s.goto pc).1.context = s.context := rfl

@[simp] theorem next_sp (s : MachineState) : s.next.1.registers.sp = s.registers.sp := rfl

@[simp] theorem next_context (s : MachineState) : s.next.1.context = s.context := rfl

@[simp] theorem put_sp (s : MachineState) (index : UInt8) (w : UInt32) :
    (s.put index w).1.registers.sp = s.registers.sp := rfl

@[simp] theorem put_context (s : MachineState) (index : UInt8) (w : UInt32) :
    (s.put index w).1.context = s.context := rfl

@[simp] theorem trap_fst (s : MachineState) (t : Trap) : (s.trap t).1 = s := rfl

@[simp] theorem fault_fst (s : MachineState) (address length : UInt32) :
    (s.fault address length).1 = s := rfl

/-- The instructions that move the stack pointer. -/
def movesStack (op : Opcode) : Prop :=
  op = .push ∨ op = .pop ∨ op = .call ∨ op = .ret

/-- The other instructions that can change memory. -/
def canStore (op : Opcode) : Prop :=
  op = .st ∨ op = .stb ∨ op = .ext

theorem sp_setFirst (r : Registers) (start : Nat) (ws : List UInt32) :
    (r.setFirst start ws).sp = r.sp := by
  induction ws generalizing r start with
  | nil => rfl
  | cons w ws ih => exact ih _ _

theorem sp_callExternal (id : Int32) :
    (callExternal table s id).1.registers.sp = s.registers.sp := by
  unfold callExternal
  split
  · rfl
  · dsimp only
    split
    · exact sp_setFirst _ _ _
    · exact sp_setFirst _ _ _

theorem step_beside (beside : ¬ movesStack i.op) (still : ¬ canStore i.op) :
    (s.step table i).1.registers.sp = s.registers.sp ∧ (s.step table i).1.context = s.context := by
  unfold step
  cases op : i.op with
  | push => exact absurd (.inl op) beside
  | pop => exact absurd (.inr (.inl op)) beside
  | call => exact absurd (.inr (.inr (.inl op))) beside
  | ret => exact absurd (.inr (.inr (.inr op))) beside
  | st => exact absurd (.inl op) still
  | stb => exact absurd (.inr (.inl op)) still
  | ext => exact absurd (.inr (.inr op)) still
  | div => simp only [onQuotient]; split <;> simp
  | rem => simp only [onQuotient]; split <;> simp
  | ld => simp only [load]; split <;> simp
  | ldb => simp only [loadByte]; split <;> simp
  | jz => dsimp only; split <;> simp
  | jnz => dsimp only; split <;> simp
  | _ => simp [onWords, onNumbers, test]

theorem context_step (beside : ¬ movesStack i.op) (still : ¬ canStore i.op) :
    (s.step table i).1.context = s.context :=
  (step_beside beside still).2

theorem sp_step (beside : ¬ movesStack i.op) : (s.step table i).1.registers.sp = s.registers.sp := by
  by_cases stores : canStore i.op
  · rcases stores with st | stb | ext
    · simp only [step, st, store]
      split <;> simp [setBytes]
    · simp only [step, stb, storeByte]
      split <;> simp [setBytes]
    · simp only [step, ext, sp_callExternal]
  · exact (step_beside beside stores).1

/-! ### Instructions on the stack -/

namespace InStack

variable (h : s.InStack)
include h

theorem push_full (w pc : UInt32) (full : s.stack.length = 1792) :
    s.push w pc = (s, .trapped (.stackOverflow s.registers.pc)) := by
  have noRoom : hasRoom s.registers.sp = false := by
    rw [Bool.eq_false_iff, ne_eq, h.hasRoom_iff]
    omega
  simp [push, noRoom, trap]

theorem push_room (w pc : UInt32) (room : s.stack.length < 1792) :
    (s.push w pc).2 = .advanced ∧ (s.push w pc).1.InStack ∧ (s.push w pc).1.stack = w :: s.stack ∧
      (s.push w pc).1.registers.sp.toNat + 4 = s.registers.sp.toNat ∧
      ∀ k, k < (s.push w pc).1.registers.sp.toNat ∨ s.registers.sp.toNat ≤ k →
        (s.push w pc).1.context.memory.byte k = s.context.memory.byte k := by
  have place := h.sp_eq
  have high := h.high
  obtain ⟨quarter, whole⟩ := h.whole
  have enough : (4 : UInt32) ≤ s.registers.sp := by
    rw [UInt32.le_iff_toNat_le]
    show 4 ≤ s.registers.sp.toNat
    simp only [Layout.stackTop] at place
    omega
  have lower : (s.registers.sp - 4).toNat + 4 = s.registers.sp.toNat := by
    rw [UInt32.toNat_sub_of_le _ _ enough]
    rw [UInt32.le_iff_toNat_le] at enough
    exact Nat.sub_add_cancel enough
  have pushed : s.push w pc =
      ({ s.setBytes (s.registers.sp - 4) (Word.toBytes w) with
          registers := { s.registers with sp := s.registers.sp - 4, pc } }, .advanced) := by
    simp [push, h.hasRoom_iff.mpr room, goto, setBytes]
  have length := Word.length_toBytes w
  simp only [Layout.stackTop] at place high
  rw [pushed]
  refine ⟨rfl, ⟨?_, ?_, ?_⟩, ?_, lower, ?_⟩
  · show 8192 ≤ (s.registers.sp - 4).toNat
    omega
  · show (s.registers.sp - 4).toNat ≤ 15360
    omega
  · show 4 ∣ (s.registers.sp - 4).toNat
    omega
  · have count : (15360 - (s.registers.sp - 4).toNat) / 4 = (15360 - s.registers.sp.toNat) / 4 + 1 := by
      omega
    show (s.context.memory.setBytes (s.registers.sp - 4).toNat (Word.toBytes w)).wordsAt
      (s.registers.sp - 4).toNat ((15360 - (s.registers.sp - 4).toNat) / 4) = w :: s.stack
    rw [count, Memory.wordsAt, lower, Memory.wordAt_setBytes_toBytes _ _ _
      (by simp only [Memory.size]; omega)]
    congr 1
    exact Memory.wordsAt_congr fun k low _ => Memory.wordAt_setBytes_outside _ _ (by omega)
  · intro k outside
    have past : k < (s.registers.sp - 4).toNat ∨
        (s.registers.sp - 4).toNat + (Word.toBytes w).length ≤ k := by
      rw [length, lower]
      exact outside
    exact Memory.byte_setBytes_outside _ _ past

/-- The words on the stack, when the one on top has been removed. -/
theorem drop_stack (filled : 0 < s.stack.length) :
    s.drop.InStack ∧ s.stack = s.top :: s.drop.stack ∧
      s.drop.registers.sp.toNat = s.registers.sp.toNat + 4 := by
  have place := h.sp_eq
  have low := h.low
  obtain ⟨quarter, whole⟩ := h.whole
  simp only [Layout.stackTop, Layout.stackBase] at place low
  have higher : (s.registers.sp + 4).toNat = s.registers.sp.toNat + 4 := by
    rw [UInt32.toNat_add]
    exact Nat.mod_eq_of_lt (show s.registers.sp.toNat + 4 < 4294967296 by omega)
  refine ⟨⟨?_, ?_, ?_⟩, ?_, higher⟩
  · show 8192 ≤ (s.registers.sp + 4).toNat
    omega
  · show (s.registers.sp + 4).toNat ≤ 15360
    omega
  · show 4 ∣ (s.registers.sp + 4).toNat
    omega
  · have count : (15360 - s.registers.sp.toNat) / 4 = (15360 - (s.registers.sp + 4).toNat) / 4 + 1 := by
      omega
    show s.context.memory.wordsAt s.registers.sp.toNat ((15360 - s.registers.sp.toNat) / 4) =
      s.top :: s.context.memory.wordsAt (s.registers.sp + 4).toNat
        ((15360 - (s.registers.sp + 4).toNat) / 4)
    rw [count, Memory.wordsAt, higher]
    rfl

theorem top_eq {w : UInt32} {ws : List UInt32} (list : s.stack = w :: ws) : s.top = w := by
  have filled : 0 < s.stack.length := by simp [list]
  have same := (h.drop_stack filled).2.1
  rw [list] at same
  exact (List.cons.inj same).1.symm

theorem pop_empty (empty : s.stack.length = 0) :
    s.pop i = (s, .trapped (.stackOverflow s.registers.pc)) := by
  have noWord : hasWord s.registers.sp = false := by
    rw [Bool.eq_false_iff, ne_eq, h.hasWord_iff]
    omega
  simp [pop, noWord, trap]

theorem pop_filled (filled : 0 < s.stack.length) : s.pop i = s.drop.put i.a s.top := by
  simp [pop, h.hasWord_iff.mpr filled]

theorem ret_empty (empty : s.stack.length = 0) : s.ret = (s, .trapped .halt) := by
  have place := h.sp_eq
  have top : Layout.stackTop ≤ s.registers.sp.toNat := by omega
  simp [ret, top, trap]

theorem ret_filled (filled : 0 < s.stack.length) : s.ret = s.drop.goto s.top := by
  have place := h.sp_eq
  have below : ¬ Layout.stackTop ≤ s.registers.sp.toNat := by omega
  simp [ret, below, h.hasWord_iff.mpr filled]

end InStack

/-! ### What an instruction does to the list -/

/-- The word that an instruction puts on the stack. -/
def pushed? (i : Instruction) (s : MachineState) : Option UInt32 :=
  match i.op with
  | .push => some (s.registers.get i.a)
  | .call => some (s.registers.pc + 1)
  | _ => none

/-- The word that an instruction has taken from the stack, as it is found in the state after it. -/
def popped? (i : Instruction) (after : MachineState) : Option UInt32 :=
  match i.op with
  | .pop => some (after.registers.get i.a)
  | .ret => some after.registers.pc
  | _ => none

/-- An instruction that stores or calls a function changes the word at an address. -/
def Overwrites (table : Table) (i : Instruction) (s : MachineState) (address : Nat) : Prop :=
  canStore i.op ∧
    (s.step table i).1.context.memory.wordAt address ≠ s.context.memory.wordAt address

/-- An instruction does to the stack what it would do to a list of at most 1792 words. -/
structure ListLike (table : Table) (i : Instruction) (s : MachineState) : Prop where
  overflow : i.op = .push ∨ i.op = .call →
    ((s.step table i).2 = .trapped (.stackOverflow s.registers.pc) ↔ s.stack.length = 1792)
  push : ∀ w, pushed? i s = some w → s.stack.length < 1792 →
    (s.step table i).2 = .advanced ∧ (s.step table i).1.stack = w :: s.stack
  underflow : i.op = .pop →
    ((s.step table i).2 = .trapped (.stackOverflow s.registers.pc) ↔ s.stack = [])
  outermost : i.op = .ret → ((s.step table i).2 = .trapped .halt ↔ s.stack = [])
  pop : ∀ w, popped? i (s.step table i).1 = some w → s.stack ≠ [] →
    (s.step table i).2 = .advanced ∧ s.stack = w :: (s.step table i).1.stack
  faultless : movesStack i.op → ∀ pc fault, (s.step table i).2 ≠ .trapped (.memoryFault pc fault)
  confined : movesStack i.op → ∀ k, k < Layout.stackBase ∨ Layout.stackTop ≤ k →
    (s.step table i).1.context.memory.byte k = s.context.memory.byte k
  beside : ¬ movesStack i.op → (s.step table i).1.stack.length = s.stack.length ∧
    (¬ canStore i.op → (s.step table i).1.stack = s.stack)

/-- An instruction has put a word on the stack. -/
structure Pushed (table : Table) (i : Instruction) (s : MachineState) (w : UInt32) : Prop where
  event : (s.step table i).2 = .advanced
  inStack : (s.step table i).1.InStack
  list : (s.step table i).1.stack = w :: s.stack
  frame : ∀ k, k < Layout.stackBase ∨ s.registers.sp.toNat ≤ k →
    (s.step table i).1.context.memory.byte k = s.context.memory.byte k

/-- An instruction has taken a word from the stack. -/
structure Popped (table : Table) (i : Instruction) (s : MachineState) (w : UInt32) : Prop where
  event : (s.step table i).2 = .advanced
  inStack : (s.step table i).1.InStack
  list : s.stack = w :: (s.step table i).1.stack
  context : (s.step table i).1.context = s.context

/-- What comes of an instruction that moves the stack pointer. -/
inductive Outcome (table : Table) (i : Instruction) (s : MachineState) : Prop where
  | refused (t : Trap) (faultless : t.signal ≠ .memoryFault)
      (result : s.step table i = (s, .trapped t))
  | pushed (w : UInt32) (done : Pushed table i s w)
  | popped (w : UInt32) (done : Popped table i s w)

theorem op_of_pushed? {w : UInt32} (word : pushed? i s = some w) : i.op = .push ∨ i.op = .call := by
  cases op : i.op with
  | push => exact .inl rfl
  | call => exact .inr rfl
  | _ => simp [pushed?, op] at word

theorem op_of_popped? {w : UInt32} (word : popped? i s = some w) : i.op = .pop ∨ i.op = .ret := by
  cases op : i.op with
  | pop => exact .inl rfl
  | ret => exact .inr rfl
  | _ => simp [popped?, op] at word

theorem popped?_of_op (op : i.op = .pop ∨ i.op = .ret) : ∃ w, popped? i s = some w := by
  rcases op with op | op
  · exact ⟨s.registers.get i.a, by simp only [popped?, op]⟩
  · exact ⟨s.registers.pc, by simp only [popped?, op]⟩

theorem step_pushes (table : Table) (s : MachineState) (op : i.op = .push ∨ i.op = .call) :
    ∃ w pc, pushed? i s = some w ∧ s.step table i = s.push w pc := by
  rcases op with op | op
  · exact ⟨s.registers.get i.a, s.registers.pc + 1, by simp [pushed?, op], by simp only [step, op]⟩
  · exact ⟨s.registers.pc + 1, i.imm.toUInt32, by simp [pushed?, op], by simp only [step, op]⟩

theorem get_set (r : Registers) {index : UInt8} (small : index.toNat < 16) (w : UInt32) :
    (r.set index w).get index = w := by
  simp [Registers.get, Registers.set, small]

namespace InStack

variable (table) (h : s.InStack)
include h

theorem step_push_or_call (op : i.op = .push ∨ i.op = .call) :
    ∃ w, pushed? i s = some w ∧
      (s.stack.length = 1792 ∧ s.step table i = (s, .trapped (.stackOverflow s.registers.pc)) ∨
        s.stack.length < 1792 ∧ Pushed table i s w) := by
  obtain ⟨w, pc, word, step⟩ := step_pushes table s op
  refine ⟨w, word, ?_⟩
  by_cases room : s.stack.length < 1792
  · obtain ⟨event, inStack, list, lower, frame⟩ := h.push_room w pc room
    have low := inStack.low
    rw [← step] at event inStack list lower frame low
    exact .inr ⟨room, event, inStack, list, fun k outside => frame k (by omega)⟩
  · have length : s.stack.length = 1792 := by
      have most := h.length_le
      omega
    exact .inl ⟨length, step.trans (h.push_full w pc length)⟩

theorem step_pop (valid : i.Valid) (op : i.op = .pop) :
    s.stack = [] ∧ s.step table i = (s, .trapped (.stackOverflow s.registers.pc)) ∨
      ∃ w, popped? i (s.step table i).1 = some w ∧ Popped table i s w := by
  have step : s.step table i = s.pop i := by simp only [MachineState.step, op]
  by_cases filled : 0 < s.stack.length
  · obtain ⟨inStack, list, _⟩ := h.drop_stack filled
    rw [h.pop_filled filled] at step
    have word : popped? i (s.step table i).1 = some s.top := by
      rw [step, popped?, op]
      exact congrArg some (get_set _ valid.1 _)
    refine .inr ⟨s.top, word, ?_, ?_, ?_, ?_⟩ <;> rw [step]
    · rfl
    · exact inStack.of_sp rfl
    · exact list
    · rfl
  · have none : s.stack.length = 0 := by omega
    exact .inl ⟨List.eq_nil_of_length_eq_zero none, step.trans (h.pop_empty none)⟩

theorem step_ret (op : i.op = .ret) :
    s.stack = [] ∧ s.step table i = (s, .trapped .halt) ∨
      ∃ w, popped? i (s.step table i).1 = some w ∧ Popped table i s w := by
  have step : s.step table i = s.ret := by simp only [MachineState.step, op]
  by_cases filled : 0 < s.stack.length
  · obtain ⟨inStack, list, _⟩ := h.drop_stack filled
    rw [h.ret_filled filled] at step
    have word : popped? i (s.step table i).1 = some s.top := by
      rw [step, popped?, op]
      rfl
    refine .inr ⟨s.top, word, ?_, ?_, ?_, ?_⟩ <;> rw [step]
    · rfl
    · exact inStack.of_sp rfl
    · exact list
    · rfl
  · have none : s.stack.length = 0 := by omega
    exact .inl ⟨List.eq_nil_of_length_eq_zero none, step.trans (h.ret_empty none)⟩

theorem outcome (valid : i.Valid) (moves : movesStack i.op) : Outcome table i s := by
  have pushes : i.op = .push ∨ i.op = .call → Outcome table i s := by
    intro op
    obtain ⟨w, _, ⟨_, refused⟩ | ⟨_, done⟩⟩ := h.step_push_or_call table op
    · exact .refused _ (by simp [Trap.signal]) refused
    · exact .pushed w done
  rcases moves with op | op | op | op
  · exact pushes (.inl op)
  · obtain ⟨_, refused⟩ | ⟨w, _, done⟩ := h.step_pop table valid op
    · exact .refused _ (by simp [Trap.signal]) refused
    · exact .popped w done
  · exact pushes (.inr op)
  · obtain ⟨_, refused⟩ | ⟨w, _, done⟩ := h.step_ret table op
    · exact .refused _ (by simp [Trap.signal]) refused
    · exact .popped w done

variable {table}

theorem step (valid : i.Valid) : (s.step table i).1.InStack := by
  by_cases moves : movesStack i.op
  · cases h.outcome table valid moves with
    | refused t _ result => rw [result]; exact h
    | pushed w done => exact done.inStack
    | popped w done => exact done.inStack
  · exact h.of_sp (sp_step moves)

theorem byte_step (valid : i.Valid) (moves : movesStack i.op) {k : Nat}
    (outside : k < Layout.stackBase ∨ s.registers.sp.toNat ≤ k) :
    (s.step table i).1.context.memory.byte k = s.context.memory.byte k := by
  cases h.outcome table valid moves with
  | refused t _ result => rw [result]
  | pushed w done => exact done.frame k outside
  | popped w done => rw [done.context]

theorem listLike (valid : i.Valid) : ListLike table i s where
  overflow op := by
    obtain ⟨w, _, ⟨full, refused⟩ | ⟨room, done⟩⟩ := h.step_push_or_call table op
    · simp [refused, full]
    · simp only [done.event, reduceCtorEq, false_iff]
      omega
  push w word room := by
    obtain ⟨w', same, ⟨full, _⟩ | ⟨_, done⟩⟩ := h.step_push_or_call table (op_of_pushed? word)
    · omega
    · cases word.symm.trans same
      exact ⟨done.event, done.list⟩
  underflow op := by
    obtain ⟨none, refused⟩ | ⟨w, _, done⟩ := h.step_pop table valid op
    · simp [refused, none]
    · simp [done.event, done.list]
  outermost op := by
    obtain ⟨none, refused⟩ | ⟨w, _, done⟩ := h.step_ret table op
    · simp [refused, none]
    · simp [done.event, done.list]
  pop w word filled := by
    have popped : ∃ w, popped? i (s.step table i).1 = some w ∧ Popped table i s w := by
      rcases op_of_popped? word with op | op
      · exact (h.step_pop table valid op).resolve_left fun empty => filled empty.1
      · exact (h.step_ret table op).resolve_left fun empty => filled empty.1
    obtain ⟨w', same, done⟩ := popped
    cases word.symm.trans same
    exact ⟨done.event, done.list⟩
  faultless moves pc fault event := by
    cases h.outcome table valid moves with
    | refused t faultless result =>
      rw [result] at event
      cases event
      exact faultless rfl
    | pushed w done => cases done.event.symm.trans event
    | popped w done => cases done.event.symm.trans event
  confined moves k outside := h.byte_step valid moves (outside.imp_right (Nat.le_trans h.high))
  beside beside := by
    have sp : (s.step table i).1.registers.sp = s.registers.sp := sp_step beside
    refine ⟨?_, fun still => ?_⟩
    · rw [stack, stack, Memory.length_wordsAt, Memory.length_wordsAt, sp]
    · exact stack_of_sp sp fun k _ => by rw [context_step beside still]

/-- Only what stores in it changes a word that is on the stack. -/
theorem wordAt_step (valid : i.Valid) {address : Nat} (above : s.registers.sp.toNat ≤ address)
    (kept : ¬ Overwrites table i s address) :
    (s.step table i).1.context.memory.wordAt address = s.context.memory.wordAt address := by
  by_cases moves : movesStack i.op
  · have byte : ∀ k, address ≤ k →
        (s.step table i).1.context.memory.byte k = s.context.memory.byte k :=
      fun k low => h.byte_step valid moves (.inr (Nat.le_trans above low))
    simp only [Memory.wordAt]
    rw [byte _ (by omega), byte _ (by omega), byte _ (by omega), byte _ (by omega)]
  · by_cases stores : canStore i.op
    · exact Classical.not_not.mp fun changed => kept ⟨stores, changed⟩
    · rw [context_step moves stores]

end InStack

/-! ### Programs -/

section

variable (code : Bytecode) (table : Table) (s : MachineState)

/-- The states that a program goes through, one instruction after the other. A program stays where it
traps. -/
def walk (code : Bytecode) (table : Table) (s : MachineState) : Nat → MachineState
  | 0 => s
  | n + 1 => (Slice.run code table 1 { state := walk code table s n }).1.state

theorem walk_succ (n : Nat) :
    walk code table s (n + 1) = (Slice.advance code table { state := walk code table s n }).1.state := by
  rw [walk, Slice.run_succ]
  rcases Slice.advance code table { state := walk code table s n } with ⟨s', ending⟩
  cases ending <;> rfl

variable {code s}

theorem walk_fetched {n : Nat}
    (fetched : code.fetch (walk code table s n).registers.pc = some (.ok i)) :
    walk code table s (n + 1) = ((walk code table s n).step table i).1 := by
  rw [walk_succ, Slice.advance]
  simp only [fetched]
  rfl

theorem walk_stays {n : Nat}
    (stopped : ∀ i, code.fetch (walk code table s n).registers.pc ≠ some (.ok i)) :
    walk code table s (n + 1) = walk code table s n := by
  rw [walk_succ, Slice.advance]
  dsimp only
  split
  · rfl
  · rfl
  · rename_i i fetched
    exact absurd fetched (stopped i)

theorem inStack_advance {slice : Slice} (h : slice.state.InStack) :
    (Slice.advance code table slice).1.state.InStack := by
  unfold Slice.advance
  split
  · exact h
  · exact h
  · rename_i i fetched
    exact h.step (Bytecode.valid_of_fetch fetched)

theorem inStack_run (budget : Nat) {slice : Slice} (h : slice.state.InStack) :
    (Slice.run code table budget slice).1.state.InStack := by
  induction budget generalizing slice with
  | zero => exact h
  | succ budget ih =>
    rw [Slice.run_succ]
    have next : (Slice.advance code table slice).1.state.InStack := inStack_advance table h
    rcases done : Slice.advance code table slice with ⟨slice', ending⟩
    rw [done] at next
    cases ending with
    | none => exact ih next
    | some ending => exact next

theorem inStack_walk (h : s.InStack) (n : Nat) : (walk code table s n).InStack := by
  induction n with
  | zero => exact h
  | succ n ih => exact inStack_run table 1 ih

/-- Until the stack is again as short as it was before a push, the word that was pushed stays in its
place. -/
theorem wordAt_walk (h : s.InStack) {m n slot : Nat} {w : UInt32} (later : m ≤ n)
    (first : (walk code table s m).context.memory.wordAt slot = w)
    (above : ∀ k, m ≤ k → k < n → (walk code table s k).registers.sp.toNat ≤ slot)
    (kept : ∀ k i, m ≤ k → k < n → code.fetch (walk code table s k).registers.pc = some (.ok i) →
      ¬ Overwrites table i (walk code table s k) slot) :
    (walk code table s n).context.memory.wordAt slot = w := by
  induction later with
  | refl => exact first
  | @step n later ih =>
    have still := ih (fun k low high => above k low (by omega))
      fun k i low high => kept k i low (by omega)
    by_cases stopped : ∀ i, code.fetch (walk code table s n).registers.pc ≠ some (.ok i)
    · rw [walk_stays table stopped, still]
    · obtain ⟨i, fetched⟩ := Classical.not_forall.mp stopped
      have fetched := Classical.not_not.mp fetched
      rw [walk_fetched table fetched, ← still]
      exact (inStack_walk table h n).wordAt_step (Bytecode.valid_of_fetch fetched)
        (above n later (by omega)) (kept n i later (by omega) fetched)

/-- A word is pushed at step `m`, and a word is popped at step `n` from the same depth, while the stack
was never as short between the two, and nothing was stored in the place of the word. -/
structure Matched (code : Bytecode) (table : Table) (s : MachineState) (m n : Nat)
    (i j : Instruction) (w : UInt32) : Prop where
  later : m < n
  pushing : code.fetch (walk code table s m).registers.pc = some (.ok i)
  word : pushed? i (walk code table s m) = some w
  room : (walk code table s m).stack.length < 1792
  popping : code.fetch (walk code table s n).registers.pc = some (.ok j)
  op : j.op = .pop ∨ j.op = .ret
  depth : (walk code table s n).stack.length = (walk code table s m).stack.length + 1
  deeper : ∀ k, m < k → k < n →
    (walk code table s m).stack.length < (walk code table s k).stack.length
  kept : ∀ k l, m < k → k < n → code.fetch (walk code table s k).registers.pc = some (.ok l) →
    ¬ Overwrites table l (walk code table s k) (walk code table s (m + 1)).registers.sp.toNat

theorem popped?_of_matched (h : s.InStack) {m n : Nat} {i j : Instruction} {w : UInt32}
    (pair : Matched code table s m n i j w) : popped? j (walk code table s (n + 1)) = some w := by
  have inside : ∀ n, (walk code table s n).InStack := inStack_walk table h
  have lists k l (fetched : code.fetch (walk code table s k).registers.pc = some (.ok l)) :
      ListLike table l (walk code table s k) :=
    (inside k).listLike (Bytecode.valid_of_fetch fetched)
  have pushed := ((lists m i pair.pushing).push w pair.word pair.room).2
  rw [← walk_fetched table pair.pushing] at pushed
  have slot := (inside (m + 1)).sp_eq
  rw [pushed, List.length_cons] at slot
  have first : (walk code table s (m + 1)).top = w := (inside (m + 1)).top_eq pushed
  have last : (walk code table s n).context.memory.wordAt
      (walk code table s (m + 1)).registers.sp.toNat = w := by
    refine wordAt_walk table h pair.later first (fun k low high => ?_) pair.kept
    have place := (inside k).sp_eq
    have deeper := pair.deeper k low high
    omega
  have place := (inside n).sp_eq
  have depth := pair.depth
  have filled : (walk code table s n).stack ≠ [] := by
    intro empty
    simp [empty] at depth
  obtain ⟨w', word⟩ := popped?_of_op (s := walk code table s (n + 1)) pair.op
  have popped := (lists n j pair.popping).pop w' (walk_fetched table pair.popping ▸ word) filled
  have top := (inside n).top_eq popped.2
  have same : (walk code table s n).registers.sp.toNat =
      (walk code table s (m + 1)).registers.sp.toNat := by omega
  rw [word, ← top, MachineState.top, same, last]

variable (code)

/-- The stack is a list of at most 1792 words, whatever the program, the external functions, and what
the program can reach. The stack pointer stays inside and at whole words; a push or a call is refused
exactly when the list is full, a pop exactly when it is empty, and a return ends the program exactly
when it is empty. A pop or a return takes the word that the push or call of that depth has left, unless
something has stored in its place. -/
theorem stack_is_a_bounded_list (context : Context) :
    (∀ n, (walk code table ⟨{}, context⟩ n).InStack ∧
      ∀ budget, (Slice.run code table budget
        { state := walk code table ⟨{}, context⟩ n }).1.state.InStack) ∧
    (∀ n i, code.fetch (walk code table ⟨{}, context⟩ n).registers.pc = some (.ok i) →
      walk code table ⟨{}, context⟩ (n + 1) = ((walk code table ⟨{}, context⟩ n).step table i).1 ∧
        ListLike table i (walk code table ⟨{}, context⟩ n)) ∧
    ∀ m n i j w, Matched code table ⟨{}, context⟩ m n i j w →
      popped? j (walk code table ⟨{}, context⟩ (n + 1)) = some w := by
  have start : InStack ⟨{}, context⟩ :=
    ⟨by show 8192 ≤ 15360; omega, by show 15360 ≤ 15360; omega, ⟨3840, rfl⟩⟩
  have inside : ∀ n, (walk code table ⟨{}, context⟩ n).InStack := inStack_walk table start
  refine ⟨fun n => ⟨inside n, fun budget => inStack_run table budget (inside n)⟩,
    fun n i fetched => ⟨walk_fetched table fetched,
      (inside n).listLike (Bytecode.valid_of_fetch fetched)⟩, ?_⟩
  intro m n i j w pair
  exact popped?_of_matched table start pair

/-- A word is pushed, its register gets another one, and the word is popped. -/
def loan : Bytecode :=
  .ofInstructions [{ op := .li, a := 1, imm := 7 }, { op := .push, a := 1 },
    { op := .li, a := 1, imm := 8 }, { op := .pop, a := 2 }]

/-- Zeros, empty queues and no robot. -/
def alone : Context := ⟨.zero, .ofCapacities {}, none⟩

theorem loan_is_returned :
    Matched loan {} ⟨{}, alone⟩ 1 3 { op := .push, a := 1 } { op := .pop, a := 2 } 7 ∧
      (walk loan {} ⟨{}, alone⟩ 4).registers.get 2 = 7 := by
  have pushing : (walk loan {} ⟨{}, alone⟩ 1).registers.pc = 1 := by decide +kernel
  have between : (walk loan {} ⟨{}, alone⟩ 2).registers.pc = 2 := by decide +kernel
  have popping : (walk loan {} ⟨{}, alone⟩ 3).registers.pc = 3 := by decide +kernel
  have pair : Matched loan {} ⟨{}, alone⟩ 1 3 { op := .push, a := 1 } { op := .pop, a := 2 } 7 := by
    refine ⟨by decide, by rw [pushing]; rfl, by decide +kernel, by decide +kernel,
      by rw [popping]; rfl, .inl rfl, by decide +kernel, ?_, ?_⟩
    · intro k low high
      obtain rfl : k = 2 := by omega
      decide +kernel
    · intro k l low high fetched overwritten
      obtain rfl : k = 2 := by omega
      rw [between] at fetched
      cases fetched
      rcases overwritten.1 with op | op | op <;> cases op
  exact ⟨pair, Option.some.inj ((stack_is_a_bounded_list loan {} alone).2.2 1 3 _ _ 7 pair)⟩

end

end MachineState

end RobotArena
