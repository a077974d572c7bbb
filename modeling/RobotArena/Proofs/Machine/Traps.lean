import RobotArena.Proofs.Machine.Slices

/-!
# Where traps come from

An instruction that traps says by its operation and the state why, and leaves the state as it is. A
slice that ends with a trap ran off the end of the program, met bytes that are no instruction, or
executed an instruction that traps.
-/

namespace RobotArena

namespace MachineState

variable {table : Table} {i : Instruction} {s : MachineState} {t : Trap}

/-! ### Instructions that go on -/

@[simp] theorem goto_event (s : MachineState) (pc : UInt32) : (s.goto pc).2 = .advanced := rfl

@[simp] theorem next_event (s : MachineState) : s.next.2 = .advanced := rfl

@[simp] theorem put_event (s : MachineState) (index : UInt8) (w : UInt32) :
    (s.put index w).2 = .advanced := rfl

@[simp] theorem onWords_event (s : MachineState) (i : Instruction)
    (f : UInt32 → UInt32 → UInt32) : (s.onWords i f).2 = .advanced := rfl

@[simp] theorem onNumbers_event (s : MachineState) (i : Instruction)
    (f : Binary32 → Binary32 → Binary32) : (s.onNumbers i f).2 = .advanced := rfl

@[simp] theorem test_event (s : MachineState) (i : Instruction) (f : UInt32 → UInt32 → Bool) :
    (s.test i f).2 = .advanced := rfl

/-! ### Instructions that trap -/

/-- Why an instruction traps. -/
inductive Stops (table : Table) (i : Instruction) (s : MachineState) : Trap → Prop where
  | halt (op : i.op = .halt ∨ i.op = .ret ∧ Layout.stackTop ≤ s.registers.sp.toNat) :
      Stops table i s .halt
  | crash (op : i.op = .crash) :
      Stops table i s (.userCrash s.registers.pc (s.registers.get i.a))
  | full (op : i.op = .push ∨ i.op = .call) (noRoom : hasRoom s.registers.sp = false) :
      Stops table i s (.stackOverflow s.registers.pc)
  | empty (op : i.op = .pop ∨ i.op = .ret) (noWord : hasWord s.registers.sp = false) :
      Stops table i s (.stackOverflow s.registers.pc)
  | division (op : i.op = .div ∨ i.op = .rem) (zero : s.registers.get i.c = 0) :
      Stops table i s (.divideByZero s.registers.pc)
  | memory (length : UInt32)
      (op : (i.op = .ld ∨ i.op = .st) ∧ length = 4 ∨ (i.op = .ldb ∨ i.op = .stb) ∧ length = 1)
      (outside : ¬ Memory.InRange (s.address i) length) :
      Stops table i s (.memoryFault s.registers.pc ⟨s.address i, length⟩)
  | undefined (op : i.op = .ext) (unknown : table.find? i.imm = none) :
      Stops table i s (.undefinedExternal s.registers.pc i.imm)

theorem onQuotient_trapped {f : Int32 → Int32 → Int32} (op : i.op = .div ∨ i.op = .rem)
    (h : (s.onQuotient i f).2 = .trapped t) : (s.onQuotient i f).1 = s ∧ Stops table i s t := by
  unfold onQuotient at h ⊢
  dsimp only at h ⊢
  by_cases zero : s.registers.get i.c = 0
  · rw [if_pos zero] at h ⊢
    cases h
    exact ⟨rfl, .division op zero⟩
  · rw [if_neg zero] at h
    cases h

theorem push_trapped {w pc : UInt32} (op : i.op = .push ∨ i.op = .call)
    (h : (s.push w pc).2 = .trapped t) : (s.push w pc).1 = s ∧ Stops table i s t := by
  unfold push at h ⊢
  cases room : hasRoom s.registers.sp with
  | true => simp [room] at h
  | false =>
    simp only [room, trap] at h ⊢
    cases h
    exact ⟨rfl, .full op room⟩

theorem pop_trapped (op : i.op = .pop) (h : (s.pop i).2 = .trapped t) :
    (s.pop i).1 = s ∧ Stops table i s t := by
  unfold pop at h ⊢
  cases word : hasWord s.registers.sp with
  | true => simp [word] at h
  | false =>
    simp only [word, trap] at h ⊢
    cases h
    exact ⟨rfl, .empty (.inl op) word⟩

theorem ret_trapped (op : i.op = .ret) (h : s.ret.2 = .trapped t) :
    s.ret.1 = s ∧ Stops table i s t := by
  unfold ret at h ⊢
  by_cases outermost : Layout.stackTop ≤ s.registers.sp.toNat
  · rw [if_pos outermost] at h ⊢
    cases h
    exact ⟨rfl, .halt (.inr ⟨op, outermost⟩)⟩
  · rw [if_neg outermost] at h ⊢
    cases word : hasWord s.registers.sp with
    | true => simp [word] at h
    | false =>
      simp only [word, trap] at h ⊢
      cases h
      exact ⟨rfl, .empty (.inr op) word⟩

theorem access_trapped {length : UInt32} {done : MachineState × Event}
    (op : (i.op = .ld ∨ i.op = .st) ∧ length = 4 ∨ (i.op = .ldb ∨ i.op = .stb) ∧ length = 1)
    (goes : done.2 = .advanced)
    (h : (if Memory.InRange (s.address i) length then done else s.fault (s.address i) length).2 =
      .trapped t) :
    (if Memory.InRange (s.address i) length then done else s.fault (s.address i) length).1 = s ∧
      Stops table i s t := by
  by_cases inside : Memory.InRange (s.address i) length
  · rw [if_pos inside, goes] at h
    cases h
  · rw [if_neg inside] at h ⊢
    cases h
    exact ⟨rfl, .memory length op inside⟩

theorem callExternal_trapped (op : i.op = .ext)
    (h : (callExternal table s i.imm).2 = .trapped t) :
    (callExternal table s i.imm).1 = s ∧ Stops table i s t := by
  unfold callExternal at h ⊢
  cases found : table.find? i.imm with
  | none =>
    simp only [found] at h ⊢
    cases h
    exact ⟨rfl, .undefined op found⟩
  | some f =>
    simp only [found] at h
    split at h <;> cases h

theorem step_trapped (h : (s.step table i).2 = .trapped t) :
    (s.step table i).1 = s ∧ Stops table i s t := by
  unfold step at h ⊢
  cases op : i.op with
  | halt =>
    simp only [op] at h ⊢
    cases h
    exact ⟨rfl, .halt (.inl op)⟩
  | crash =>
    simp only [op] at h ⊢
    cases h
    exact ⟨rfl, .crash op⟩
  | div => simp only [op] at h ⊢; exact onQuotient_trapped (.inl op) h
  | rem => simp only [op] at h ⊢; exact onQuotient_trapped (.inr op) h
  | push => simp only [op] at h ⊢; exact push_trapped (.inl op) h
  | call => simp only [op] at h ⊢; exact push_trapped (.inr op) h
  | pop => simp only [op] at h ⊢; exact pop_trapped op h
  | ret => simp only [op] at h ⊢; exact ret_trapped op h
  | ld => simp only [op] at h ⊢; exact access_trapped (.inl ⟨.inl op, rfl⟩) rfl h
  | st => simp only [op] at h ⊢; exact access_trapped (.inl ⟨.inr op, rfl⟩) rfl h
  | ldb => simp only [op] at h ⊢; exact access_trapped (.inr ⟨.inl op, rfl⟩) rfl h
  | stb => simp only [op] at h ⊢; exact access_trapped (.inr ⟨.inr op, rfl⟩) rfl h
  | ext => simp only [op] at h ⊢; exact callExternal_trapped op h
  | jz => simp only [op] at h; split at h <;> cases h
  | jnz => simp only [op] at h; split at h <;> cases h
  | _ => simp [op] at h

end MachineState

namespace Slice

variable {code : Bytecode} {table : Table} {t : Trap}

/-- Why a slice of a program ends with a trap. -/
inductive Ends (code : Bytecode) (table : Table) : Trap → Prop where
  | off : Ends code table .halt
  | illegal (pc : UInt32) (e : CodeError) (fetched : code.fetch pc = some (.error e)) :
      Ends code table (.illegalInstruction pc e)
  | executed (s : MachineState) (i : Instruction) (t : Trap)
      (fetched : code.fetch s.registers.pc = some (.ok i)) (stops : s.Stops table i t) :
      Ends code table t

theorem advance_stopped {s : Slice} (h : (advance code table s).2 = some (.stopped t)) :
    Ends code table t := by
  unfold advance at h
  cases fetched : code.fetch s.state.registers.pc with
  | none =>
    simp only [fetched] at h
    cases h
    exact .off
  | some read =>
    cases read with
    | error e =>
      simp only [fetched] at h
      cases h
      exact .illegal _ e fetched
    | ok i =>
      simp only [fetched] at h
      cases event : (s.state.step table i).2 with
      | advanced => rw [event] at h; cases h
      | yielded => rw [event] at h; cases h
      | trapped t' =>
        rw [event] at h
        cases h
        exact .executed s.state i t fetched (MachineState.step_trapped event).2

theorem run_stopped {budget : Nat} {s : Slice} (h : (run code table budget s).2 = .stopped t) :
    Ends code table t := by
  induction budget generalizing s with
  | zero => cases h
  | succ budget ih =>
    rw [run_succ] at h
    rcases done : advance code table s with ⟨s', ending⟩
    rw [done] at h
    cases ending with
    | none => exact ih h
    | some ending =>
      have stopped : ending = .stopped t := h
      exact advance_stopped (s := s) (by rw [done, stopped])

end Slice

end RobotArena
