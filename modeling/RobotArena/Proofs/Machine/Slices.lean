import RobotArena.Machine.Slice

/-!
# Cutting a run into slices

A slice goes on where the one before it used up its budget. The main statement is that two slices, or
any number of them, do what one slice with the sum of their budgets does.
-/

namespace RobotArena.Slice

variable (code : Bytecode) (table : Table)

/-! ### One instruction of a slice -/

/-- How a slice ends after what an instruction did, if it does. -/
def ending? : Event → Option SliceEnd
  | .advanced => none
  | .yielded => some .yielded
  | .trapped t => some (.stopped t)

/-- Executes the next instruction; the second part says how the slice ends, if it does. -/
def advance (s : Slice) : Slice × Option SliceEnd :=
  match code.fetch s.state.registers.pc with
  | none => (s, some (.stopped .halt))
  | some (.error e) =>
    ({ s with executed := s.executed + 1 },
      some (.stopped (.illegalInstruction s.state.registers.pc e)))
  | some (.ok i) =>
    (note (s.state.step table i).1 s.executed s.trace s.state.registers.pc i,
      ending? (s.state.step table i).2)

/-- What is left to do after an instruction. -/
def proceed (budget : Nat) : Slice × Option SliceEnd → Slice × SliceEnd
  | (s, none) => run code table budget s
  | (s, some ending) => (s, ending)

theorem run_succ (budget : Nat) (s : Slice) :
    run code table (budget + 1) s = proceed code table budget (advance code table s) := by
  obtain ⟨state, executed, trace⟩ := s
  rw [run, advance]
  dsimp only
  cases code.fetch state.registers.pc with
  | none => rfl
  | some read =>
    cases read with
    | error e => rfl
    | ok i =>
      dsimp only
      rcases state.step table i with ⟨state', event⟩
      cases event <;> rfl

/-! ### Counting on -/

/-- The slice, with some instructions counted that were executed before it. -/
def after (count : Nat) (s : Slice) : Slice :=
  { s with executed := count + s.executed }

@[simp] theorem after_state (count : Nat) (s : Slice) : (s.after count).state = s.state := rfl

@[simp] theorem after_trace (count : Nat) (s : Slice) : (s.after count).trace = s.trace := rfl

@[simp] theorem after_executed (count : Nat) (s : Slice) :
    (s.after count).executed = count + s.executed := rfl

theorem note_after (state : MachineState) (count executed : Nat) (trace : Option Trace) (pc : UInt32)
    (i : Instruction) :
    note state (count + executed) trace pc i = (note state executed trace pc i).after count := by
  simp [note, after, Nat.add_assoc]

theorem advance_after (count : Nat) (s : Slice) :
    advance code table (s.after count) =
      ((advance code table s).1.after count, (advance code table s).2) := by
  unfold advance
  simp only [after_state, after_trace, after_executed]
  cases code.fetch s.state.registers.pc with
  | none => rfl
  | some read =>
    cases read with
    | error e => simp [after, Nat.add_assoc]
    | ok i => simp only [note_after]

theorem run_after (budget count : Nat) (s : Slice) :
    run code table budget (s.after count) =
      ((run code table budget s).1.after count, (run code table budget s).2) := by
  induction budget generalizing s with
  | zero => rfl
  | succ budget ih =>
    rw [run_succ, run_succ, advance_after]
    rcases advance code table s with ⟨s', ending⟩
    cases ending with
    | none => exact ih s'
    | some ending => rfl

/-! ### Slices one after another -/

/-- Goes on with another budget if the slice before it used up its own. -/
def resume (budget : Nat) : Slice × SliceEnd → Slice × SliceEnd
  | (s, .exhausted) => run code table budget s
  | ended => ended

theorem run_add (a b : Nat) (s : Slice) :
    run code table (a + b) s = resume code table b (run code table a s) := by
  induction a generalizing s with
  | zero => rw [Nat.zero_add, run, resume]
  | succ a ih =>
    rw [Nat.succ_add, run_succ, run_succ]
    unfold advance
    cases code.fetch s.state.registers.pc with
    | none => rfl
    | some read =>
      cases read with
      | error e => rfl
      | ok i =>
        dsimp only
        cases (s.state.step table i).2 with
        | advanced => exact ih _
        | yielded => rfl
        | trapped t => rfl

/-- Executes slices with the given budgets, each with a count of its own and from where the one
before it left off, until one of them ends for another reason than its budget. -/
def runEach : List Nat → MachineState → Option Trace → Slice × SliceEnd
  | [], state, trace => ({ state, trace }, .exhausted)
  | budget :: rest, state, trace =>
    match run code table budget { state, trace } with
    | (s, .exhausted) =>
      ((runEach rest s.state s.trace).1.after s.executed, (runEach rest s.state s.trace).2)
    | ended => ended

theorem runEach_eq (budgets : List Nat) (state : MachineState) (trace : Option Trace) :
    runEach code table budgets state trace =
      run code table (budgets.foldr (· + ·) 0) { state, trace } := by
  induction budgets generalizing state trace with
  | nil => rfl
  | cons budget rest ih =>
    rw [List.foldr_cons, run_add, runEach]
    rcases run code table budget { state, trace } with ⟨s, ending⟩
    cases ending with
    | exhausted =>
      have counted : s = after s.executed { state := s.state, trace := s.trace } := rfl
      dsimp only [resume]
      rw [ih, counted, run_after]
      rfl
    | yielded => rfl
    | stopped t => rfl

/-- A slice with the budget `a + b` is a slice with the budget `a`, followed by one with the budget
`b` if the first used up its own: the same state, trace and ending, and the counts add up. So a run
may be cut into slices anywhere. -/
theorem slices_compose (state : MachineState) (trace : Option Trace) :
    (∀ a b : Nat,
      run code table (a + b) { state, trace } =
        match run code table a { state, trace } with
        | (first, .exhausted) =>
          let (second, ending) := run code table b { state := first.state, trace := first.trace }
          ({ second with executed := first.executed + second.executed }, ending)
        | ended => ended) ∧
    ∀ budgets : List Nat,
      runEach code table budgets state trace =
        run code table (budgets.foldr (· + ·) 0) { state, trace } := by
  refine ⟨fun a b => ?_, fun budgets => runEach_eq code table budgets state trace⟩
  have both := runEach_eq code table [a, b] state trace
  simp only [List.foldr_cons, List.foldr_nil, Nat.add_zero] at both
  rw [← both, runEach]
  rcases run code table a { state, trace } with ⟨first, ending⟩
  cases ending with
  | exhausted =>
    dsimp only
    rw [runEach]
    rcases run code table b { state := first.state, trace := first.trace } with ⟨second, ending⟩
    cases ending <;> rfl
  | yielded => rfl
  | stopped t => rfl

end RobotArena.Slice
