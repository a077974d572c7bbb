import RobotArena.Proofs.Machine.Loading
import RobotArena.Proofs.Machine.Stack
import RobotArena.Proofs.Memory.Fields

/-!
# Where a program stops

A slice goes along the walk of its program until an instruction ends it. A trap leaves everything as the
instruction before it did, and a tick adds to that no more than the signal and, if something went wrong, a
text in the memory that is kept for it.
-/

namespace RobotArena

/-! ### What a slice goes through -/

namespace MachineState

variable (code : Bytecode) (table : Table) (s : MachineState)

/-- The first `n` instructions of a program are executed, and each of them goes on. -/
def Goes (n : Nat) : Prop :=
  ∀ k, k < n → ∃ i, code.fetch (walk code table s k).registers.pc = some (.ok i) ∧
    (walk code table s k).step table i = (walk code table s (k + 1), .advanced)

/-- What a trace says of the next instruction; nothing if there is none, or none that can be read. -/
def noted? : Option TraceEntry :=
  match code.fetch s.registers.pc with
  | some (.ok i) => some ⟨s.registers.pc, i, (s.step table i).1.registers.general⟩
  | _ => none

/-- What a trace says of the first `n` instructions. -/
def entries (n : Nat) : List TraceEntry :=
  (List.range n).filterMap fun k => (walk code table s k).noted? code table

theorem entries_succ (n : Nat) :
    entries code table s (n + 1) =
      entries code table s n ++ ((walk code table s n).noted? code table).toList := by
  rw [entries, List.range_succ, List.filterMap_append, ← entries]
  congr 1

variable {code table s}

theorem Goes.succ {n : Nat} (goes : Goes code table s n) {i : Instruction}
    (fetched : code.fetch (walk code table s n).registers.pc = some (.ok i))
    (advanced : ((walk code table s n).step table i).2 = .advanced) : Goes code table s (n + 1) := by
  intro k small
  by_cases last : k = n
  · subst last
    exact ⟨i, fetched, Prod.ext (walk_fetched table fetched).symm advanced⟩
  · exact goes k (by omega)

end MachineState

/-- Adds entries as long as there is room for them. -/
def Trace.recordAll (t : Trace) (es : List TraceEntry) : Trace :=
  es.foldl Trace.record t

namespace Slice

open MachineState

variable {code : Bytecode} {table : Table}

/-- A slice after its first `n` instructions, each of which went on. -/
structure Reached (code : Bytecode) (table : Table) (start : Slice) (n : Nat) (s : Slice) : Prop where
  goes : Goes code table start.state n
  state : s.state = walk code table start.state n
  executed : s.executed = start.executed + n
  trace : s.trace = start.trace.map (·.recordAll (entries code table start.state n))

theorem Reached.refl (start : Slice) : Reached code table start 0 start where
  goes := nofun
  state := rfl
  executed := rfl
  trace := by
    have all : (fun t : Trace => t.recordAll (entries code table start.state 0)) = id := rfl
    rw [all, Option.map_id_fun, id]

/-- An attempt at an instruction takes the program one step along its walk, and adds to the trace what there is
to say. -/
theorem advance_spec (code : Bytecode) (table : Table) (s : Slice) :
    (advance code table s).1.state = walk code table s.state 1 ∧
      (advance code table s).1.trace =
        s.trace.map (·.recordAll (s.state.noted? code table).toList) := by
  rw [walk_succ]
  unfold advance noted?
  dsimp only [walk]
  cases code.fetch s.state.registers.pc with
  | none => exact ⟨rfl, (Option.map_id_fun' ▸ rfl)⟩
  | some read =>
    cases read with
    | error e => exact ⟨rfl, (Option.map_id_fun' ▸ rfl)⟩
    | ok i => exact ⟨rfl, rfl⟩

theorem ending?_eq_none_iff {event : Event} : ending? event = none ↔ event = .advanced := by
  cases event <;> simp [ending?]

theorem ending?_ne_exhausted (event : Event) : ending? event ≠ some .exhausted := by
  cases event <;> simp [ending?]

theorem advance_ne_exhausted (s s' : Slice) :
    advance code table s ≠ (s', some .exhausted) := by
  unfold advance
  cases code.fetch s.state.registers.pc with
  | none => simp
  | some read =>
    cases read with
    | error e => simp
    | ok i => simp [ending?_ne_exhausted]

/-- An attempt that ends nothing executes an instruction. -/
theorem advance_going {s s' : Slice} (h : advance code table s = (s', none)) :
    s'.executed = s.executed + 1 ∧
      ∃ i, code.fetch s.state.registers.pc = some (.ok i) ∧ (s.state.step table i).2 = .advanced := by
  unfold advance at h
  cases fetched : code.fetch s.state.registers.pc with
  | none => simp [fetched] at h
  | some read =>
    cases read with
    | error e => simp [fetched] at h
    | ok i =>
      simp only [fetched, Prod.mk.injEq] at h
      obtain ⟨rfl, goes⟩ := h
      exact ⟨rfl, i, rfl, ending?_eq_none_iff.mp goes⟩

/-- What an attempt at the next instruction makes of the state and the trace. -/
theorem Reached.attempt {start s : Slice} {n : Nat} (reached : Reached code table start n s) :
    (advance code table s).1.state = walk code table start.state (n + 1) ∧
      (advance code table s).1.trace =
        start.trace.map (·.recordAll (entries code table start.state (n + 1))) := by
  obtain ⟨state, trace⟩ := advance_spec code table s
  rw [reached.state] at state
  rw [reached.state, reached.trace, Option.map_map] at trace
  refine ⟨state, ?_⟩
  rw [trace, entries_succ]
  congr 1
  funext t
  exact List.foldl_append.symm

theorem Reached.advance {start s s' : Slice} {n : Nat} (reached : Reached code table start n s)
    (h : advance code table s = (s', none)) : Reached code table start (n + 1) s' := by
  obtain ⟨counted, i, fetched, advanced⟩ := advance_going h
  obtain ⟨state, trace⟩ := reached.attempt
  rw [h] at state trace
  rw [reached.state] at fetched advanced
  exact ⟨reached.goes.succ fetched advanced, state, by rw [counted, reached.executed, Nat.add_assoc], trace⟩

/-- A slice uses up its budget, or one of its instructions ends it. -/
theorem run_reached (code : Bytecode) (table : Table) (budget : Nat) (start : Slice) :
    (Reached code table start budget (run code table budget start).1 ∧
      (run code table budget start).2 = .exhausted) ∨
    ∃ n before, n < budget ∧ Reached code table start n before ∧
      Slice.advance code table before =
        ((run code table budget start).1, some (run code table budget start).2) := by
  induction budget with
  | zero => exact .inl ⟨.refl start, rfl⟩
  | succ budget ih =>
    rw [run_add]
    rcases ran : run code table budget start with ⟨s, ending⟩
    rw [ran] at ih
    rcases ih with ⟨reached, rfl⟩ | ⟨n, before, less, reached, ended⟩
    · dsimp only [resume]
      rw [run_succ]
      rcases done : Slice.advance code table s with ⟨s', ending⟩
      cases ending with
      | none => exact .inl ⟨reached.advance done, rfl⟩
      | some ending => exact .inr ⟨budget, s, Nat.lt_succ_self _, reached, done⟩
    · right
      refine ⟨n, before, Nat.lt_succ_of_lt less, reached, ?_⟩
      cases ending with
      | exhausted => exact absurd ended (advance_ne_exhausted before _)
      | yielded => exact ended
      | stopped t => exact ended

/-! ### What a trap leaves -/

/-- Why a program stops in a state: it ends there, there is no instruction to be read, or the instruction traps. -/
inductive StopsAt (code : Bytecode) (table : Table) (s : MachineState) : Trap → Prop where
  | off (ended : code.fetch s.registers.pc = none) : StopsAt code table s .halt
  | illegal (e : CodeError) (fetched : code.fetch s.registers.pc = some (.error e)) :
      StopsAt code table s (.illegalInstruction s.registers.pc e)
  | executed (i : Instruction) (t : Trap) (fetched : code.fetch s.registers.pc = some (.ok i))
      (stops : s.Stops table i t) : StopsAt code table s t

/-- A trap that names an instruction names the one that the program is at. -/
theorem StopsAt.pc_eq {s : MachineState} {t : Trap} (stops : StopsAt code table s t) {pc : UInt32}
    (named : t.pc? = some pc) : s.registers.pc = pc := by
  cases stops with
  | off ended => cases named
  | illegal e fetched => exact Option.some.inj named
  | executed i t fetched stops =>
    cases stops with
    | halt op => cases named
    | _ => exact Option.some.inj named

theorem advance_trapped {s s' : Slice} {t : Trap}
    (h : Slice.advance code table s = (s', some (.stopped t))) :
    s'.state = s.state ∧ StopsAt code table s.state t ∧
      s'.executed = s.executed + if (code.fetch s.state.registers.pc).isSome then 1 else 0 := by
  unfold Slice.advance at h
  cases fetched : code.fetch s.state.registers.pc with
  | none =>
    simp only [fetched] at h
    cases h
    exact ⟨rfl, .off fetched, rfl⟩
  | some read =>
    cases read with
    | error e =>
      simp only [fetched] at h
      cases h
      exact ⟨rfl, .illegal e fetched, rfl⟩
    | ok i =>
      simp only [fetched, Prod.mk.injEq] at h
      obtain ⟨rfl, ended⟩ := h
      cases event : (s.state.step table i).2 with
      | advanced => rw [event] at ended; cases ended
      | yielded => rw [event] at ended; cases ended
      | trapped t' =>
        rw [event] at ended
        cases ended
        obtain ⟨same, stops⟩ := step_trapped event
        exact ⟨same, .executed i t fetched stops, rfl⟩

/-- A slice that a trap ended after `n` instructions: the registers, and all that the program can reach, are as
the last of these left them, and the program is still at the place where it stopped. -/
structure Halted (code : Bytecode) (table : Table) (start : MachineState) (n : Nat) (last : Slice) (t : Trap) :
    Prop where
  goes : Goes code table start n
  state : last.state = walk code table start n
  cause : StopsAt code table last.state t
  place : ∀ pc, t.pc? = some pc → last.state.registers.pc = pc
  executed : last.executed = n + if (code.fetch last.state.registers.pc).isSome then 1 else 0

theorem run_halted {budget : Nat} {start : MachineState} {trace : Option Trace} {t : Trap}
    (stopped : (run code table budget { state := start, trace }).2 = .stopped t) :
    ∃ n, n < budget ∧ Halted code table start n (run code table budget { state := start, trace }).1 t := by
  rcases run_reached code table budget { state := start, trace } with
    ⟨_, exhausted⟩ | ⟨n, before, less, reached, ended⟩
  · rw [exhausted] at stopped
    cases stopped
  · rw [stopped] at ended
    obtain ⟨same, stops, counted⟩ := advance_trapped ended
    have executed : before.executed = n := reached.executed.trans (Nat.zero_add n)
    rw [← same] at stops counted
    rw [executed] at counted
    exact ⟨n, less, reached.goes, same.trans reached.state, stops, fun _ => stops.pc_eq, counted⟩

end Slice

/-! ### Ticks -/

namespace Processor

/-- The state of the processor's program in a tick. -/
def state (p : Processor) (host : Option Host) : MachineState :=
  ⟨p.registers, ⟨p.memory, p.queues, host⟩⟩

/-- The processor with what a slice left. -/
def left (p : Processor) (s : Slice) : Processor :=
  { p with
    registers := s.state.registers
    memory := s.state.context.memory
    queues := s.state.context.queues
    trace := s.trace.getD p.trace }

theorem raise_crash (p : Processor) (debug : DebugInfo) {t : Trap}
    (crash : ¬(t.signal = .halt ∨ t.signal = .userCrash)) :
    p.raise debug t =
      { p with
        signal := t.signal
        crashContext := some (UInt32.ofNat Layout.crashMessage)
        memory := p.memory.setCrashMessage (trapText debug t) } := by
  cases t with
  | halt => exact absurd (.inl rfl) crash
  | userCrash pc message => exact absurd (.inr rfl) crash
  | _ => rfl

theorem raise_silent (p : Processor) (debug : DebugInfo) {t : Trap}
    (silent : t.signal = .halt ∨ t.signal = .userCrash) :
    ∃ crashContext, p.raise debug t = { p with signal := t.signal, crashContext } := by
  cases t with
  | halt => exact ⟨_, rfl⟩
  | userCrash pc message => exact ⟨_, rfl⟩
  | _ => simp [Trap.signal] at silent

/-- A trap leaves a text, unless the program has ended or has left its own. -/
theorem raise_spec (p : Processor) (debug : DebugInfo) (t : Trap) :
    (p.raise debug t).registers = p.registers ∧ (p.raise debug t).queues = p.queues ∧
      Memory.Within Layout.crashFields p.memory (p.raise debug t).memory ∧
      (t.signal = .halt ∨ t.signal = .userCrash → (p.raise debug t).memory = p.memory) := by
  by_cases silent : t.signal = .halt ∨ t.signal = .userCrash
  · obtain ⟨_, raised⟩ := p.raise_silent debug silent
    rw [raised]
    exact ⟨rfl, rfl, .refl _, fun _ => rfl⟩
  · rw [p.raise_crash debug silent]
    exact ⟨rfl, rfl, p.memory.within_setCrashMessage _, fun other => absurd other silent⟩

end Processor

namespace Engine

/-- The slice that a program is given in a tick. -/
def slice (e : Engine) (program : Program) (p : Processor) (host : Option Host) : Slice × SliceEnd :=
  Slice.run program.code e.table e.settings.instructionBudget
    { state := p.state host
      trace := if e.settings.traceEnabled then some ⟨e.settings.traceCapacity, #[]⟩ else none }

theorem runSlice_eq (e : Engine) (program : Program) (p : Processor) (host : Option Host) :
    e.runSlice program p host =
      match e.slice program p host with
      | (s, .exhausted) => (.executed s.executed false, p.left s, s.state.context.host)
      | (s, .yielded) => (.executed s.executed true, p.left s, s.state.context.host)
      | (s, .stopped t) =>
        (.signaled t.signal s.executed, (p.left s).raise program.debug t, s.state.context.host) := by
  obtain ⟨source, binding, version, registers, memory, signal, crashContext, attachment, queues, trace⟩ := p
  unfold runSlice slice Processor.state
  dsimp only
  rcases Slice.run program.code e.table e.settings.instructionBudget
    { state := ⟨registers, ⟨memory, queues, host⟩⟩
      trace := if e.settings.traceEnabled then some ⟨e.settings.traceCapacity, #[]⟩ else none } with
    ⟨⟨⟨registers', ⟨memory', queues', host'⟩⟩, executed, traced⟩, ending⟩
  cases ending <;> rfl

/-- What a trap leaves of a processor, its text apart, is the state that the program stopped in. -/
structure Signaled (s : MachineState) (t : Trap) (p : Processor) (host : Option Host) : Prop where
  registers : p.registers = s.registers
  queues : p.queues = s.context.queues
  host : host = s.context.host
  message : Memory.Within Layout.crashFields s.context.memory p.memory
  silent : t.signal = .halt ∨ t.signal = .userCrash → p.memory = s.context.memory

theorem tick_signaled {e : Engine} {g : Registry} {p : Processor} {host : Option Host} {signal : Signal}
    {count : Nat} (signaled : (e.tick g p host).1 = .signaled signal count) :
    ∃ program t n last, p.runnable? g = some (p.version, program) ∧ p.signal = .none ∧
      t.signal = signal ∧ last.executed = count ∧
      Slice.Halted program.code e.table (p.state host) n last t ∧
      Signaled last.state t (e.tick g p host).2.1 (e.tick g p host).2.2 := by
  have ran : (e.tick g p host).1.ran = true := by rw [signaled]; rfl
  obtain ⟨program, runnable, still, same⟩ := e.tick_of_ran g p host ran
  rw [same, runSlice_eq] at signaled ⊢
  rcases done : e.slice program p host with ⟨last, ending⟩
  rw [done] at signaled
  cases ending with
  | exhausted => cases signaled
  | yielded => cases signaled
  | stopped t =>
    obtain ⟨signal', counted⟩ := TickOutcome.signaled.inj signaled
    have stopped : (e.slice program p host).2 = .stopped t := congrArg Prod.snd done
    obtain ⟨n, _, halted⟩ := Slice.run_halted stopped
    have last' : (e.slice program p host).1 = last := congrArg Prod.fst done
    obtain ⟨registers, queues, message, silent⟩ := (p.left last).raise_spec program.debug t
    exact ⟨program, t, n, last, runnable, still, signal', counted, last' ▸ halted,
      registers, queues, rfl, message, silent⟩

end Engine

namespace Slice

/-- A slice that ends with a trap leaves the registers, the stack pointer with them, memory, and everything else
that the program can reach as they were after the instruction before it, and the program is still where the
trap came up; where it ran off its end, that is the place where there is nothing to read. Of a tick that ends
with a signal all this is true as well, except for the text of the trap: memory changes where that text is kept
and nowhere else, and not at all if the program ended or crashed itself. -/
theorem traps_have_no_effect :
    (∀ code table budget start trace t,
      (run code table budget { state := start, trace }).2 = .stopped t →
        ∃ n, n < budget ∧
          Halted code table start n (run code table budget { state := start, trace }).1 t) ∧
    ∀ (e : Engine) g p host signal count, (e.tick g p host).1 = .signaled signal count →
      ∃ program t n last, p.runnable? g = some (p.version, program) ∧ p.signal = .none ∧
        t.signal = signal ∧ last.executed = count ∧
        Halted program.code e.table (p.state host) n last t ∧
        Engine.Signaled last.state t (e.tick g p host).2.1 (e.tick g p host).2.2 :=
  ⟨fun _ _ _ _ _ _ stopped => run_halted stopped, fun _ _ _ _ _ _ signaled => Engine.tick_signaled signaled⟩

/-- A word is loaded and divided by zero. -/
def quotient : Bytecode :=
  .ofInstructions [{ op := .li, a := 1, imm := 7 }, { op := .div, a := 1, b := 1, c := 2 }]

/-- A processor that is loaded with a published program. -/
def loaded : Processor :=
  { Processor.create .none {} none with binding := some (.ofPath "main.asm"), version := 1 }

/-- A registry with a published program. -/
def published (code : Bytecode) : Registry :=
  ({} : Registry).publish (.ofPath "main.asm") { code } 0

theorem division_by_zero_keeps_the_dividend :
    (run quotient .standard 5 { state := loaded.state none }).2 = .stopped (.divideByZero 1) ∧
      (run quotient .standard 5 { state := loaded.state none }).1.state.registers.pc = 1 ∧
      (Engine.tick {} (published quotient) loaded none).1 = .signaled .divideByZero 2 ∧
      (Engine.tick {} (published quotient) loaded none).2.1.registers.get 1 = 7 := by
  have stopped : (run quotient .standard 5 { state := loaded.state none }).2 = .stopped (.divideByZero 1) := by
    decide +kernel
  have signaled : (Engine.tick {} (published quotient) loaded none).1 = .signaled .divideByZero 2 := by
    decide +kernel
  have program : loaded.runnable? (published quotient) = some (1, { code := quotient }) := by
    decide +kernel
  obtain ⟨_, _, halted⟩ := traps_have_no_effect.1 _ _ _ _ _ _ stopped
  obtain ⟨program', _, n, last, runnable, _, _, counted, halted', left⟩ :=
    traps_have_no_effect.2 _ _ _ _ _ _ signaled
  obtain rfl : program' = { code := quotient } := congrArg Prod.snd (Option.some.inj (runnable.symm.trans program))
  have some : n = 1 ∨ n = 2 := by
    have attempts := halted'.executed
    rw [counted] at attempts
    split at attempts <;> omega
  refine ⟨stopped, halted.place 1 rfl, signaled, ?_⟩
  rw [left.registers, halted'.state]
  rcases some with rfl | rfl <;> decide +kernel

end Slice

end RobotArena
