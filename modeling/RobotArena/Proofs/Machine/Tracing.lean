import RobotArena.Proofs.Machine.Stopping

/-!
# Tracing

A trace says of each instruction of a slice where it was, what it was, and what it left in the registers, as
long as there is room. The main statement is that keeping a trace changes nothing else, and that the trace
follows the walk of the program from its beginning.
-/

namespace RobotArena

/-! ### What a trace has room for -/

/-- A trace takes the first entries that there is room for. -/
theorem Trace.recordAll_spec (t : Trace) (es : List TraceEntry) :
    (t.recordAll es).capacity = t.capacity ∧
      (t.recordAll es).entries.toList =
        t.entries.toList ++ es.take (t.capacity - t.entries.size) := by
  induction es generalizing t with
  | nil => exact ⟨rfl, by rw [List.take_nil, List.append_nil]; rfl⟩
  | cons e rest ih =>
    have step : t.recordAll (e :: rest) = (t.record e).recordAll rest := rfl
    obtain ⟨capacity, entries⟩ := ih (t.record e)
    rw [step, capacity, entries]
    by_cases room : t.entries.size < t.capacity
    · have taken : t.record e = { t with entries := t.entries.push e } := if_pos room
      have left : t.capacity - t.entries.size = t.capacity - (t.entries.size + 1) + 1 := by omega
      rw [taken, left, List.take_succ_cons]
      refine ⟨rfl, ?_⟩
      simp only [Array.toList_push, Array.size_push, List.append_assoc, List.singleton_append]
    · have full : t.record e = t := if_neg room
      have none : t.capacity - t.entries.size = 0 := by omega
      rw [full, none, List.take_zero, List.take_zero]
      exact ⟨rfl, rfl⟩

namespace MachineState

variable {code : Bytecode} {table : Table} {s : MachineState}

/-- Where every instruction can be read, the entries are those of the instructions one after the other. -/
theorem getElem?_entries {n : Nat}
    (read : ∀ k, k < n → ∃ i, code.fetch (walk code table s k).registers.pc = some (.ok i)) :
    (entries code table s n).length = n ∧
      ∀ k, k < n → (entries code table s n)[k]? = (walk code table s k).noted? code table := by
  induction n with
  | zero => exact ⟨rfl, nofun⟩
  | succ n ih =>
    obtain ⟨length, each⟩ := ih fun k small => read k (by omega)
    obtain ⟨i, fetched⟩ := read n (by omega)
    have last : ∃ e, (walk code table s n).noted? code table = some e := by
      unfold noted?
      rw [fetched]
      exact ⟨_, rfl⟩
    obtain ⟨e, last⟩ := last
    rw [entries_succ, last]
    refine ⟨by rw [List.length_append, length]; rfl, fun k small => ?_⟩
    by_cases newest : k = n
    · subst newest
      rw [List.getElem?_append_right (by omega), length, Nat.sub_self, last]
      rfl
    · rw [List.getElem?_append_left (by omega)]
      exact each k (by omega)

end MachineState

/-- One if a slice ended at what is no instruction. -/
def SliceEnd.unread : SliceEnd → Nat
  | .stopped (.illegalInstruction ..) => 1
  | _ => 0

namespace Slice

open MachineState

variable {code : Bytecode} {table : Table}

/-! ### What tracing leaves alone -/

theorem advance_with (code : Bytecode) (table : Table) (s : Slice) (trace : Option Trace) :
    ∃ trace', advance code table { s with trace } =
      ({ (advance code table s).1 with trace := trace' }, (advance code table s).2) := by
  unfold advance
  dsimp only
  cases code.fetch s.state.registers.pc with
  | none => exact ⟨trace, rfl⟩
  | some read =>
    cases read with
    | error e => exact ⟨trace, rfl⟩
    | ok i => exact ⟨_, rfl⟩

/-- A slice that starts with another trace ends with another trace, and in all other respects as it did. -/
theorem run_with (code : Bytecode) (table : Table) (budget : Nat) (s : Slice) (trace : Option Trace) :
    ∃ trace', run code table budget { s with trace } =
      ({ (run code table budget s).1 with trace := trace' }, (run code table budget s).2) := by
  induction budget generalizing s trace with
  | zero => exact ⟨trace, rfl⟩
  | succ budget ih =>
    obtain ⟨trace', same⟩ := advance_with code table s trace
    rw [run_succ, run_succ, same]
    rcases advance code table s with ⟨s', ending⟩
    cases ending with
    | none => exact ih s' trace'
    | some ending => exact ⟨trace', rfl⟩

/-! ### What a trace says -/

/-- The instructions that a slice has executed, those that trapped or yielded included, are the first `n` of the
walk. All of them could be read. -/
structure Executed (code : Bytecode) (table : Table) (start : Slice) (n : Nat) (last : Slice) (ending : SliceEnd) :
    Prop where
  read : ∀ k, k < n → ∃ i, code.fetch (walk code table start.state k).registers.pc = some (.ok i)
  state : last.state = walk code table start.state n
  executed : last.executed = start.executed + n + ending.unread
  trace : last.trace = start.trace.map (·.recordAll (entries code table start.state n))

theorem Reached.read {start s : Slice} {n : Nat} (reached : Reached code table start n s) :
    ∀ k, k < n → ∃ i, code.fetch (walk code table start.state k).registers.pc = some (.ok i) := by
  intro k small
  obtain ⟨i, fetched, _⟩ := reached.goes k small
  exact ⟨i, fetched⟩

theorem unread_of_step {s : MachineState} {i : Instruction} {ending : SliceEnd}
    (ended : ending? (s.step table i).2 = some ending) : ending.unread = 0 := by
  cases event : (s.step table i).2 with
  | advanced => rw [event] at ended; cases ended
  | yielded => rw [event] at ended; cases ended; rfl
  | trapped t =>
    rw [event] at ended
    cases ended
    cases (step_trapped event).2 <;> rfl

theorem Reached.executed_last {start before last : Slice} {n : Nat} {ending : SliceEnd}
    (reached : Reached code table start n before)
    (ended : Slice.advance code table before = (last, some ending)) :
    ∃ n, Executed code table start n last ending := by
  obtain ⟨state, trace⟩ := reached.attempt
  rw [ended] at state trace
  unfold Slice.advance at ended
  cases fetched : code.fetch before.state.registers.pc with
  | none =>
    simp only [fetched] at ended
    cases ended
    exact ⟨n, reached.read, reached.state, reached.executed, reached.trace⟩
  | some read =>
    cases read with
    | error e =>
      simp only [fetched] at ended
      cases ended
      exact ⟨n, reached.read, reached.state, congrArg (· + 1) reached.executed, reached.trace⟩
    | ok i =>
      simp only [fetched, Prod.mk.injEq] at ended
      obtain ⟨rfl, ended⟩ := ended
      refine ⟨n + 1, fun k small => ?_, state, ?_, trace⟩
      · by_cases last : k = n
        · subst last
          rw [← reached.state]
          exact ⟨i, fetched⟩
        · exact reached.read k (by omega)
      · rw [unread_of_step ended]
        exact congrArg (· + 1) reached.executed

theorem run_executed (code : Bytecode) (table : Table) (budget : Nat) (start : Slice) :
    ∃ n, Executed code table start n (run code table budget start).1 (run code table budget start).2 := by
  rcases run_reached code table budget start with
    ⟨reached, exhausted⟩ | ⟨n, before, _, reached, ended⟩
  · rw [exhausted]
    exact ⟨budget, reached.read, reached.state, reached.executed, reached.trace⟩
  · exact reached.executed_last ended

/-- A traced slice is the slice without a trace, and the trace takes of the instructions that it executes as many
as there is room for. -/
theorem run_traced (code : Bytecode) (table : Table) (budget : Nat) (start : MachineState) (t : Trace) :
    ∃ n, Executed code table { state := start } n (run code table budget { state := start }).1
        (run code table budget { state := start }).2 ∧
      run code table budget { state := start, trace := some t } =
        ({ (run code table budget { state := start }).1 with
            trace := some (t.recordAll (entries code table start n)) },
          (run code table budget { state := start }).2) := by
  obtain ⟨trace, same⟩ := run_with code table budget { state := start } (some t)
  obtain ⟨n, all⟩ := run_executed code table budget { state := start, trace := some t }
  obtain ⟨_, plain⟩ := run_executed code table budget { state := start }
  dsimp only at same
  rw [same] at all
  obtain rfl : trace = some (t.recordAll (entries code table start n)) := all.trace
  exact ⟨n, ⟨all.read, all.state, all.executed, plain.trace⟩, same⟩

end Slice

/-! ### Ticks -/

namespace Processor

theorem raise_with (p : Processor) (debug : DebugInfo) (t : Trap) (trace : Trace) :
    ({ p with trace } : Processor).raise debug t = { p.raise debug t with trace } := by
  cases t <;> rfl

theorem left_with (p : Processor) (s : Slice) (trace : Option Trace) :
    p.left { s with trace } = { p.left s with trace := trace.getD p.trace } := rfl

end Processor

namespace Engine

/-- The engine with traces switched on or off. -/
def tracing (e : Engine) (enabled : Bool) : Engine :=
  { e with settings := { e.settings with traceEnabled := enabled } }

variable (e : Engine) (program : Program) (p : Processor) (host : Option Host)

/-- A traced slice makes of a processor what a slice makes of it, and leaves its trace there. -/
theorem runSlice_tracing :
    ∃ trace, ((e.tracing true).slice program p host).1.trace = some trace ∧
      (e.tracing true).runSlice program p host =
        (((e.tracing false).runSlice program p host).1,
          { ((e.tracing false).runSlice program p host).2.1 with trace },
          ((e.tracing false).runSlice program p host).2.2) := by
  obtain ⟨n, _, same⟩ := Slice.run_traced program.code e.table
    e.settings.instructionBudget (p.state host) ⟨e.settings.traceCapacity, #[]⟩
  obtain ⟨trace, slices⟩ : ∃ trace, (e.tracing true).slice program p host =
      ({ ((e.tracing false).slice program p host).1 with trace := some trace },
        ((e.tracing false).slice program p host).2) := ⟨_, same⟩
  rw [runSlice_eq, runSlice_eq, slices]
  refine ⟨trace, rfl, ?_⟩
  rcases (e.tracing false).slice program p host with ⟨s, ending⟩
  cases ending with
  | exhausted => rfl
  | yielded => rfl
  | stopped t =>
    dsimp only
    rw [Processor.left_with, Processor.raise_with]
    rfl

variable {g : Registry}

/-- A processor that runs no program does the same whatever the engine. -/
theorem tick_eq_of_resting (rests : p.running? g = none) (e e' : Engine) :
    e.tick g p host = e'.tick g p host := by
  unfold Processor.running? at rests
  unfold tick
  cases runnable : p.runnable? g with
  | none => rfl
  | some what =>
    rw [runnable] at rests
    dsimp only at rests ⊢
    by_cases other : what.1 ≠ p.version
    · rw [if_pos other, if_pos other]
    · by_cases signal : p.signal ≠ .none
      · rw [if_neg other, if_neg other, if_pos signal, if_pos signal]
      · rw [if_neg (not_or.mpr ⟨other, signal⟩)] at rests
        cases rests

variable (g)

/-- Switching traces on changes nothing in a tick but the trace, which is that of the slice that was run. -/
theorem tick_tracing :
    ((e.tracing true).tick g p host).1 = ((e.tracing false).tick g p host).1 ∧
      ((e.tracing true).tick g p host).2.2 = ((e.tracing false).tick g p host).2.2 ∧
      (∃ trace, ((e.tracing true).tick g p host).2.1 =
        { ((e.tracing false).tick g p host).2.1 with trace }) ∧
      ∀ program, p.running? g = some program →
        ((e.tracing true).slice program p host).1.trace = some ((e.tracing true).tick g p host).2.1.trace := by
  cases runs : p.running? g with
  | none =>
    rw [tick_eq_of_resting p host runs (e.tracing true) (e.tracing false)]
    exact ⟨rfl, rfl, ⟨_, rfl⟩, nofun⟩
  | some program =>
    obtain ⟨trace, left, same⟩ := e.runSlice_tracing program p host
    rw [tick_running _ host runs, tick_running _ host runs, same]
    refine ⟨rfl, rfl, ⟨trace, rfl⟩, fun program' found => ?_⟩
    obtain rfl := Option.some.inj found
    exact left

end Engine

namespace Slice

open MachineState

/-- A slice with a trace leaves the same registers, memory and everything else that the program can reach, ends
for the same reason and counts the same instructions as without. If `n` of them could be read, the trace says
what the first of these were, as many as there is room for: where each was, what it was, and what it left in the
registers, step by step along the walk of the program. To the processor and its host a tick does the same
with and without a trace. -/
theorem tracing_only_observes :
    (∀ code table budget start capacity,
      let plain := run code table budget { state := start }
      let traced := run code table budget { state := start, trace := some { capacity } }
      traced.1.state = plain.1.state ∧ traced.1.executed = plain.1.executed ∧ traced.2 = plain.2 ∧
        ∃ n trace, plain.1.executed = n + plain.2.unread ∧ plain.1.state = walk code table start n ∧
          traced.1.trace = some trace ∧ trace.capacity = capacity ∧
          trace.entries.size = min capacity n ∧
          ∀ k, k < n → ∃ i, code.fetch (walk code table start k).registers.pc = some (.ok i) ∧
            walk code table start (k + 1) = ((walk code table start k).step table i).1 ∧
            (k < capacity → trace.entries[k]? = some ⟨(walk code table start k).registers.pc, i,
              (walk code table start (k + 1)).registers.general⟩)) ∧
    ∀ (e : Engine) g p host,
      let off := (e.tracing false).tick g p host
      let on := (e.tracing true).tick g p host
      on.1 = off.1 ∧ on.2.2 = off.2.2 ∧ (∃ trace, on.2.1 = { off.2.1 with trace }) ∧
        ∀ program, p.running? g = some program →
          ((e.tracing true).slice program p host).1.trace = some on.2.1.trace := by
  refine ⟨fun code table budget start capacity => ?_, fun e g p host => e.tick_tracing p host g⟩
  obtain ⟨n, all, same⟩ := run_traced code table budget start { capacity }
  intro plain traced
  have traced_eq : traced = _ := same
  obtain ⟨capacity', entries'⟩ := Trace.recordAll_spec { capacity } (entries code table start n)
  obtain ⟨length, each⟩ := getElem?_entries all.read
  rw [traced_eq]
  refine ⟨rfl, rfl, rfl, n, _, ?_, all.state, rfl, capacity', ?_, fun k small => ?_⟩
  · have counted := all.executed
    rwa [Nat.zero_add] at counted
  · rw [← Array.length_toList, entries', List.nil_append, List.length_take, length]
    rfl
  · obtain ⟨i, fetched⟩ := all.read k small
    have step := walk_fetched table fetched
    refine ⟨i, fetched, step, fun room => ?_⟩
    have kept : k < capacity - (#[] : Array TraceEntry).size := room
    rw [← Array.getElem?_toList, entries', List.nil_append, List.getElem?_take_of_lt kept, each k small, step]
    unfold noted?
    rw [fetched]

theorem trace_with_room_for_one_keeps_the_first :
    ∃ trace, (run quotient .standard 5
        { state := loaded.state none, trace := some { capacity := 1 } }).1.trace = some trace ∧
      trace.entries.size = 1 ∧
      trace.entries[0]?.map (fun e => (e.pc, e.instruction, e.general.get 1)) =
        some (0, { op := .li, a := 1, imm := 7 }, 7) := by
  obtain ⟨_, _, _, n, trace, counted, _, kept, _, size, each⟩ :=
    tracing_only_observes.1 quotient .standard 5 (loaded.state none) 1
  have executed : (run quotient .standard 5 { state := loaded.state none }).1.executed = 2 := by
    decide +kernel
  have read : (run quotient .standard 5 { state := loaded.state none }).2.unread = 0 := by
    decide +kernel
  obtain rfl : n = 2 := by omega
  obtain ⟨i, fetched, _, entry⟩ := each 0 (by decide)
  obtain rfl : { op := .li, a := 1, imm := 7 } = i := by
    have first : quotient.fetch 0 = some (.ok { op := .li, a := 1, imm := 7 }) := by decide +kernel
    exact Except.ok.inj (Option.some.inj (first.symm.trans fetched))
  refine ⟨trace, kept, size, ?_⟩
  rw [entry (by decide)]
  decide +kernel

end Slice

end RobotArena
