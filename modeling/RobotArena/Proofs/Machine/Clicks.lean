import RobotArena.Proofs.External.Panel
import RobotArena.Proofs.Machine.Loading
import RobotArena.Proofs.Machine.Talk

/-!
# Clicks that programs take

A program takes clicks from the front of its queue, one with each call of the function for it, and nothing
else that it does touches the queue. What it does to the panel only concerns elements of its own robot and
team, or of owners who have elements already.
-/

namespace RobotArena

/-- A program has taken some clicks, and beside that it has only worked on the panel. -/
structure Context.Polls (c c' : Context) (polled : List UInt32) : Prop where
  clicks : c.queues.uiEvents.items = polled ++ c'.queues.uiEvents.items
  host : ∀ h', c'.host = some h' → ∃ h, c.host = some h ∧ h.Edited h'

namespace Context

variable {c c' c'' : Context} {polled later : List UInt32}

theorem Edited.polls (edited : c.Edited c') : c.Polls c' [] :=
  ⟨by rw [edited.clicks]; rfl, edited.host⟩

theorem Edited.refl (c : Context) : c.Edited c :=
  ⟨rfl, fun h known => ⟨h, known, .refl h⟩⟩

theorem Polls.refl (c : Context) : c.Polls c [] :=
  (Edited.refl c).polls

theorem Polls.trans (first : c.Polls c' polled) (second : c'.Polls c'' later) :
    c.Polls c'' (polled ++ later) := by
  constructor
  · rw [first.clicks, second.clicks, List.append_assoc]
  · intro h'' known
    obtain ⟨h', known', edited'⟩ := second.host h'' known
    obtain ⟨h, own, edited⟩ := first.host h' known'
    exact ⟨h, own, edited.trans edited'⟩

end Context

/-! ### One instruction -/

namespace MachineState

variable {i : Instruction} {s : MachineState}

/-- The click that an instruction takes: the oldest one, if the instruction calls the function for it. -/
def polled? (i : Instruction) (s : MachineState) : Option UInt32 :=
  if i.op = .ext ∧ i.imm = 32 ∧ accepted i s = true then s.context.queues.uiEvents.items.head? else none

theorem eq_guiPoll {f : External} (found : Table.standard.find? i.imm = some f) (imm : i.imm = 32) :
    f = External.guiPoll := by
  have id : f.signature.id = 32 := (imm_of_id (number_of_find? found) 32).mp imm
  have there : External.guiPoll ∈ Table.standard.functions := by
    rw [Table.mem_standard]
    simp [Table.standardFunctions, External.panel]
  exact List.inj_on_of_nodup_map Table.distinct_standard.ids (List.mem_of_find?_eq_some found) there id

theorem polls_nothing (none : polled? i s = none)
    (edited : s.context.Edited (s.step .standard i).1.context) :
    s.context.Polls (s.step .standard i).1.context (polled? i s).toList := by
  rw [none]
  exact edited.polls

theorem step_polls (i : Instruction) (s : MachineState) :
    s.context.Polls (s.step .standard i).1.context (polled? i s).toList := by
  by_cases op : i.op = .ext
  · cases found : Table.standard.find? i.imm with
    | none =>
      have call : s.step .standard i = callExternal .standard s i.imm := by simp only [step, op]
      refine polls_nothing (by simp [polled?, accepted, found]) ?_
      rw [call, callExternal, found]
      exact .refl _
    | some f =>
      have member : f ∈ Table.standard.functions := List.mem_of_find?_eq_some found
      cases done : f.body (s.registers.arguments f.signature.argWords) f.signature.retSize.toNat
          s.context with
      | error e c =>
        refine polls_nothing (by simp [polled?, accepted, found, done]) ?_
        rw [step_refused ⟨op, found, done⟩,
          show c = s.context from External.atomic_standard f member _ _ _ _ _ done]
        exact .refl _
      | ok block c =>
        have after : (s.step .standard i).1.context = c := context_of_ok op found done
        -- only one function takes a click; the others leave the queue alone
        by_cases poll : f = External.guiPoll
        · subst poll
          have imm : i.imm = 32 := (imm_of_id (number_of_find? found) 32).mpr rfl
          obtain ⟨_, rfl⟩ := External.guiPoll_ok done
          rw [after, polled?, if_pos ⟨op, imm, accepted_of_ok found done⟩]
          refine ⟨?_, fun h known => ⟨h, known, .refl h⟩⟩
          show s.context.queues.uiEvents.items = _ ++ s.context.queues.uiEvents.items.tail
          cases s.context.queues.uiEvents.items <;> rfl
        · refine polls_nothing (if_neg fun polls => poll (eq_guiPoll found polls.2.1)) ?_
          have kept := External.edits_standard member poll s.context
            (s.registers.arguments f.signature.argWords) f.signature.retSize.toNat s.context (.refl _)
          rw [done] at kept
          rw [after]
          exact kept
  · refine polls_nothing (by simp [polled?, op]) ?_
    rw [step_memory op]
    exact ⟨rfl, fun h known => ⟨h, known, .refl h⟩⟩

/-- The program gets the number of the element that was clicked on. -/
theorem register_of_polled? {id : UInt32} (polled : polled? i s = some id) :
    (s.step .standard i).1.registers.get 0 = id := by
  unfold polled? at polled
  split at polled
  · rename_i conditions
    obtain ⟨op, imm, accepted⟩ := conditions
    unfold MachineState.accepted at accepted
    cases found : Table.standard.find? i.imm with
    | none => simp [found] at accepted
    | some f =>
      obtain rfl := eq_guiPoll found imm
      cases done : External.guiPoll.body (s.registers.arguments External.guiPoll.signature.argWords)
          External.guiPoll.signature.retSize.toNat s.context with
      | error e c => simp [found, done] at accepted
      | ok block c =>
        obtain ⟨block', _⟩ := External.guiPoll_ok done
        have front : s.context.queues.uiEvents.front?.getD 0 = id := by
          rw [Queue.front?, polled]
          rfl
        rw [front] at block'
        rw [step_accepted op found done, block']
        refine Eq.trans ?_ (Word.ofBlock_toBytes id [])
        exact get_setFirst s.registers _ 0
  · cases polled

end MachineState

/-! ### A slice and a tick -/

/-- The clicks that a program takes in a slice with a budget. -/
def Slice.polls (code : Bytecode) : Nat → MachineState → List UInt32
  | 0, _ => []
  | budget + 1, s =>
    match code.fetch s.registers.pc with
    | some (.ok i) =>
      (s.polled? i).toList ++
        if (s.step .standard i).2 = .advanced then polls code budget (s.step .standard i).1 else []
    | _ => []

theorem Slice.run_polls (code : Bytecode) (budget : Nat) (slice : Slice) :
    slice.state.context.Polls (run code .standard budget slice).1.state.context
      (polls code budget slice.state) := by
  induction budget generalizing slice with
  | zero => exact .refl _
  | succ budget ih =>
    rw [run_succ, polls]
    unfold advance
    cases code.fetch slice.state.registers.pc with
    | none => exact .refl _
    | some read =>
      cases read with
      | error e => exact .refl _
      | ok i =>
        have first := MachineState.step_polls i slice.state
        dsimp only
        cases event : (slice.state.step .standard i).2 with
        | advanced =>
          rw [if_pos rfl]
          exact first.trans (ih (note (slice.state.step .standard i).1 slice.executed slice.trace
            slice.state.registers.pc i))
        | yielded =>
          rw [if_neg nofun]
          exact first.trans (.refl _)
        | trapped t =>
          rw [if_neg nofun]
          exact first.trans (.refl _)

/-- The clicks that a processor's program takes in a tick. -/
def Engine.polls (settings : EngineSettings) (g : Registry) (p : Processor) (host : Option Host) : List UInt32 :=
  match p.running? g with
  | none => []
  | some program =>
    Slice.polls program.code settings.instructionBudget ⟨p.registers, ⟨p.memory, p.queues, host⟩⟩

theorem Engine.tick_polls (settings : EngineSettings) (g : Registry) (p : Processor) (host : Option Host) :
    Context.Polls ⟨p.memory, p.queues, host⟩
      ⟨p.memory, (Engine.tick { settings } g p host).2.1.queues, (Engine.tick { settings } g p host).2.2⟩
      (Engine.polls settings g p host) := by
  unfold Engine.polls
  cases runs : p.running? g with
  | none =>
    obtain ⟨outcome, p', queues, rests⟩ := Engine.tick_resting { settings } runs
    rw [rests]
    dsimp only
    rw [queues]
    exact .refl _
  | some program =>
    rw [Engine.tick_running { settings } _ runs]
    have ran := Slice.run_polls program.code settings.instructionBudget
      { state := ⟨p.registers, ⟨p.memory, p.queues, host⟩⟩
        trace := if settings.traceEnabled then some ⟨settings.traceCapacity, #[]⟩ else none }
    unfold Engine.runSlice
    dsimp only
    split
    · exact ⟨ran.clicks, ran.host⟩
    · exact ⟨ran.clicks, ran.host⟩
    · rename_i t _
      cases t <;> exact ⟨ran.clicks, ran.host⟩

end RobotArena
