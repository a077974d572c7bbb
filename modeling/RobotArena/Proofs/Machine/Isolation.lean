import RobotArena.Machine.Engine
import RobotArena.Proofs.External.Isolation
import RobotArena.Proofs.Machine.Loading
import RobotArena.Proofs.Machine.Slices
import RobotArena.Proofs.Machine.Talk

/-!
# Programs that keep to themselves

A slice that calls none of the functions that reach the sketch and the panel does the same whatever these
are. The induction is on the budget: one instruction commutes with exchanging the sketch and the panel, so
both slices call the same functions and stay in step.
-/

namespace RobotArena

/-! ### One instruction -/

namespace MachineState

variable {sketch : Sketch} {panel : Panel}

/-- The same state with another sketch and panel. -/
def share (sketch : Sketch) (panel : Panel) (s : MachineState) : MachineState :=
  { s with context := s.context.share sketch panel }

/-- What an instruction did, with another sketch and panel. -/
def reshare (sketch : Sketch) (panel : Panel) (done : MachineState × Event) : MachineState × Event :=
  (done.1.share sketch panel, done.2)

@[simp] theorem registers_share (s : MachineState) : (s.share sketch panel).registers = s.registers := rfl

@[simp] theorem context_share (s : MachineState) :
    (s.share sketch panel).context = s.context.share sketch panel := rfl

theorem ite_share {c : Prop} [Decidable c] {x y x' y' : MachineState × Event}
    (first : x' = reshare sketch panel x) (second : y' = reshare sketch panel y) :
    (if c then x' else y') = reshare sketch panel (if c then x else y) := by
  split
  · exact first
  · exact second

theorem load_share (i : Instruction) (s : MachineState) :
    (s.share sketch panel).load i = reshare sketch panel (s.load i) := by
  unfold load
  exact ite_share rfl rfl

theorem loadByte_share (i : Instruction) (s : MachineState) :
    (s.share sketch panel).loadByte i = reshare sketch panel (s.loadByte i) := by
  unfold loadByte
  exact ite_share rfl rfl

theorem store_share (i : Instruction) (s : MachineState) :
    (s.share sketch panel).store i = reshare sketch panel (s.store i) := by
  unfold store
  exact ite_share rfl rfl

theorem storeByte_share (i : Instruction) (s : MachineState) :
    (s.share sketch panel).storeByte i = reshare sketch panel (s.storeByte i) := by
  unfold storeByte
  exact ite_share rfl rfl

theorem pop_share (i : Instruction) (s : MachineState) :
    (s.share sketch panel).pop i = reshare sketch panel (s.pop i) := by
  unfold pop
  exact ite_share rfl rfl

theorem push_share (s : MachineState) (w pc : UInt32) :
    (s.share sketch panel).push w pc = reshare sketch panel (s.push w pc) := by
  unfold push
  exact ite_share rfl rfl

theorem ret_share (s : MachineState) : (s.share sketch panel).ret = reshare sketch panel s.ret := by
  unfold ret
  exact ite_share rfl (ite_share rfl rfl)

theorem onQuotient_share (i : Instruction) (f : Int32 → Int32 → Int32) (s : MachineState) :
    (s.share sketch panel).onQuotient i f = reshare sketch panel (s.onQuotient i f) := by
  unfold onQuotient
  exact ite_share rfl rfl

/-- An instruction that calls a function calls one that keeps to itself. -/
def KeepsToItself (i : Instruction) : Prop :=
  i.op = .ext → External.isSharing i.imm = false

theorem callExternal_share {id : Int32} (apart : External.isSharing id = false) (s : MachineState) :
    callExternal .standard (s.share sketch panel) id =
      reshare sketch panel (callExternal .standard s id) := by
  unfold callExternal
  cases found : Table.standard.find? id with
  | none => rfl
  | some f =>
    have member : f ∈ Table.standard.functions := List.mem_of_find?_eq_some found
    have other : f ∉ External.sharing := by
      intro sharing
      have : External.isSharing id = true :=
        List.any_eq_true.mpr ⟨f, sharing, decide_eq_true (number_of_find? found)⟩
      exact Bool.noConfusion (this.symm.trans apart)
    have same := External.private_standard member other sketch panel
      (s.registers.arguments f.signature.argWords) f.signature.retSize.toNat s.context
    simp only [registers_share, context_share, same]
    cases f.body (s.registers.arguments f.signature.argWords) f.signature.retSize.toNat s.context with
    | ok block c => rfl
    | error e c => rfl

theorem step_share {i : Instruction} (apart : KeepsToItself i) (s : MachineState) :
    (s.share sketch panel).step .standard i = reshare sketch panel (s.step .standard i) := by
  unfold step
  cases op : i.op with
  | div => exact onQuotient_share i _ s
  | rem => exact onQuotient_share i _ s
  | ld => exact load_share i s
  | ldb => exact loadByte_share i s
  | st => exact store_share i s
  | stb => exact storeByte_share i s
  | push => exact push_share s _ _
  | pop => exact pop_share i s
  | call => exact push_share s _ _
  | ret => exact ret_share s
  | ext => exact callExternal_share (apart op) s
  | jz => exact ite_share rfl rfl
  | jnz => exact ite_share rfl rfl
  | _ => rfl

end MachineState

/-! ### A slice -/

namespace Slice

variable (sketch : Sketch) (panel : Panel)

/-- The numbers of the functions that a slice with a budget calls. -/
def calls (code : Bytecode) : Nat → MachineState → List Int32
  | 0, _ => []
  | budget + 1, s =>
    match code.fetch s.registers.pc with
    | some (.ok i) =>
      (if i.op = .ext then [i.imm] else []) ++
        if (s.step .standard i).2 = .advanced then calls code budget (s.step .standard i).1 else []
    | _ => []

/-- The same slice with another sketch and panel. -/
def share (s : Slice) : Slice :=
  { s with state := s.state.share sketch panel }

theorem run_share (s : Slice) (code : Bytecode) (budget : Nat)
    (apart : ∀ number ∈ calls code budget s.state, External.isSharing number = false) :
    run code .standard budget (s.share sketch panel) =
      ((run code .standard budget s).1.share sketch panel, (run code .standard budget s).2) := by
  induction budget generalizing s with
  | zero => rfl
  | succ budget ih =>
    rw [run_succ, run_succ]
    unfold advance
    rw [calls] at apart
    have registers : (s.share sketch panel).state.registers = s.state.registers := rfl
    rw [registers]
    cases fetched : code.fetch s.state.registers.pc with
    | none => rfl
    | some read =>
      cases read with
      | error e => rfl
      | ok i =>
        rw [fetched] at apart
        dsimp only at apart ⊢
        have alone : MachineState.KeepsToItself i := fun op =>
          apart i.imm (List.mem_append_left _ (by rw [if_pos op]; exact List.mem_singleton_self _))
        rw [share, MachineState.step_share alone]
        cases event : (s.state.step .standard i).2 with
        | advanced =>
          rw [if_pos event] at apart
          simp only [MachineState.reshare, event]
          exact ih (note (s.state.step .standard i).1 s.executed s.trace s.state.registers.pc i)
            fun number called => apart number (List.mem_append_right _ called)
        | yielded => simp only [MachineState.reshare, event]; rfl
        | trapped t => simp only [MachineState.reshare, event]; rfl

end Slice

/-! ### A tick -/

namespace Engine

variable (sketch : Sketch) (panel : Panel)

/-- The numbers of the functions that a processor's program calls in a tick. -/
def calls (settings : EngineSettings) (g : Registry) (p : Processor) (host : Option Host) : List Int32 :=
  match p.running? g with
  | none => []
  | some program =>
    Slice.calls program.code settings.instructionBudget ⟨p.registers, ⟨p.memory, p.queues, host⟩⟩

/-- The result of a tick with another sketch and panel. -/
def reshare (done : TickOutcome × Processor × Option Host) :
    TickOutcome × Processor × Option Host :=
  (done.1, done.2.1, done.2.2.map (Host.share sketch panel))

theorem runSlice_share {settings : EngineSettings} {program : Program} {p : Processor} {host : Option Host}
    (apart : ∀ number ∈ Slice.calls program.code settings.instructionBudget
      ⟨p.registers, ⟨p.memory, p.queues, host⟩⟩, External.isSharing number = false) :
    runSlice { settings } program p (host.map (Host.share sketch panel)) =
      reshare sketch panel (runSlice { settings } program p host) := by
  obtain ⟨source, binding, version, registers, memory, signal, crashContext, attachment, queues, trace⟩ := p
  let slice : Slice :=
    { state := ⟨registers, ⟨memory, queues, host⟩⟩
      trace := if settings.traceEnabled then some ⟨settings.traceCapacity, #[]⟩ else none }
  have same := slice.run_share sketch panel program.code settings.instructionBudget apart
  change Slice.run program.code .standard settings.instructionBudget
    { state := ⟨registers, ⟨memory, queues, host.map (Host.share sketch panel)⟩⟩
      trace := if settings.traceEnabled then some ⟨settings.traceCapacity, #[]⟩ else none } = _ at same
  simp only [runSlice, same]
  rcases slice.run program.code .standard settings.instructionBudget with
    ⟨⟨⟨registers', ⟨memory', queues', host'⟩⟩, executed, traced⟩, ending⟩
  cases ending <;> rfl

theorem tick_share {settings : EngineSettings} {g : Registry} {p : Processor} {host : Option Host}
    (apart : ∀ number ∈ calls settings g p host, External.isSharing number = false) :
    tick { settings } g p (host.map (Host.share sketch panel)) =
      reshare sketch panel (tick { settings } g p host) := by
  unfold calls at apart
  cases runs : p.running? g with
  | none =>
    obtain ⟨outcome, p', _, rests⟩ := Engine.tick_resting { settings } runs
    rw [rests, rests]
    rfl
  | some program =>
    rw [runs] at apart
    rw [tick_running { settings } _ runs, tick_running { settings } _ runs]
    exact runSlice_share sketch panel apart

end Engine

end RobotArena
