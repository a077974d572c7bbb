import RobotArena.Machine.Engine
import RobotArena.Proofs.Compilation.Versions

/-!
# What processors run

A processor compares only the version that it was loaded with to the version of its record. On a
bench, a processor is bound, pointed elsewhere and ticked while records are compiled and published
around it; the main statement is that a tick which executes a program executes the one that the
processor was last loaded for.
-/

namespace RobotArena

/-! ### What a version stands for -/

namespace Registry

variable {g g' : Registry} {v : Nat} {program : Program}

/-- A version was handed out, and no record has another program with it. -/
structure Means (g : Registry) (v : Nat) (program : Program) : Prop where
  positive : 0 < v
  given : v < g.nextVersion
  only : ∀ t held, g.title? t = some (v, held) → held = some program

namespace Means

theorem of_title (versioned : g.Versioned) {t : SourceId} (positive : 0 < v)
    (title : g.title? t = some (v, some program)) : g.Means v program := by
  refine ⟨positive, versioned.below t v _ title, fun t' held found => ?_⟩
  have same : t = t' := versioned.distinct t t' v _ _ title found (by omega)
  rw [← same, title] at found
  cases found
  rfl

/-- A version that was handed out is given to no further record. -/
theorem entry (h : g.Means v program) (entry : Entry g g') : g'.Means v program := by
  have given := Nat.lt_of_lt_of_le h.given entry.next_le
  refine ⟨h.positive, given, fun t held found => ?_⟩
  obtain ⟨_, titles⟩ | ⟨_, source, issued, titles⟩ := entry.titles
  · obtain same | ⟨_, opened⟩ := titles t
    · exact h.only t held (same ▸ found)
    · rw [opened] at found
      cases found
      exact absurd h.positive (Nat.lt_irrefl 0)
  · rw [titles] at found
    split at found
    · obtain ⟨_, _, equal⟩ := Option.map_eq_some_iff.mp found
      have newest : g.nextVersion = v := congrArg Prod.fst equal
      have older := h.given
      omega
    · exact h.only t held found

theorem collect (h : g.Means v program) (inUse : SourceId → Bool) :
    (g.collect inUse).Means v program := by
  refine ⟨h.positive, h.given, fun t held found => ?_⟩
  rw [title?_collect] at found
  split at found
  · exact h.only t held found
  · cases found

end Means

end Registry

/-! ### What a tick does to a processor -/

/-- Whether a program was given its slice in a tick. -/
def TickOutcome.ran : TickOutcome → Bool
  | .executed .. => true
  | .signaled .. => true
  | _ => false

theorem Processor.runnable?_eq_some {p : Processor} {g : Registry} {v : Nat} {program : Program}
    (runnable : p.runnable? g = some (v, program)) :
    ∃ t r, p.binding = some t ∧ g.find? t = some r ∧ r.status = .done ∧ r.success = true ∧
      r.version = v ∧ r.program = some program := by
  obtain ⟨t, bound, read⟩ := Option.bind_eq_some_iff.mp runnable
  obtain ⟨r, found, done⟩ := Option.bind_eq_some_iff.mp read
  unfold CompilationRecord.runnable? at done
  split at done
  · rename_i both
    obtain ⟨held, present, equal⟩ := Option.map_eq_some_iff.mp done
    obtain ⟨version, rfl⟩ := Prod.mk.inj equal
    exact ⟨t, r, bound, found, both.1, both.2, version, present⟩
  · cases done

/-- The program that a processor runs in a tick; none if there is none, if another version is to be loaded,
or if a signal keeps the processor still. -/
def Processor.running? (p : Processor) (g : Registry) : Option Program :=
  match p.runnable? g with
  | none => none
  | some (version, program) => if version ≠ p.version ∨ p.signal ≠ .none then none else some program

namespace Engine

/-- A processor that runs no program does the same whatever its program could reach, and keeps its queues. -/
theorem tick_resting (e : Engine) {g : Registry} {p : Processor} (rests : p.running? g = none) :
    ∃ outcome p', p'.queues = p.queues ∧ ∀ host, e.tick g p host = (outcome, p', host) := by
  unfold Processor.running? at rests
  unfold tick
  cases runnable : p.runnable? g with
  | none => exact ⟨.idle, p, rfl, fun _ => rfl⟩
  | some what =>
    obtain ⟨version, program⟩ := what
    rw [runnable] at rests
    dsimp only at rests ⊢
    by_cases other : version ≠ p.version
    · exact ⟨.reloaded version, p.reload version, rfl, fun _ => if_pos other⟩
    · by_cases signal : p.signal ≠ .none
      · exact ⟨.idle, p, rfl, fun _ => by rw [if_neg other, if_pos signal]⟩
      · rw [if_neg (not_or.mpr ⟨other, signal⟩)] at rests
        cases rests

theorem tick_running (e : Engine) {g : Registry} {p : Processor} (host : Option Host) {program : Program}
    (runs : p.running? g = some program) :
    e.tick g p host = e.runSlice program p host := by
  unfold Processor.running? at runs
  unfold tick
  cases runnable : p.runnable? g with
  | none =>
    rw [runnable] at runs
    cases runs
  | some what =>
    obtain ⟨version, program'⟩ := what
    rw [runnable] at runs
    dsimp only at runs ⊢
    split at runs
    · cases runs
    · rename_i apart
      obtain ⟨same, signal⟩ := not_or.mp apart
      cases runs
      rw [if_neg same, if_neg signal]

variable (e : Engine) (g : Registry) (p : Processor) (host : Option Host)

/-- A tick does nothing, loads the processor, or runs the program it is loaded with. -/
theorem tick_cases :
    (e.tick g p host = (.idle, p, host)) ∨
    (∃ v program, p.runnable? g = some (v, program) ∧ v ≠ p.version ∧
      e.tick g p host = (.reloaded v, p.reload v, host)) ∨
    ∃ program, p.runnable? g = some (p.version, program) ∧ p.signal = .none ∧
      e.tick g p host = e.runSlice program p host := by
  cases runnable : p.runnable? g with
  | none => exact .inl (by simp only [tick, runnable])
  | some what =>
    obtain ⟨v, program⟩ := what
    by_cases same : v = p.version
    · subst same
      by_cases signal : p.signal = .none
      · exact .inr (.inr ⟨program, rfl, signal, by simp [tick, runnable, signal]⟩)
      · exact .inl (by simp [tick, runnable, signal])
    · exact .inr (.inl ⟨v, program, rfl, same, by simp [tick, runnable, same]⟩)

theorem ran_runSlice (program : Program) : (e.runSlice program p host).1.ran = true := by
  unfold runSlice
  dsimp only
  split <;> rfl

/-- A program cannot change what its processor is pointed at, bound to and loaded with. -/
theorem kept_runSlice (program : Program) :
    (e.runSlice program p host).2.1.source = p.source ∧
      (e.runSlice program p host).2.1.binding = p.binding ∧
      (e.runSlice program p host).2.1.version = p.version := by
  unfold runSlice
  dsimp only
  split
  · exact ⟨rfl, rfl, rfl⟩
  · exact ⟨rfl, rfl, rfl⟩
  · rename_i t _
    cases t <;> exact ⟨rfl, rfl, rfl⟩

/-- A tick that runs a program runs the one its record is done with, at the version the processor is
loaded with. -/
theorem tick_of_ran (ran : (e.tick g p host).1.ran = true) :
    ∃ program, p.runnable? g = some (p.version, program) ∧ p.signal = .none ∧
      e.tick g p host = e.runSlice program p host := by
  rcases e.tick_cases g p host with idle | ⟨v, program, _, _, reloaded⟩ | found
  · rw [idle] at ran
    cases ran
  · rw [reloaded] at ran
    cases ran
  · exact found

theorem tick_of_reloaded {v : Nat} (loaded : (e.tick g p host).1 = .reloaded v) :
    e.tick g p host = (.reloaded v, p.reload v, host) ∧
      ∃ program, p.runnable? g = some (v, program) := by
  rcases e.tick_cases g p host with idle | ⟨v', program, runnable, _, reloaded⟩ | ⟨program, _, _, ran⟩
  · rw [idle] at loaded
    cases loaded
  · have same := loaded
    rw [reloaded] at same
    cases same
    exact ⟨reloaded, program, runnable⟩
  · have outcome := e.ran_runSlice p host program
    rw [← ran, loaded] at outcome
    cases outcome

theorem tick_of_idle (nothing : (e.tick g p host).1 = .idle) :
    e.tick g p host = (.idle, p, host) := by
  rcases e.tick_cases g p host with idle | ⟨v, program, _, _, reloaded⟩ | ⟨program, _, _, ran⟩
  · exact idle
  · rw [reloaded] at nothing
    cases nothing
  · have outcome := e.ran_runSlice p host program
    rw [← ran, nothing] at outcome
    cases outcome

end Engine

/-! ### Runs -/

/-- A processor beside a scheduler at work, and the version and program that it was last loaded
for. -/
structure Bench where
  plant : Plant
  processor : Processor
  loaded : Option (Nat × Program) := none

namespace Bench

/-- What can happen on a bench. Memory and queues belong to the devices too, which change them
between ticks. -/
inductive Event where
  | plant (event : Plant.Event)
  | bind (source : SourceId)
  | setSource (source : Option SourceId)
  | disturb (memory : Memory) (queues : Queues)
  | tick (engine : Engine) (host : Option Host)

/-- A record that the processor is bound to is in use. -/
def heed (b : Bench) : Plant.Event → Plant.Event
  | .collect inUse => .collect fun t => inUse t || b.processor.binding = some t
  | event => event

/-- Ticks the processor. -/
def tick (b : Bench) (e : Engine) (host : Option Host) : Bench :=
  let (outcome, processor, _) := e.tick b.plant.scheduler.registry b.processor host
  { b with
    processor
    loaded :=
      match outcome with
      | .reloaded _ => b.processor.runnable? b.plant.scheduler.registry
      | _ => b.loaded }

/-- What happens next. A processor is bound to records only. -/
def step (b : Bench) : Event → Bench
  | .plant event => { b with plant := b.plant.step (b.heed event) }
  | .bind source =>
    if (b.plant.record? source).isSome then { b with processor := b.processor.bind source } else b
  | .setSource source => { b with processor := b.processor.setSource source }
  | .disturb memory queues => { b with processor := { b.processor with memory, queues } }
  | .tick engine host => b.tick engine host

/-- A run from a state. -/
def run (b : Bench) (events : List Event) : Bench :=
  events.foldl step b

/-- A bench with a new processor, on which nothing has happened yet. -/
def new (settings : SchedulerSettings) (externals : List Signature) (attachment : AttachmentKind)
    (capacities : QueueCapacities) (source : Option SourceId) : Bench :=
  { plant := .new settings externals, processor := .create attachment capacities source }

/-- The version that the processor holds is the one it was last loaded for, and still stands for the
program of that time. -/
structure Sound (b : Bench) : Prop where
  synced : b.plant.Synced
  consistent : b.plant.scheduler.registry.Consistent
  versioned : b.plant.scheduler.registry.Versioned
  held : b.processor.version ≠ 0 → ∃ program, b.loaded = some (b.processor.version, program)
  means : ∀ v program, b.loaded = some (v, program) → b.plant.scheduler.registry.Means v program

namespace Sound

variable {b : Bench}

theorem new (settings : SchedulerSettings) (externals : List Signature) (attachment : AttachmentKind)
    (capacities : QueueCapacities) (source : Option SourceId) :
    (Bench.new settings externals attachment capacities source).Sound :=
  ⟨rfl, .empty, .empty, fun loaded => absurd rfl loaded, nofun⟩

/-- Records come, go and change, and versions keep what they stand for. -/
theorem plant (h : b.Sound) (event : Plant.Event) : (b.step (.plant event)).Sound := by
  have synced := Plant.step_synced (b.heed event) h.synced
  rcases Plant.entries_step h.synced (b.heed event) with entries | ⟨inUse, _, collected⟩
  · refine ⟨synced, entries.keep Registry.Consistent.entry h.consistent,
      entries.keep Registry.Versioned.entry h.versioned, h.held, fun v program loaded => ?_⟩
    exact entries.keep Registry.Means.entry (h.means v program loaded)
  · refine ⟨synced, ?_, ?_, h.held, fun v program loaded => ?_⟩
    · show (b.plant.step (b.heed event)).scheduler.registry.Consistent
      rw [collected]
      exact h.consistent.collect inUse
    · show (b.plant.step (b.heed event)).scheduler.registry.Versioned
      rw [collected]
      exact h.versioned.collect inUse
    · show (b.plant.step (b.heed event)).scheduler.registry.Means v program
      rw [collected]
      exact (h.means v program loaded).collect inUse

theorem runnable_means (h : b.Sound) {v : Nat} {program : Program}
    (runnable : b.processor.runnable? b.plant.scheduler.registry = some (v, program)) :
    b.plant.scheduler.registry.Means v program := by
  obtain ⟨t, r, _, found, done, _, version, present⟩ := Processor.runnable?_eq_some runnable
  have title : b.plant.scheduler.registry.title? t = some (v, some program) := by
    rw [Registry.title?, found, Option.map_some, version, present]
  have positive : 0 < v := version ▸ (h.consistent.records t r found).numbered (.inr done)
  exact .of_title h.versioned positive title

theorem tick (h : b.Sound) (e : Engine) (host : Option Host) : (b.tick e host).Sound := by
  rcases e.tick_cases b.plant.scheduler.registry b.processor host with
    idle | ⟨v, program, runnable, _, reloaded⟩ | ⟨program, _, _, ran⟩
  · have same : b.tick e host = b := by simp only [Bench.tick, idle]
    rw [same]
    exact h
  · have loaded : b.tick e host =
        { b with processor := b.processor.reload v, loaded := some (v, program) } := by
      simp only [Bench.tick, reloaded, runnable]
    rw [loaded]
    refine ⟨h.synced, h.consistent, h.versioned, fun _ => ⟨program, rfl⟩, ?_⟩
    intro v' program' same
    cases same
    exact h.runnable_means runnable
  · have outcome := e.ran_runSlice b.processor host program
    have version := (e.kept_runSlice b.processor host program).2.2
    have kept : b.tick e host =
        { b with processor := (e.runSlice program b.processor host).2.1 } := by
      rcases slice : e.runSlice program b.processor host with ⟨what, processor, host'⟩
      rw [slice] at outcome
      cases what with
      | idle => cases outcome
      | reloaded v => cases outcome
      | executed n yielded => simp only [Bench.tick, ran, slice]
      | signaled signal n => simp only [Bench.tick, ran, slice]
    rw [kept]
    refine ⟨h.synced, h.consistent, h.versioned, ?_, h.means⟩
    show (e.runSlice program b.processor host).2.1.version ≠ 0 → _
    rw [version]
    exact h.held

theorem step (h : b.Sound) (event : Event) : (b.step event).Sound := by
  cases event with
  | plant event => exact h.plant event
  | bind source =>
    show (if (b.plant.record? source).isSome then { b with processor := b.processor.bind source }
      else b).Sound
    split
    · exact ⟨h.synced, h.consistent, h.versioned, h.held, h.means⟩
    · exact h
  | setSource source =>
    -- no version is held any more, so the next program is loaded first
    exact ⟨h.synced, h.consistent, h.versioned, fun loaded => absurd rfl loaded, h.means⟩
  | disturb memory queues => exact ⟨h.synced, h.consistent, h.versioned, h.held, h.means⟩
  | tick engine host => exact h.tick engine host

theorem run (h : b.Sound) (events : List Event) : (b.run events).Sound := by
  induction events generalizing b with
  | nil => exact h
  | cons event rest ih => exact ih (h.step event)

/-- The program of the record that the processor would run at its version is the one that the
version stood for when it was loaded. -/
theorem runnable_loaded (h : b.Sound) {program : Program}
    (runnable : b.processor.runnable? b.plant.scheduler.registry =
      some (b.processor.version, program)) :
    b.loaded = some (b.processor.version, program) := by
  have positive := (h.runnable_means runnable).positive
  obtain ⟨held, loaded⟩ := h.held (by omega)
  obtain ⟨t, r, _, found, _, _, version, present⟩ := Processor.runnable?_eq_some runnable
  have title : b.plant.scheduler.registry.title? t = some (b.processor.version, some program) := by
    rw [Registry.title?, found, Option.map_some, version, present]
  have equal := (h.means _ _ loaded).only t _ title
  rw [loaded, Option.some.inj equal]

end Sound

/-- A tick that runs a program runs the one that the processor was last loaded for, while the record
of its source is done with that program and no signal keeps the processor still. A tick that loads
the processor runs nothing: registers, signal and the memory below the devices start over, the rest of
the memory stays. Any other tick does nothing. -/
theorem runs_only_what_was_loaded (settings : SchedulerSettings) (externals : List Signature)
    (attachment : AttachmentKind) (capacities : QueueCapacities) (source : Option SourceId)
    (events : List Event) (e : Engine) (host : Option Host) :
    let b := (new settings externals attachment capacities source).run events
    let g := b.plant.scheduler.registry
    let t := e.tick g b.processor host
    (t.1.ran = true →
      b.processor.signal = .none ∧
      ∃ v program, b.loaded = some (v, program) ∧ t = e.runSlice program b.processor host ∧
        ∃ bound r, b.processor.binding = some bound ∧ b.plant.record? bound = some r ∧
          r.status = .done ∧ r.success = true ∧ r.version = v ∧ r.program = some program) ∧
    (∀ v, t.1 = .reloaded v →
      t.2.2 = host ∧
      (∀ i : Fin 16, t.2.1.registers.general[i] = 0) ∧ t.2.1.registers.pc = 0 ∧
      t.2.1.registers.sp = UInt32.ofNat Layout.stackTop ∧
      (∀ i, t.2.1.memory.byte i =
        if i < Layout.deviceBase then 0 else b.processor.memory.byte i) ∧
      t.2.1.signal = .none ∧ t.2.1.crashContext = none ∧ t.2.1.version = v ∧
      ∃ program, b.processor.runnable? g = some (v, program) ∧
        (b.step (.tick e host)).loaded = some (v, program)) ∧
    (t.1 = .idle → t.2.1 = b.processor ∧ t.2.2 = host) := by
  intro b g t
  have sound : b.Sound := (Sound.new settings externals attachment capacities source).run events
  refine ⟨fun ran => ?_, fun v loaded => ?_, fun idle => ?_⟩
  · obtain ⟨program, runnable, still, same⟩ := e.tick_of_ran g b.processor host ran
    obtain ⟨bound, r, tied, found, done, success, version, present⟩ :=
      Processor.runnable?_eq_some runnable
    exact ⟨still, b.processor.version, program, sound.runnable_loaded runnable, same, bound, r, tied,
      found, done, success, version, present⟩
  · obtain ⟨reloaded, program, runnable⟩ := e.tick_of_reloaded g b.processor host loaded
    have same : t = (.reloaded v, b.processor.reload v, host) := reloaded
    have zeros : ∀ i : Fin 16, (b.processor.reload v).registers.general[i] = 0 := fun i =>
      Vector.getElem_replicate i.isLt
    have memory := fun i => b.processor.memory.byte_clearBelow Layout.deviceBase i
    rw [same]
    refine ⟨rfl, zeros, rfl, rfl, memory, rfl, rfl, rfl, program, runnable, ?_⟩
    show (b.tick e host).loaded = _
    simp only [Bench.tick, reloaded, runnable, g]
  · have same : t = (.idle, b.processor, host) := e.tick_of_idle g b.processor host idle
    rw [same]
    exact ⟨rfl, rfl⟩

/-- A processor that is bound to a compiled record, and loaded with its program. -/
def loadedRun : List Event :=
  Plant.compiledRun.map .plant ++ [.bind (.ofPath "main.asm"), .tick {} none]

theorem loaded_program_runs :
    let b := (new {} [] .none {} none).run loadedRun
    ∃ v program, b.loaded = some (v, program) ∧
      Engine.tick {} b.plant.scheduler.registry b.processor none =
        Engine.runSlice {} program b.processor none := by
  intro b
  have ran : (Engine.tick {} b.plant.scheduler.registry b.processor none).1.ran = true := by
    decide +kernel
  obtain ⟨_, v, program, loaded, same, _⟩ :=
    (runs_only_what_was_loaded {} [] .none {} none loadedRun {} none).1 ran
  exact ⟨v, program, loaded, same⟩

end Bench

end RobotArena
