import Mathlib.Data.List.Nodup
import RobotArena.Proofs.Arena.Binding
import RobotArena.Proofs.World.Passes

/-!
# The world of an arena

Whatever a host and its players do, and however often an arena is ticked, its world goes through a course:
a tick and every deed are some events, so that what holds after all courses holds in every arena.
-/

namespace RobotArena

theorem Processor.tend_bindSource : Processor.tend Processor.bindSource = Processor.bindSource := by
  funext p
  unfold Processor.tend Processor.bindSource
  split <;> rfl

namespace World

variable (settings : Settings) (technologies : List TechHash)

/-- How many robots an event adds. -/
def Event.spawns : Event → Nat
  | .spawn _ => 1
  | _ => 0

/-- How many robots some events add. -/
def spawns (events : List Event) : Nat :=
  tally Event.spawns events

theorem nextId_happen (w : World) (event : Event) :
    (w.happen settings technologies event).nextId.toNat ≤ w.nextId.toNat + event.spawns := by
  cases event with
  | spawn b =>
    by_cases last : w.nextId + 1 = 0
    · rw [happen_spawn_last _ _ last]
      exact Nat.le_add_right _ _
    · rw [happen_spawn _ _ last]
      show (w.nextId + 1).toNat ≤ _
      rw [UInt32.toNat_add]
      exact Nat.mod_le _ _
  | device d => exact Nat.le_of_eq (congrArg UInt32.toNat (nextId_run w d))
  | integrate => exact Nat.le_of_eq (congrArg UInt32.toNat (nextId_integrate w))
  | _ => exact Nat.le_refl _

theorem nextId_course (w : World) (events : List Event) :
    (w.course settings technologies events).nextId.toNat ≤ w.nextId.toNat + spawns events := by
  induction events generalizing w with
  | nil => exact Nat.le_refl _
  | cons event later ih =>
    have first := nextId_happen settings technologies w event
    have others := ih (w.happen settings technologies event)
    have sum : spawns (event :: later) = event.spawns + spawns later := rfl
    show ((w.happen settings technologies event).course settings technologies later).nextId.toNat ≤ _
    omega

/-- Replacing the processor of a robot by one with the same radio queues tends it. -/
theorem modify_eq_tend {w : World} (orderly : w.Orderly) {id : EntityId} {e : Entity}
    (found : w.find? id = some e) {p q : Processor} (processor : e.processor = some p)
    (inbound : q.queues.inbound = p.queues.inbound) (outbound : q.queues.outbound = p.queues.outbound) :
    w.modify id ({ · with processor := some q }) =
      w.happen settings technologies (.tend fun x p => if x = id then q else p) := by
  obtain ⟨there, named⟩ := mem_of_find? found
  have each : ∀ x ∈ w.entities, (if x.id = id then { x with processor := some q } else x) =
      x.tend fun p => if x.id = id then q else p := by
    intro x member
    by_cases same : x.id = id
    · obtain rfl : x = e := List.inj_on_of_nodup_map orderly.distinct member there (same.trans named.symm)
      simp [Entity.tend, Processor.tend, processor, same, ← inbound, ← outbound]
    · have kept : ∀ p : Processor, Processor.tend (fun p => p) p = p := fun _ => rfl
      simp [Entity.tend, same, funext kept]
  unfold modify
  rw [List.map_congr_left each]
  rfl

theorem bindAll_eq (w : World) :
    w.bindAll = w.happen settings technologies (.tend fun _ => Processor.bindSource) := by
  have each : ∀ e : Entity, { e with processor := e.processor.map Processor.bindSource } =
      e.tend Processor.bindSource := by
    intro e
    rw [Entity.tend, Processor.tend_bindSource]
  exact congrArg w.mapEntities (funext each)

end World

namespace Arena

/-- The world of an arena has gone through a course in which at most so many robots were added, and programs
can call the functions that every arena has. -/
structure OnCourse (n : Nat) (a : Arena) : Prop where
  standard : a.engine.table = .standard
  course : ∃ events, World.spawns events ≤ n ∧
    a.world = World.course a.settings a.technologies {} events

/-- A tick of an arena: programs are bound, they run, all devices work, and then transmissions are delivered
and projectiles fly. -/
def eventsOfTick (engine : EngineSettings) (registry : Registry) (clock : UInt64) : List World.Event :=
  [.tend fun _ => Processor.bindSource, .programs engine registry clock] ++ Device.all.map .device ++
    [.deliver, .integrate]

/-- The records that programs are run from in a tick. -/
def readied {σ : Type} (a : Arena) (dispatcher : Dispatcher σ) (env : σ) (now : Nat) : Registry :=
  ((requestSources a.scheduler a.world now).tick dispatcher env now).2.1.registry

theorem world_after {σ : Type} {a : Arena} (standard : a.engine.table = .standard)
    (dispatcher : Dispatcher σ) (env : σ) (now : Nat) :
    (a.after dispatcher env now).world = a.world.course a.settings a.technologies
      (eventsOfTick a.engine.settings (a.readied dispatcher env now) (UInt64.ofNat (now / 1000))) := by
  obtain ⟨settings, world, scheduler, ⟨engine, table⟩, technologies, outbound, ticks, held⟩ := a
  obtain rfl : table = .standard := standard
  unfold after tick
  dsimp only
  rw [World.bindAll_eq settings technologies]
  rfl

/-- Each device has exactly one pass in the events of a tick. -/
theorem passes_eventsOfTick (settings : Settings) (technologies : List TechHash) (w : World) (d : Device)
    (engine : EngineSettings) (registry : Registry) (clock : UInt64) :
    ∃ v, w.passes settings technologies d (eventsOfTick engine registry clock) = [v] := by
  cases d <;> exact ⟨_, rfl⟩

/-- A tick takes the world through a course with one pass of each device, so that passes count ticks. -/
theorem one_pass_of_tick {σ : Type} {a : Arena} (standard : a.engine.table = .standard)
    (dispatcher : Dispatcher σ) (env : σ) (now : Nat) (d : Device) :
    ∃ events w, (a.after dispatcher env now).world = a.world.course a.settings a.technologies events ∧
      a.world.passes a.settings a.technologies d events = [w] := by
  obtain ⟨w, once⟩ := passes_eventsOfTick a.settings a.technologies a.world d _ _ _
  exact ⟨_, w, world_after standard dispatcher env now, once⟩

theorem settings_after {σ : Type} (a : Arena) (dispatcher : Dispatcher σ) (env : σ) (now : Nat) :
    (a.after dispatcher env now).settings = a.settings ∧
      (a.after dispatcher env now).technologies = a.technologies ∧
      (a.after dispatcher env now).engine = a.engine := by
  unfold after tick
  exact ⟨rfl, rfl, rfl⟩

/-- How many robots a deed adds. -/
def Deed.spawns : Deed → Nat
  | .spawn _ => 1
  | _ => 0

namespace OnCourse

variable {n : Nat} {a : Arena}

theorem new (settings : Settings) : OnCourse 0 (.create settings) :=
  ⟨rfl, [], Nat.le_refl _, rfl⟩

theorem orderly (h : a.OnCourse n) : a.world.Orderly := by
  obtain ⟨events, _, world⟩ := h.course
  rw [world]
  exact World.orderly_course _ _ events

theorem follow (h : a.OnCourse n) {b : Arena} (events : List World.Event)
    (settings : b.settings = a.settings) (technologies : b.technologies = a.technologies)
    (engine : b.engine = a.engine)
    (world : b.world = a.world.course a.settings a.technologies events) :
    b.OnCourse (n + World.spawns events) := by
  obtain ⟨before, few, old⟩ := h.course
  refine ⟨engine ▸ h.standard, before ++ events, ?_, ?_⟩
  · have sum : World.spawns (before ++ events) = World.spawns before + World.spawns events :=
      tally_append _ _
    omega
  · rw [world, old, settings, technologies]
    exact List.foldl_append.symm

theorem tick {σ : Type} (h : a.OnCourse n) (dispatcher : Dispatcher σ) (env : σ) (now : Nat) :
    (a.after dispatcher env now).OnCourse n := by
  obtain ⟨settings, technologies, engine⟩ := a.settings_after dispatcher env now
  exact h.follow _ settings technologies engine (world_after h.standard dispatcher env now)

theorem event (h : a.OnCourse n) (event : World.Event) :
    OnCourse (n + event.spawns)
      { a with world := a.world.happen a.settings a.technologies event } :=
  h.follow [event] rfl rfl rfl rfl

/-- What a host does to anything but the world leaves the course as it is. -/
theorem beside (h : a.OnCourse n) (scheduler : Scheduler) (outbound : List Outbound)
    (held : List SourceId) : OnCourse n { a with scheduler, outbound, held } :=
  ⟨h.standard, h.course⟩

theorem setProcessor (h : a.OnCourse n) {id : EntityId} {p q : Processor} (known : a.processor id = .ok p)
    (inbound : q.queues.inbound = p.queues.inbound) (outbound : q.queues.outbound = p.queues.outbound) :
    (a.setProcessor id q).OnCourse n := by
  obtain ⟨e, found, processor⟩ := processor_eq_ok known
  have tended := World.modify_eq_tend a.settings a.technologies h.orderly found processor inbound outbound
  unfold Arena.setProcessor
  rw [tended]
  exact h.event (.tend fun x p => if x = id then q else p)

theorem putInQueue (h : a.OnCourse n) {id : EntityId} {queue : HostQueue} {change : Queues → Option Queues}
    (apart : ∀ q q', change q = some q' → q'.inbound = q.inbound ∧ q'.outbound = q.outbound) :
    ((a.putInQueue id queue change).toOption.getD a).OnCourse n := by
  refine of_outcome h fun b done => ?_
  obtain ⟨p, queues, known, changed, rfl⟩ := putInQueue_eq_ok done
  obtain ⟨inbound, outbound⟩ := apart p.queues queues changed
  exact h.setProcessor known inbound outbound

theorem left (h : a.OnCourse n) (few : n + 2 < UInt32.size) : a.world.nextId + 1 ≠ 0 := by
  obtain ⟨events, less, world⟩ := h.course
  have next := World.nextId_course a.settings a.technologies {} events
  rw [← world] at next
  have start : ({} : World).nextId.toNat = 1 := rfl
  intro none
  have zero := congrArg UInt32.toNat none
  rw [UInt32.toNat_add] at zero
  have size : UInt32.size = 4294967296 := rfl
  have one : (1 : UInt32).toNat = 1 := rfl
  have nothing : (0 : UInt32).toNat = 0 := rfl
  omega

theorem perform (h : a.OnCourse n) (deed : Deed) (few : n + deed.spawns + 1 < UInt32.size) :
    (a.perform deed).OnCourse (n + deed.spawns) := by
  cases deed with
  | spawn b =>
    have next := h.event (.spawn b)
    rw [World.happen_spawn _ _ (h.left few)] at next
    exact next
  | despawn id =>
    refine of_answer h fun x done => ?_
    unfold despawn at done
    split at done
    · cases done
      exact h.event (.despawn id)
    · cases done
  | setProgram id source =>
    refine of_outcome h fun b done => ?_
    obtain ⟨p, known, rfl⟩ := setProgram_eq_ok done
    exact h.setProcessor known rfl rfl
  | sourceChanged source now =>
    refine of_answer h fun x done => ?_
    unfold sourceChanged at done
    cases invalidated : a.scheduler.invalidate source now with
    | error _ =>
      rw [invalidated] at done
      cases done
    | ok answer =>
      rw [invalidated] at done
      cases done
      exact h.beside _ _ _
  | command id command =>
    refine h.putInQueue fun q q' changed => ?_
    obtain ⟨_, _, rfl⟩ := Option.map_eq_some_iff.mp changed
    exact ⟨rfl, rfl⟩
  | line id line =>
    refine h.putInQueue fun q q' changed => ?_
    obtain ⟨_, _, rfl⟩ := Option.map_eq_some_iff.mp changed
    exact ⟨rfl, rfl⟩
  | click element =>
    show ((a.click element).toOption.getD a).OnCourse n
    unfold click
    split
    · exact h
    · refine h.putInQueue fun q q' changed => ?_
      obtain ⟨_, _, rfl⟩ := Option.map_eq_some_iff.mp changed
      exact ⟨rfl, rfl⟩
  | deposit d => exact h.event (.deposit d)
  | hold source =>
    show (a.hold source).OnCourse n
    unfold hold
    split
    · exact h.beside _ _ _
    · exact h
  | fetch | ensure _ _ | publish _ _ _ | release _ | receive _ => exact h.beside _ _ _

end OnCourse

end Arena

namespace Season

variable {σ : Type}

/-- How many robots an event adds. -/
def Event.spawns : Event σ → Nat
  | .deed d => d.spawns
  | .tick .. => 0

/-- How many robots some events add. -/
def spawns (events : List (Event σ)) : Nat :=
  tally Event.spawns events

theorem onCourse_step {n : Nat} {s : Season} (h : s.arena.OnCourse n) (event : Event σ)
    (few : n + event.spawns + 1 < UInt32.size) : (s.step event).arena.OnCourse (n + event.spawns) := by
  cases event with
  | deed deed => exact h.perform deed few
  | tick dispatcher env now =>
    show (s.tick dispatcher env now).arena.OnCourse n
    rw [arena_tick]
    exact h.tick dispatcher env now

theorem onCourse_run {n : Nat} {s : Season} (h : s.arena.OnCourse n) (events : List (Event σ))
    (few : n + spawns events + 1 < UInt32.size) : (s.run events).arena.OnCourse (n + spawns events) := by
  induction events generalizing s n with
  | nil => exact h
  | cons event later ih =>
    have sum : n + spawns (event :: later) = n + event.spawns + spawns later := (Nat.add_assoc _ _ _).symm
    rw [sum] at few ⊢
    exact ih (onCourse_step h event (by omega)) few

/-- Until the numbers for robots run out, the world of an arena is one that a course leads to, whatever
happens to the arena. -/
theorem world_is_on_course (settings : Settings) (events : List (Event σ))
    (few : spawns events + 1 < UInt32.size) :
    (run { arena := .create settings } events).arena.OnCourse (spawns events) := by
  have run := onCourse_run (s := { arena := .create settings }) (.new settings) events
  rw [Nat.zero_add] at run
  exact run few

end Season

end RobotArena
