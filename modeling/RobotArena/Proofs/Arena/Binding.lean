import RobotArena.Proofs.Compilation.Roster
import RobotArena.Proofs.World.Ties

/-!
# Processors and their records

A processor that has a source is bound to the record of that source in the next tick, and keeps the
record from being dropped for as long as it is bound. A season is a run of an arena with the history
of its records; the main statement is that after every tick all processors are bound to the records
that are there, and that a collection leaves exactly the records that are in use.
-/

namespace RobotArena

namespace Arena

/-- Whether a processor is bound to the record of a source, or the host holds it. -/
def inUse (a : Arena) (source : SourceId) : Bool :=
  a.world.bindings.contains source || a.held.contains source

theorem inUse_iff {a : Arena} {source : SourceId} :
    a.inUse source = true ↔ source ∈ a.world.bindings ∨ source ∈ a.held := by
  unfold inUse
  rw [Bool.or_eq_true, List.contains_iff_mem, List.contains_iff_mem]

/-! ### What a tick does -/

theorem sources_requestSources (w : World) (now : Nat) (s : Scheduler) :
    (∀ source, source ∈ (requestSources s w now).sources ↔ source ∈ w.sources ∨ source ∈ s.sources) ∧
      (s.sources.Nodup → (requestSources s w now).sources.Nodup) := by
  unfold requestSources
  generalize w.sources = asked
  induction asked generalizing s with
  | nil => exact ⟨fun source => by simp, id⟩
  | cons first rest ih =>
    obtain ⟨members, distinct⟩ := ih (s.request first now)
    rw [List.foldl_cons]
    refine ⟨fun source => ?_, fun before => distinct ?_⟩
    · rw [members, Scheduler.sources_request, Registry.mem_sources_ensure, List.mem_cons]
      constructor
      · rintro (later | here | known)
        · exact .inl (.inr later)
        · exact .inl (.inl here)
        · exact .inr known
      · rintro ((here | later) | known)
        · exact .inr (.inl here)
        · exact .inl later
        · exact .inr (.inr known)
    · rw [Scheduler.sources_request]
      exact Registry.nodup_ensure before first now

theorem sources_collect (settings : Settings) (ticks : Nat) (w : World) (held : List SourceId)
    (s : Scheduler) :
    ((collect settings ticks w held s).2.sources =
      if isCollectionDue settings ticks then
        s.sources.filter fun source => w.bindings.contains source || held.contains source
      else s.sources) ∧
    ((collect settings ticks w held s).1 =
      if isCollectionDue settings ticks then
        s.sources.filter fun source => !(w.bindings.contains source || held.contains source)
      else []) := by
  unfold collect
  split
  · exact ⟨Registry.sources_collect _ _, rfl⟩
  · exact ⟨rfl, rfl⟩

variable {σ : Type} (a : Arena) (dispatcher : Dispatcher σ) (env : σ) (now : Nat)

/-- The arena after a tick. -/
def after : Arena :=
  (a.tick dispatcher env now).2.1

/-- The sources whose records a tick drops. -/
def gone : List SourceId :=
  (a.tick dispatcher env now).1.collected

theorem kept_after :
    (a.after dispatcher env now).settings = a.settings ∧
      (a.after dispatcher env now).ticks = a.ticks + 1 ∧
      (a.after dispatcher env now).held = a.held := by
  unfold after tick
  exact ⟨rfl, rfl, rfl⟩

theorem due_after :
    isCollectionDue (a.after dispatcher env now).settings (a.after dispatcher env now).ticks =
      isCollectionDue a.settings (a.ticks + 1) := by
  obtain ⟨settings, ticks, _⟩ := a.kept_after dispatcher env now
  rw [settings, ticks]

/-- A tick binds all processors, and may remove robots. -/
theorem ties_after :
    (a.after dispatcher env now).world.ties.Sublist (a.world.ties.map Tie.bind) := by
  unfold after tick
  dsimp only
  refine (World.ties_integrate _ _).trans ?_
  rw [World.ties_deliver, World.ties_runDevices, World.ties_runPrograms, World.ties_bindAll]

/-- A collection drops the records that are not in use after the tick, and no others. -/
theorem sources_after :
    ((a.after dispatcher env now).scheduler.sources =
      if isCollectionDue a.settings (a.ticks + 1) then
        (requestSources a.scheduler a.world now).sources.filter (a.after dispatcher env now).inUse
      else (requestSources a.scheduler a.world now).sources) ∧
    (a.gone dispatcher env now =
      if isCollectionDue a.settings (a.ticks + 1) then
        (requestSources a.scheduler a.world now).sources.filter
          (!(a.after dispatcher env now).inUse ·)
      else []) := by
  have ticked : ((requestSources a.scheduler a.world now).tick dispatcher env now).2.1.sources =
      (requestSources a.scheduler a.world now).sources := Scheduler.sources_tick _ _ _ _
  have synced := (Registry.sources_sync
    ((requestSources a.scheduler a.world now).tick dispatcher env now).2.1.registry now
    (a.settings.scheduler.syncInterval * 1000)).trans ticked
  unfold gone after inUse tick
  dsimp only
  rw [← synced]
  exact sources_collect _ _ _ _ _

theorem mem_sources_after {source : SourceId} :
    source ∈ (a.after dispatcher env now).scheduler.sources ↔
      (source ∈ a.world.sources ∨ source ∈ a.scheduler.sources) ∧
        (isCollectionDue a.settings (a.ticks + 1) = true →
          (a.after dispatcher env now).inUse source = true) := by
  rw [(a.sources_after dispatcher env now).1, ← (sources_requestSources a.world now a.scheduler).1]
  by_cases due : isCollectionDue a.settings (a.ticks + 1) = true
  · rw [if_pos due, List.mem_filter, forall_prop_of_true due]
  · rw [if_neg due, and_iff_left fun yes => absurd yes due]

theorem mem_gone {source : SourceId} :
    source ∈ a.gone dispatcher env now ↔
      isCollectionDue a.settings (a.ticks + 1) = true ∧
        (source ∈ a.world.sources ∨ source ∈ a.scheduler.sources) ∧
          (a.after dispatcher env now).inUse source = false := by
  rw [(a.sources_after dispatcher env now).2, ← (sources_requestSources a.world now a.scheduler).1]
  by_cases due : isCollectionDue a.settings (a.ticks + 1) = true
  · rw [if_pos due, List.mem_filter, Bool.not_eq_true', and_iff_right due]
  · rw [if_neg due]
    exact ⟨fun none => absurd none List.not_mem_nil, fun both => absurd both.1 due⟩

/-! ### What happens between ticks -/

/-- What a host, its players and its workers can do between ticks. -/
inductive Deed where
  | spawn (blueprint : Blueprint)
  | despawn (id : EntityId)
  | setProgram (id : EntityId) (source : Option SourceId)
  | sourceChanged (source : SourceId) (now : Nat)
  | command (id : EntityId) (command : List UInt8)
  | line (id : EntityId) (line : List UInt8)
  | click (element : UInt32)
  | deposit (deposit : Deposit)
  | fetch
  | ensure (source : SourceId) (now : Nat)
  | publish (source : SourceId) (program : Program) (now : Nat)
  | hold (source : SourceId)
  | release (source : SourceId)
  | receive (results : List JobResult)

/-- What comes of a deed. One that is refused changes nothing. -/
def perform (a : Arena) : Deed → Arena
  | .spawn blueprint => (a.spawn blueprint).2
  | .despawn id => ((a.despawn id).toOption.map (·.2)).getD a
  | .setProgram id source => (a.setProgram id source).toOption.getD a
  | .sourceChanged source now => ((a.sourceChanged source now).toOption.map (·.2)).getD a
  | .command id command => (a.pushCommand id command).toOption.getD a
  | .line id line => (a.provideLine id line).toOption.getD a
  | .click element => (a.click element).toOption.getD a
  | .deposit deposit => { a with world := a.world.addDeposit deposit }
  | .fetch => a.takeOutbound.2
  | .ensure source now =>
    { a with
      scheduler := { a.scheduler with registry := a.scheduler.registry.ensure source now } }
  | .publish source program now =>
    { a with
      scheduler := { a.scheduler with registry := a.scheduler.registry.publish source program now } }
  | .hold source => a.hold source
  | .release source => a.release source
  | .receive results => { a with scheduler := a.scheduler.receive results }

section

variable {P : Arena → Prop} {a : Arena} {ε α : Type}

theorem of_outcome (same : P a) {outcome : Except ε Arena} (done : ∀ b, outcome = .ok b → P b) :
    P (outcome.toOption.getD a) := by
  cases answer : outcome with
  | error _ => exact same
  | ok b => exact done b answer

theorem of_answer (same : P a) {outcome : Except ε α} {result : α → Arena}
    (done : ∀ x, outcome = .ok x → P (result x)) : P ((outcome.toOption.map result).getD a) := by
  cases answer : outcome with
  | error _ => exact same
  | ok x => exact done x answer

end

/-- No record is dropped, the host holds records only, and no processor is bound. -/
structure Mild (a b : Arena) : Prop where
  distinct : a.scheduler.sources.Nodup → b.scheduler.sources.Nodup
  kept : ∀ source ∈ a.scheduler.sources, source ∈ b.scheduler.sources
  held : ∀ source ∈ b.held, source ∈ a.held ∨ source ∈ b.scheduler.sources
  ties : ∀ t ∈ b.world.ties, t ∈ a.world.ties ∨ t.binding = none

variable {a}

namespace Mild

theorem refl (a : Arena) : Mild a a :=
  ⟨id, fun _ => id, fun _ => .inl, fun _ => .inl⟩

theorem of_world {w : World} (ties : ∀ t ∈ w.ties, t ∈ a.world.ties ∨ t.binding = none) :
    Mild a { a with world := w } :=
  ⟨id, fun _ => id, fun _ => .inl, ties⟩

theorem of_same {s : Scheduler} (same : s.sources = a.scheduler.sources) :
    Mild a { a with scheduler := s } := by
  refine ⟨fun distinct => ?_, fun source known => ?_, fun _ => .inl, fun _ => .inl⟩
  · show s.sources.Nodup
    rwa [same]
  · show source ∈ s.sources
    rwa [same]

theorem of_ensured {g : Registry} (source : SourceId) (now : Nat)
    (same : g.sources = (a.scheduler.registry.ensure source now).sources) :
    Mild a { a with scheduler := { a.scheduler with registry := g } } := by
  refine ⟨fun distinct => ?_, fun t known => ?_, fun _ => .inl, fun _ => .inl⟩
  · show g.sources.Nodup
    rw [same]
    exact Registry.nodup_ensure distinct source now
  · show t ∈ g.sources
    rw [same, Registry.mem_sources_ensure]
    exact .inr known

end Mild

theorem processor_eq_ok {id : EntityId} {p : Processor} (known : a.processor id = .ok p) :
    ∃ e, a.world.find? id = some e ∧ e.processor = some p := by
  unfold processor at known
  split at known
  · cases known
  · rename_i e found
    split at known
    · cases known
    · rename_i held
      cases known
      exact ⟨e, found, held⟩

theorem tie_of_processor {id : EntityId} {p : Processor} (found : a.processor id = .ok p) :
    ⟨id, p.source, p.binding⟩ ∈ a.world.ties := by
  obtain ⟨e, entity, held⟩ := processor_eq_ok found
  have same : e.id = id := by simpa using List.find?_some entity
  refine List.mem_filterMap.mpr ⟨e, List.mem_of_find?_eq_some entity, ?_⟩
  rw [Entity.tie?, held, Option.map_some, same]

theorem putInQueue_eq {id : EntityId} {p : Processor} (known : a.processor id = .ok p) (queue : HostQueue)
    (change : Queues → Option Queues) :
    a.putInQueue id queue change =
      match change p.queues with
      | some queues => .ok (a.setProcessor id { p with queues })
      | none => .error (.queueFull id queue) := by
  unfold putInQueue
  rw [known]
  show (match change p.queues with | some queues => _ | none => _) = _
  cases change p.queues <;> rfl

theorem putInQueue_eq_ok {id : EntityId} {queue : HostQueue} {change : Queues → Option Queues}
    {b : Arena} (done : a.putInQueue id queue change = .ok b) :
    ∃ p queues, a.processor id = .ok p ∧ change p.queues = some queues ∧
      b = a.setProcessor id { p with queues } := by
  cases known : a.processor id with
  | error _ =>
    rw [putInQueue, known] at done
    cases done
  | ok p =>
    rw [putInQueue_eq known] at done
    cases changed : change p.queues with
    | none =>
      rw [changed] at done
      cases done
    | some queues =>
      rw [changed] at done
      cases done
      exact ⟨p, queues, rfl, changed, rfl⟩

theorem setProgram_eq_ok {id : EntityId} {source : Option SourceId} {b : Arena}
    (done : a.setProgram id source = .ok b) :
    ∃ p, a.processor id = .ok p ∧ b = a.setProcessor id (p.setSource source) := by
  unfold setProgram at done
  cases found : a.processor id with
  | error _ =>
    rw [found] at done
    cases done
  | ok p =>
    rw [found] at done
    cases done
    exact ⟨p, rfl, rfl⟩

theorem mild_putInQueue {id : EntityId} {queue : HostQueue} {change : Queues → Option Queues}
    {b : Arena} (done : a.putInQueue id queue change = .ok b) : Mild a b := by
  obtain ⟨p, queues, found, _, rfl⟩ := putInQueue_eq_ok done
  refine .of_world fun t member => ?_
  obtain old | new := World.mem_ties_replace member
  · exact .inl old
  · have tied := tie_of_processor found
    rw [new]
    exact .inl tied

theorem mild_setProgram {id : EntityId} {source : Option SourceId} {b : Arena}
    (done : a.setProgram id source = .ok b) : Mild a b := by
  obtain ⟨p, _, rfl⟩ := setProgram_eq_ok done
  refine .of_world fun t member => ?_
  obtain old | new := World.mem_ties_replace member
  · exact .inl old
  · rw [new]
    exact .inr rfl

theorem mild_perform (a : Arena) (deed : Deed) : Mild a (a.perform deed) := by
  cases deed with
  | spawn blueprint => exact .of_world fun t member => World.mem_ties_spawn member
  | despawn id =>
    refine of_answer (.refl a) fun x done => ?_
    unfold despawn at done
    split at done
    · cases done
      exact .of_world fun t member => .inl ((a.world.ties_despawn id).subset member)
    · cases done
  | setProgram id source => exact of_outcome (.refl a) fun b done => mild_setProgram done
  | sourceChanged source now =>
    refine of_answer (.refl a) fun x done => ?_
    unfold sourceChanged at done
    cases invalidated : a.scheduler.invalidate source now with
    | error _ =>
      rw [invalidated] at done
      cases done
    | ok answer =>
      rw [invalidated] at done
      cases done
      exact .of_same (Scheduler.sources_invalidate invalidated)
  | command id command => exact of_outcome (.refl a) fun b done => mild_putInQueue done
  | line id line => exact of_outcome (.refl a) fun b done => mild_putInQueue done
  | click element =>
    refine of_outcome (.refl a) fun b done => ?_
    unfold click at done
    split at done
    · cases done
    · exact mild_putInQueue done
  | deposit deposit => exact .of_world fun t member => .inl member
  | fetch => exact ⟨id, fun _ => id, fun _ => .inl, fun _ => .inl⟩
  | ensure source now => exact .of_ensured source now rfl
  | publish source program now =>
    exact .of_ensured source now (a.scheduler.registry.sources_publish source program now)
  | hold source =>
    show Mild a (a.hold source)
    unfold hold
    split
    · rename_i known
      refine ⟨id, fun _ => id, fun t member => ?_, fun _ => .inl⟩
      rcases List.mem_cons.mp member with rfl | old
      · exact .inr (Registry.mem_sources.mpr known)
      · exact .inl old
    · exact .refl a
  | release source =>
    exact ⟨id, fun _ => id, fun t member => .inl (List.mem_of_mem_erase member), fun _ => .inl⟩
  | receive results => exact .of_same rfl

end Arena

/-! ### Seasons -/

/-- An arena, how many records of each source were dropped so far, and how many had been when a robot
was last bound to the source. Nothing in an arena depends on the two counts. -/
structure Season where
  arena : Arena
  dropped : SourceId → Nat := fun _ => 0
  grip : EntityId → SourceId → Nat := fun _ _ => 0

namespace Season

/-- What can happen in a season. -/
inductive Event (σ : Type) where
  | deed (deed : Arena.Deed)
  | tick (dispatcher : Dispatcher σ) (env : σ) (now : Nat)

/-- Ticks the arena. A robot that has a source but no binding is bound before records are
dropped. -/
def tick {σ : Type} (s : Season) (dispatcher : Dispatcher σ) (env : σ) (now : Nat) : Season where
  arena := s.arena.after dispatcher env now
  dropped := fun source =>
    if source ∈ s.arena.gone dispatcher env now then s.dropped source + 1 else s.dropped source
  grip := fun id source =>
    if ⟨id, some source, none⟩ ∈ s.arena.world.ties then s.dropped source else s.grip id source

variable {σ : Type}

theorem arena_tick (s : Season) (dispatcher : Dispatcher σ) (env : σ) (now : Nat) :
    (s.tick dispatcher env now).arena = s.arena.after dispatcher env now := by
  rw [tick]

theorem grip_tick (s : Season) (dispatcher : Dispatcher σ) (env : σ) (now : Nat) (id : EntityId)
    (source : SourceId) :
    (s.tick dispatcher env now).grip id source =
      if ⟨id, some source, none⟩ ∈ s.arena.world.ties then s.dropped source
      else s.grip id source := by
  rw [tick]

theorem dropped_tick (s : Season) (dispatcher : Dispatcher σ) (env : σ) (now : Nat)
    (source : SourceId) :
    (s.tick dispatcher env now).dropped source =
      if source ∈ s.arena.gone dispatcher env now then s.dropped source + 1
      else s.dropped source := by
  rw [tick]

/-- What happens next. -/
def step (s : Season) : Event σ → Season
  | .deed deed => { s with arena := s.arena.perform deed }
  | .tick dispatcher env now => s.tick dispatcher env now

/-- A run from a state. -/
def run (s : Season) (events : List (Event σ)) : Season :=
  events.foldl step s

/-- No source has two records, the host holds records that are there, and so do processors, which
are bound to the record of the source that they are pointed at. -/
structure Tied (s : Season) : Prop where
  distinct : s.arena.scheduler.sources.Nodup
  held : ∀ source ∈ s.arena.held, source ∈ s.arena.scheduler.sources
  bound : ∀ t ∈ s.arena.world.ties, ∀ source, t.binding = some source →
    t.source = some source ∧ source ∈ s.arena.scheduler.sources ∧ s.grip t.id source = s.dropped source

namespace Tied

variable {s : Season}

theorem new (settings : Settings) : Tied { arena := .create settings } :=
  ⟨List.nodup_nil, nofun, nofun⟩

theorem deed (h : s.Tied) (deed : Arena.Deed) : Tied { s with arena := s.arena.perform deed } := by
  have mild := Arena.mild_perform s.arena deed
  refine ⟨mild.distinct h.distinct, fun source member => ?_, fun t member source bound => ?_⟩
  · obtain old | known := mild.held source member
    · exact mild.kept source (h.held source old)
    · exact known
  · obtain old | unbound := mild.ties t member
    · obtain ⟨pointed, known, same⟩ := h.bound t old source bound
      exact ⟨pointed, mild.kept source known, same⟩
    · rw [unbound] at bound
      cases bound

/-- A robot after a tick was there before it, and has been bound if it has a source. -/
theorem tie_after (h : s.Tied) {dispatcher : Dispatcher σ} {env : σ} {now : Nat} {t : Tie}
    (member : t ∈ (s.arena.after dispatcher env now).world.ties) :
    t.binding = t.source ∧ ∀ source, t.source = some source →
      (source ∈ s.arena.world.sources ∨ source ∈ s.arena.scheduler.sources) ∧
        (s.tick dispatcher env now).grip t.id source = s.dropped source := by
  have bound := (s.arena.ties_after dispatcher env now).subset member
  obtain ⟨⟨id, pointed, binding⟩, there, rfl⟩ := List.mem_map.mp bound
  cases binding with
  | none =>
    -- it was not bound yet, so it is bound in this tick
    refine ⟨rfl, fun source same => ?_⟩
    have same : pointed = some source := same
    rw [same] at there
    refine ⟨.inl (World.mem_sources.mpr ⟨_, there, rfl⟩), ?_⟩
    exact (s.grip_tick dispatcher env now id source).trans (if_pos there)
  | some source =>
    obtain ⟨same, known, gripped⟩ := h.bound _ there source rfl
    have same : pointed = some source := same
    refine ⟨same.symm, fun other equal => ?_⟩
    have equal : pointed = some other := equal
    rw [same] at equal
    cases equal
    refine ⟨.inr known, (s.grip_tick dispatcher env now id source).trans ?_⟩
    split
    · rfl
    · exact gripped

theorem dropped_inUse {dispatcher : Dispatcher σ} {env : σ} {now : Nat} {source : SourceId}
    (used : (s.arena.after dispatcher env now).inUse source = true) :
    (s.tick dispatcher env now).dropped source = s.dropped source := by
  have spared : source ∉ s.arena.gone dispatcher env now := by
    intro gone
    have unused := ((s.arena.mem_gone dispatcher env now).mp gone).2.2
    rw [used] at unused
    cases unused
  rw [dropped_tick, if_neg spared]

theorem tick (h : s.Tied) (dispatcher : Dispatcher σ) (env : σ) (now : Nat) :
    (s.tick dispatcher env now).Tied := by
  -- all sources are requested first, and a collection spares what is in use after the tick
  have kept : ∀ source, (source ∈ s.arena.world.sources ∨ source ∈ s.arena.scheduler.sources) →
      (s.arena.after dispatcher env now).inUse source = true →
      source ∈ (s.arena.after dispatcher env now).scheduler.sources := by
    intro source known used
    exact (s.arena.mem_sources_after dispatcher env now).mpr ⟨known, fun _ => used⟩
  constructor
  · have distinct := (Arena.sources_requestSources s.arena.world now s.arena.scheduler).2 h.distinct
    rw [arena_tick, (s.arena.sources_after dispatcher env now).1]
    split
    · exact distinct.filter _
    · exact distinct
  · intro source member
    rw [arena_tick] at member ⊢
    have before : source ∈ s.arena.held := by
      rwa [(s.arena.kept_after dispatcher env now).2.2] at member
    exact kept source (.inr (h.held source before)) (Arena.inUse_iff.mpr (.inr member))
  · intro t member source bound
    rw [arena_tick] at member ⊢
    obtain ⟨same, tied⟩ := h.tie_after member
    have pointed : t.source = some source := same.symm.trans bound
    obtain ⟨known, gripped⟩ := tied source pointed
    have used : (s.arena.after dispatcher env now).inUse source = true :=
      Arena.inUse_iff.mpr (.inl (World.mem_bindings.mpr ⟨t, member, bound⟩))
    exact ⟨pointed, kept source known used, gripped.trans (dropped_inUse used).symm⟩

theorem step (h : s.Tied) (event : Event σ) : (s.step event).Tied := by
  cases event with
  | deed deed => exact h.deed deed
  | tick dispatcher env now => exact h.tick dispatcher env now

theorem run (h : s.Tied) (events : List (Event σ)) : (s.run events).Tied := by
  induction events generalizing s with
  | nil => exact h
  | cons event rest ih => exact ih (h.step event)

end Tied

/-- After every tick, each processor that has a source is bound to it, and no record of the source was
dropped since it was bound; the record is there, and it is the only one. After a tick that collects,
there are records for exactly the sources of processors and those that the host holds; what a tick
drops is not in use. -/
theorem bindings_and_collections_are_exact (settings : Settings) (events : List (Event σ))
    (dispatcher : Dispatcher σ) (env : σ) (now : Nat) :
    let s := run { arena := .create settings } events
    let s' := s.step (.tick dispatcher env now)
    let a := s.arena.after dispatcher env now
    s'.arena = a ∧ a.scheduler.sources.Nodup ∧
    (∀ e ∈ a.world.entities, ∀ p, e.processor = some p → ∀ source, p.source = some source →
      p.binding = some source ∧ (∃ r, a.scheduler.registry.find? source = some r) ∧
        s'.grip e.id source = s'.dropped source) ∧
    (Arena.isCollectionDue a.settings a.ticks = true → ∀ source,
      (∃ r, a.scheduler.registry.find? source = some r) ↔
        source ∈ a.world.sources ∨ source ∈ a.held) ∧
    ∀ source ∈ s.arena.gone dispatcher env now, source ∉ a.world.bindings ∧ source ∉ a.held := by
  intro s s'
  dsimp only
  have before : s.Tied := (Tied.new settings).run events
  have arena : s'.arena = s.arena.after dispatcher env now := s.arena_tick dispatcher env now
  obtain ⟨distinct, held, bound⟩ : s'.Tied := before.step _
  rw [arena] at distinct held bound
  have present : ∀ (g : Registry) source, source ∈ g.sources ↔ ∃ r, g.find? source = some r := by
    intro g source
    rw [Registry.mem_sources, Option.isSome_iff_exists]
  refine ⟨arena, distinct, ?_, fun due source => ?_, fun source gone => ?_⟩
  · intro e member p processor source pointed
    have tie : ⟨e.id, p.source, p.binding⟩ ∈ (s.arena.after dispatcher env now).world.ties := by
      refine List.mem_filterMap.mpr ⟨e, member, ?_⟩
      rw [Entity.tie?, processor, Option.map_some]
    have binding : p.binding = some source := (before.tie_after tie).1.trans pointed
    obtain ⟨_, known, gripped⟩ := bound _ tie source binding
    exact ⟨binding, (present _ source).mp known, gripped⟩
  · rw [Arena.due_after] at due
    rw [← present]
    constructor
    · intro known
      have used := ((s.arena.mem_sources_after dispatcher env now).mp known).2 due
      obtain binding | kept := Arena.inUse_iff.mp used
      · obtain ⟨t, member, binding⟩ := World.mem_bindings.mp binding
        have pointed : t.source = some source := (before.tie_after member).1.symm.trans binding
        exact .inl (World.mem_sources.mpr ⟨t, member, pointed⟩)
      · exact .inr kept
    · rintro (pointed | kept)
      · obtain ⟨t, member, pointed⟩ := World.mem_sources.mp pointed
        have binding : t.binding = some source := (before.tie_after member).1.trans pointed
        exact (bound t member source binding).2.1
      · exact held source kept
  · have unused := ((s.arena.mem_gone dispatcher env now).mp gone).2.2
    rw [← not_or, ← Arena.inUse_iff]
    exact Bool.eq_false_iff.mp unused

/-- A robot that runs a program, and a record that nobody uses. -/
def staffed : List (Event Unit) :=
  [.deed (.spawn { team := ⟨0⟩, program := some (.ofPath "main.asm") }),
    .deed (.ensure (.ofPath "lib.asm") 0)]

/-- Refuses all jobs. -/
def refuse : Dispatcher Unit := fun _ env => (.refused, env)

theorem only_the_used_record_is_left :
    let a := (run { arena := .create { collectionInterval := 1 } } staffed).arena.after refuse () 0
    (∃ r, a.scheduler.registry.find? (.ofPath "main.asm") = some r) ∧
      ¬∃ r, a.scheduler.registry.find? (.ofPath "lib.asm") = some r := by
  intro a
  let before := (run { arena := .create { collectionInterval := 1 } } staffed).arena
  have due : Arena.isCollectionDue a.settings a.ticks = true :=
    (before.due_after refuse () 0).trans (by decide +kernel)
  have held : a.held = [] := (before.kept_after refuse () 0).2.2
  have sources : a.world.sources = [.ofPath "main.asm"] := by decide +kernel
  have left := (bindings_and_collections_are_exact { collectionInterval := 1 } staffed refuse ()
    0).2.2.2.1 due
  rw [left, left, sources, held]
  decide

end Season

end RobotArena
