import RobotArena.Proofs.Arena.Runs
import RobotArena.Proofs.Machine.Epitaph

/-!
# Texts of traps stay readable

When a trap has stopped a robot's program, the robot's processor recalls it, whatever devices, transmissions,
other robots, players and the host do, until another program is loaded or the robot is pointed at one.
-/

namespace RobotArena

/-! ### What a robot recalls -/

namespace Entity

variable {e e' : Entity}

/-- The processor of an entity recalls the trap of another one's. -/
def Recalls (e e' : Entity) : Prop :=
  ∀ p, e.processor = some p → ∃ p', e'.processor = some p' ∧ p.Recalls p'

theorem Recalls.refl (e : Entity) : e.Recalls e :=
  fun p known => ⟨p, known, .refl p⟩

theorem Recalls.trans {e'' : Entity} (first : e.Recalls e') (second : e'.Recalls e'') : e.Recalls e'' := by
  intro p known
  obtain ⟨p', known', recalls⟩ := first p known
  obtain ⟨p'', known'', recalls'⟩ := second p' known'
  exact ⟨p'', known'', recalls.trans recalls'⟩

theorem crashFields_apart (kind : AttachmentKind) : ∀ f ∈ Layout.crashFields,
    ∀ g ∈ Layout.consoleFields ++ Layout.navigationFields ++ Layout.radarFields ++ Layout.attachmentFields kind,
      f.Apart g := by
  cases kind <;> decide

/-- No device writes where the text of a trap is kept. -/
theorem Served.recalls (served : e.Served (World.deviceFields e) e') : e.Recalls e' := by
  intro p known
  obtain ⟨p', known'⟩ := served.processor_some known
  have within := served.memory p p' known known'
  have fixture : e'.processor.map Processor.fixed = e.processor.map Processor.fixed :=
    congrArg Fixture.processor served.fixture
  rw [known, known', Option.map_some, Option.map_some] at fixture
  have fixed : p'.fixed = p.fixed := Option.some.inj fixture
  have signal : p'.fixed.signal = p.fixed.signal := congrArg Processor.signal fixed
  have context : p'.fixed.crashContext = p.fixed.crashContext := congrArg Processor.crashContext fixed
  refine ⟨p', known', signal, context, fun f member address has => ?_⟩
  exact within.kept (fun g inside => crashFields_apart _ f member g (World.deviceFields_subset e inside)) has

theorem recalls_bindSource (e : Entity) :
    e.Recalls { e with processor := e.processor.map Processor.bindSource } := by
  intro p known
  refine ⟨p.bindSource, by rw [known]; rfl, ?_⟩
  unfold Processor.bindSource
  split <;> exact ⟨rfl, rfl, fun _ _ _ _ => rfl⟩

/-- What an entity's program can reach of the arena when it is its turn. -/
def host (e : Entity) (clock : UInt64) (shared : Sketch × Panel) : Host :=
  ⟨e.id, e.team, e.pose, clock, shared.1, shared.2, e.pendrive⟩

theorem processor_runSlice (engine : Engine) (g : Registry) (clock : UInt64) (e : Entity)
    (shared : Sketch × Panel) {p : Processor} (known : e.processor = some p) :
    (e.runSlice engine g clock shared.1 shared.2).1 = some (engine.tick g p (some (e.host clock shared))).1 ∧
      (e.runSlice engine g clock shared.1 shared.2).2.1.processor =
        some (engine.tick g p (some (e.host clock shared))).2.1 := by
  obtain ⟨id, team, pose, health, drive, radar, attachment, processor, pendrive⟩ := e
  cases known
  unfold runSlice host
  dsimp only
  rcases engine.tick g p (some ⟨id, team, pose, clock, shared.1, shared.2, pendrive⟩) with ⟨outcome, p', host⟩
  cases host <;> exact ⟨rfl, rfl⟩

end Entity

namespace World

variable {w w' w'' : World} {id : EntityId}

/-- If the robot with a number is there afterwards, it was there before, and recalls its trap. -/
def Recalls (id : EntityId) (w w' : World) : Prop :=
  ∀ e', w'.find? id = some e' → ∃ e, w.find? id = some e ∧ e.Recalls e'

theorem Recalls.refl (id : EntityId) (w : World) : w.Recalls id w :=
  fun e there => ⟨e, there, .refl e⟩

theorem Recalls.trans (first : w.Recalls id w') (second : w'.Recalls id w'') : w.Recalls id w'' := by
  intro e'' there
  obtain ⟨e', there, recalls'⟩ := second e'' there
  obtain ⟨e, there, recalls⟩ := first e' there
  exact ⟨e, there, recalls.trans recalls'⟩

theorem recalls_of_mem (distinct : (w.entities.map (·.id)).Nodup)
    (each : ∀ e' ∈ w'.entities, e'.id = id → ∃ e ∈ w.entities, e.id = id ∧ e.Recalls e') :
    w.Recalls id w' := by
  intro e' there
  obtain ⟨member, named⟩ := mem_of_find? there
  obtain ⟨e, before, rfl, recalls⟩ := each e' member named
  exact ⟨e, find?_of_mem distinct before, recalls⟩

theorem recalls_of_subset (distinct : (w.entities.map (·.id)).Nodup) (kept : w'.entities ⊆ w.entities) :
    w.Recalls id w' :=
  recalls_of_mem distinct fun e' member named => ⟨e', kept member, named, .refl e'⟩

/-- A robot that is added gets a number that no robot had. -/
theorem recalls_spawn (distinct : (w.entities.map (·.id)).Nodup) (settings : Settings) (b : Blueprint)
    (known : id.number < w.nextId) : w.Recalls id (w.spawn settings b).2 := by
  refine recalls_of_mem distinct fun e' member named => ?_
  rcases List.mem_append.mp member with old | new
  · exact ⟨e', old, named, .refl e'⟩
  · rw [List.mem_singleton.mp new] at named
    rw [← named] at known
    exact absurd known (Nat.lt_irrefl _)

/-- A processor is replaced by one that recalls the same trap, or it is another robot's. -/
theorem recalls_modify (distinct : (w.entities.map (·.id)).Nodup) {other : EntityId} {e : Entity}
    {p q : Processor} (found : w.find? other = some e) (processor : e.processor = some p)
    (recalls : other = id → p.Recalls q) : w.Recalls id (w.modify other ({ · with processor := some q })) := by
  obtain ⟨there, rfl⟩ := mem_of_find? found
  refine recalls_of_mem distinct fun e' member named => ?_
  obtain ⟨x, before, rfl⟩ := List.mem_map.mp member
  by_cases same : x.id = e.id
  · obtain rfl := eq_of_id distinct there before same
    rw [if_pos rfl] at named ⊢
    refine ⟨x, before, named, fun p' known => ⟨q, rfl, ?_⟩⟩
    rw [processor] at known
    cases known
    exact recalls named
  · rw [if_neg same] at named ⊢
    exact ⟨x, before, named, .refl x⟩

/-! ### What a tick does -/

theorem recalls_bindAll (distinct : (w.entities.map (·.id)).Nodup) : w.Recalls id w.bindAll := by
  refine recalls_of_mem distinct fun e' member named => ?_
  obtain ⟨e, before, rfl⟩ := List.mem_map.mp member
  exact ⟨e, before, named, e.recalls_bindSource⟩

/-- Devices, transmissions and projectiles leave the text alone. -/
theorem recalls_outside (distinct : (w.entities.map (·.id)).Nodup) (settings : Settings)
    (technologies : List TechHash) :
    w.Recalls id (((w.runDevices settings technologies).deliver settings).2.integrate settings).2 := by
  refine recalls_of_mem distinct fun e' member named => ?_
  -- a hit takes health only; devices and transmissions write into fields of their own
  obtain ⟨delivered, there, health, rfl⟩ := mem_integrate settings member
  have serves := (serves_runDevices settings technologies distinct).trans
    (serves_deliver settings (w.runDevices settings technologies)) fun _ _ _ => rfl
  obtain ⟨e, before, served⟩ := serves.exists_before there
  rw [List.append_nil] at served
  exact ⟨e, before, served.id.symm.trans named, served.recalls⟩

section

variable (settings : EngineSettings) (g : Registry) (clock : UInt64)

/-- What came of a robot's turn is told once, under its number. -/
theorem Between.mem_outcomes_iff {before rest : List Entity} {e : Entity} (b : w.Between id before e rest)
    {o : TickOutcome} : (id, o) ∈ (w.runPrograms { settings } g clock).1 ↔
      (e.runSlice { settings } g clock (w.turn settings g clock id).1 (w.turn settings g clock id).2).1 = some o := by
  have silent := not_mem_outcomes { settings } g clock {} w.panel b.early
  rw [runPrograms_eq, b.split, runSlices_append, b.turn settings g clock]
  -- the turns before and after are of robots with other numbers
  generalize runSlices { settings } g clock before {} w.panel = first at silent ⊢
  obtain ⟨outcomes, entities, sketch, panel⟩ := first
  dsimp only at silent ⊢
  rw [runSlices_cons]
  generalize e.runSlice { settings } g clock sketch panel = done
  have later := not_mem_outcomes { settings } g clock done.2.2.1 done.2.2.2 b.late
  have others : ∀ os : List (EntityId × TickOutcome), id ∉ os.map (·.1) → (id, o) ∉ os :=
    fun os absent member => absent (List.mem_map_of_mem member)
  simp only [List.mem_append, others _ silent, others _ later, or_false, false_or, Option.mem_toList,
    Option.map_eq_some_iff, Prod.mk.injEq, b.same, true_and, exists_eq_right]

/-- A robot's turn is a tick of the engine. -/
theorem turn_is_tick (distinct : (w.entities.map (·.id)).Nodup) {e : Entity} {p : Processor}
    (found : w.find? id = some e) (known : e.processor = some p) :
    (∀ o, (id, o) ∈ (w.runPrograms { settings } g clock).1 ↔
      (Engine.tick { settings } g p (some (e.host clock (w.turn settings g clock id)))).1 = o) ∧
    ∃ e', (w.runPrograms { settings } g clock).2.find? id = some e' ∧ e'.processor =
      some (Engine.tick { settings } g p (some (e.host clock (w.turn settings g clock id)))).2.1 := by
  obtain ⟨before, rest, between⟩ := exists_between distinct found
  obtain ⟨outcome, processor⟩ := Entity.processor_runSlice { settings } g clock e (w.turn settings g clock id) known
  refine ⟨fun o => ?_, _, (between.runPrograms settings g clock).1, processor⟩
  rw [between.mem_outcomes_iff settings g clock, outcome, Option.some.injEq]

variable {settings g clock}

theorem exists_before_runPrograms (distinct : (w.entities.map (·.id)).Nodup) {e' : Entity}
    (there : (w.runPrograms { settings } g clock).2.find? id = some e') : ∃ e, w.find? id = some e := by
  have ids : (w.runPrograms { settings } g clock).2.entities.map (·.id) = w.entities.map (·.id) :=
    ids_runSlices _ _ _ _ _ _
  obtain ⟨member, named⟩ := mem_of_find? there
  obtain ⟨e, before, same⟩ := List.mem_map.mp (ids ▸ List.mem_map_of_mem member)
  rw [← named, ← same]
  exact ⟨e, find?_of_mem distinct before⟩

/-- A robot that a signal keeps still is not changed by its turn, unless another program is loaded. -/
theorem recalls_runPrograms (distinct : (w.entities.map (·.id)).Nodup)
    (still : ∀ e p, w.find? id = some e → e.processor = some p → p.signal ≠ .none)
    (stays : ∀ v, (id, .reloaded v) ∉ (w.runPrograms { settings } g clock).1) :
    w.Recalls id (w.runPrograms { settings } g clock).2 := by
  intro e' there
  obtain ⟨e, found⟩ := exists_before_runPrograms distinct there
  refine ⟨e, found, fun p known => ?_⟩
  obtain ⟨outcome, after, there', processor⟩ := turn_is_tick settings g clock distinct found known
  obtain rfl := Option.some.inj (there.symm.trans there')
  -- without a reload, the engine gives back the processor that it was given
  rw [Engine.tick_of_signal (still e p found known) fun v reloaded => stays v ((outcome _).mpr reloaded)] at processor
  exact ⟨p, processor, .refl p⟩

variable (settings g clock)

/-- The trap that a robot's program runs into when it is its turn. -/
def trap? (w : World) (id : EntityId) : Option (DebugInfo × Trap) := do
  let e ← w.find? id
  let p ← e.processor
  Engine.trap? { settings } g p (some (e.host clock (w.turn settings g clock id)))

variable {settings g clock}

theorem trap?_eq_some {debug : DebugInfo} {t : Trap} : w.trap? settings g clock id = some (debug, t) ↔
    ∃ e p, w.find? id = some e ∧ e.processor = some p ∧
      Engine.trap? { settings } g p (some (e.host clock (w.turn settings g clock id))) = some (debug, t) := by
  simp only [trap?, Option.bind_eq_bind, Option.bind_eq_some_iff]
  constructor
  · rintro ⟨e, found, p, known, trapped⟩
    exact ⟨e, p, found, known, trapped⟩
  · rintro ⟨e, p, found, known, trapped⟩
    exact ⟨e, found, p, known, trapped⟩

end

/-! ### What a robot reports -/

/-- If the robot with a number is there, its processor reports a trap. -/
def Reports (id : EntityId) (debug : DebugInfo) (t : Trap) (w : World) : Prop :=
  ∀ e, w.find? id = some e → ∃ p, e.processor = some p ∧ p.Reports debug t

section

variable {debug : DebugInfo} {t : Trap}

theorem Reports.recalls (h : w.Reports id debug t) (recalls : w.Recalls id w') : w'.Reports id debug t := by
  intro e' there'
  obtain ⟨e, there, recalls⟩ := recalls e' there'
  obtain ⟨p, known, reports⟩ := h e there
  obtain ⟨p', known', recalls⟩ := recalls p known
  exact ⟨p', known', reports.recalls recalls⟩

theorem Reports.still (h : w.Reports id debug t) {e : Entity} {p : Processor} (there : w.find? id = some e)
    (known : e.processor = some p) : p.signal ≠ .none := by
  obtain ⟨p', known', reports⟩ := h e there
  cases known.symm.trans known'
  rw [reports.signal]
  exact Processor.signal_ne_none t

theorem reports_of_trap {settings : EngineSettings} {g : Registry} {clock : UInt64}
    (distinct : (w.entities.map (·.id)).Nodup) (trapped : w.trap? settings g clock id = some (debug, t))
    (crash : ¬(t.signal = .halt ∨ t.signal = .userCrash)) :
    (w.runPrograms { settings } g clock).2.Reports id debug t := by
  obtain ⟨e, p, found, known, trapped⟩ := trap?_eq_some.mp trapped
  obtain ⟨_, e', there', processor⟩ := turn_is_tick settings g clock distinct found known
  intro x there
  obtain rfl := Option.some.inj (there.symm.trans there')
  exact ⟨_, processor, Engine.reports_of_trap trapped crash⟩

end

/-- A number that has been given out stays so. -/
theorem Touched.given {settings : Settings} {put : EntityId → List UInt32} (touched : w.Touched settings w' put)
    (given : id.number < w.nextId) : id.number < w'.nextId := by
  cases touched with
  | spawn b left => exact Nat.lt_trans given (lt_succ left)
  | same | despawn _ | deposit _ | processor _ _ _ _ _ _ => exact given

end World

/-! ### Arenas -/

namespace Arena

variable {σ : Type} {a : Arena} {id : EntityId}

/-- The trap that a robot's program runs into in a tick. -/
def trap? (a : Arena) (dispatcher : Dispatcher σ) (env : σ) (now : Nat) (id : EntityId) : Option (DebugInfo × Trap) :=
  a.world.bindAll.trap? a.engine.settings (a.readied dispatcher env now) (UInt64.ofNat (now / 1000)) id

/-- An event points a robot at a program, or loads a program. -/
def Restarts (a : Arena) (id : EntityId) : Season.Event σ → Prop
  | .deed (.setProgram other _) => other = id
  | .deed _ => False
  | .tick dispatcher env now => ∃ version, (id, version) ∈ (a.tick dispatcher env now).1.reloads

/-- None of some events points a robot at a program or loads one. -/
def Spared (a : Arena) (id : EntityId) : List (Season.Event σ) → Prop
  | [] => True
  | event :: later => ¬a.Restarts id event ∧ (a.follow event).Spared id later

theorem recalls_putInQueue (orderly : a.world.Orderly) {other : EntityId} {queue : HostQueue}
    {change : Queues → Option Queues} :
    a.world.Recalls id ((a.putInQueue other queue change).toOption.getD a).world := by
  refine of_outcome (P := fun b => a.world.Recalls id b.world) (.refl id a.world) fun b outcome => ?_
  obtain ⟨p, queues, known, _, rfl⟩ := putInQueue_eq_ok outcome
  obtain ⟨e, found, processor⟩ := processor_eq_ok known
  exact World.recalls_modify orderly.distinct found processor fun _ => ⟨rfl, rfl, fun _ _ _ _ => rfl⟩

/-- What a host and its players do leaves the text of a trap alone, unless they point the robot at a program. -/
theorem recalls_perform (orderly : a.world.Orderly) (d : Deed) (known : id.number < a.world.nextId)
    (spared : ¬a.Restarts id (.deed d : Season.Event σ)) : a.world.Recalls id (a.perform d).world := by
  cases d with
  | spawn b => exact World.recalls_spawn orderly.distinct a.settings b known
  | despawn other =>
    refine of_answer (P := fun b => a.world.Recalls id b.world) (.refl id a.world) fun x outcome => ?_
    unfold despawn at outcome
    split at outcome
    · cases outcome
      exact World.recalls_of_subset orderly.distinct List.filter_sublist.subset
    · cases outcome
  | setProgram other source =>
    refine of_outcome (P := fun b => a.world.Recalls id b.world) (.refl id a.world) fun b outcome => ?_
    obtain ⟨p, read, rfl⟩ := setProgram_eq_ok outcome
    obtain ⟨e, found, processor⟩ := processor_eq_ok read
    exact World.recalls_modify orderly.distinct found processor fun same => absurd same spared
  | sourceChanged source now =>
    refine of_answer (P := fun b => a.world.Recalls id b.world) (.refl id a.world) fun x outcome => ?_
    unfold sourceChanged at outcome
    cases invalidated : a.scheduler.invalidate source now with
    | error _ =>
      rw [invalidated] at outcome
      cases outcome
    | ok answer =>
      rw [invalidated] at outcome
      cases outcome
      exact .refl id a.world
  | command _ _ | line _ _ => exact recalls_putInQueue orderly
  | click element =>
    show a.world.Recalls id ((a.click element).toOption.getD a).world
    unfold click
    split
    · exact .refl id a.world
    · exact recalls_putInQueue orderly
  | deposit d => exact World.recalls_of_subset orderly.distinct fun _ member => member
  | hold source =>
    show a.world.Recalls id (a.hold source).world
    unfold hold
    split <;> exact .refl id a.world
  | fetch | ensure _ _ | publish _ _ _ | release _ | receive _ => exact .refl id a.world

/-! ### What a tick of an arena does -/

section

variable (a : Arena) (dispatcher : Dispatcher σ) (env : σ) (now : Nat)

theorem mem_reloads_iff {version : Nat} : (id, version) ∈ (a.tick dispatcher env now).1.reloads ↔
    (id, .reloaded version) ∈ (a.turns dispatcher env now).1 := by
  have told : (a.tick dispatcher env now).1.reloads =
      (a.turns dispatcher env now).1.filterMap fun x => x.2.reload?.map (x.1, ·) := by
    unfold tick
    rfl
  rw [told, List.mem_filterMap]
  constructor
  · rintro ⟨⟨other, o⟩, member, read⟩
    cases o <;> simp [TickOutcome.reload?] at read
    obtain ⟨rfl, rfl⟩ := read
    exact member
  · intro member
    exact ⟨_, member, rfl⟩

end

section

variable {dispatcher : Dispatcher σ} {env : σ} {now : Nat} {debug : DebugInfo} {t : Trap}

theorem reports_after (sound : a.Sound) (ran : (a.turns dispatcher env now).2.Reports id debug t) :
    (a.after dispatcher env now).world.Reports id debug t := by
  rw [world_tick]
  refine ran.recalls (World.recalls_outside ?_ a.settings a.technologies)
  have ids : (a.turns dispatcher env now).2.entities.map (·.id) = a.world.bindAll.entities.map (·.id) :=
    World.ids_runSlices _ _ _ _ _ _
  rw [ids]
  exact sound.bound

theorem reports_of_trap (sound : a.Sound) (trapped : a.trap? dispatcher env now id = some (debug, t))
    (crash : ¬(t.signal = .halt ∨ t.signal = .userCrash)) :
    (a.after dispatcher env now).world.Reports id debug t := by
  refine reports_after sound ?_
  rw [turns_eq sound.standard]
  exact World.reports_of_trap sound.bound trapped crash

theorem reports_tick (sound : a.Sound) (reports : a.world.Reports id debug t)
    (spared : ¬a.Restarts id (.tick dispatcher env now)) :
    (a.after dispatcher env now).world.Reports id debug t := by
  have before := reports.recalls (World.recalls_bindAll sound.orderly.distinct)
  refine reports_after sound (before.recalls ?_)
  rw [turns_eq sound.standard]
  refine World.recalls_runPrograms sound.bound (fun e p there known => before.still there known) fun v reloaded => ?_
  rw [← turns_eq sound.standard] at reloaded
  exact spared ⟨v, (a.mem_reloads_iff dispatcher env now).mpr reloaded⟩

end

/-! ### Runs -/

/-- A robot that was there, and its number with it, reports a trap. -/
structure Remembers (id : EntityId) (debug : DebugInfo) (t : Trap) (a : Arena) : Prop where
  sound : a.Sound
  given : id.number < a.world.nextId
  reports : a.world.Reports id debug t

variable {debug : DebugInfo} {t : Trap}

theorem Remembers.follow (h : Remembers id debug t a) (event : Season.Event σ) (spared : ¬a.Restarts id event) :
    Remembers id debug t (a.follow event) := by
  refine ⟨h.sound.follow event, ?_, ?_⟩
  · cases event with
    | deed d =>
      rw [follow_deed]
      split
      · exact h.given
      · rename_i fits
        exact (a.done_perform d (Bool.eq_false_iff.mpr fits)).world.given h.given
    | tick dispatcher env now =>
      rw [follow_tick, nextId_after]
      exact h.given
  · cases event with
    | deed d =>
      rw [follow_deed]
      split
      · exact h.reports
      · exact h.reports.recalls (recalls_perform h.sound.orderly d h.given spared)
    | tick dispatcher env now =>
      rw [follow_tick]
      exact reports_tick h.sound h.reports spared

theorem Remembers.run (h : Remembers id debug t a) (later : List (Season.Event σ)) (spared : a.Spared id later) :
    Remembers id debug t (a.run later) := by
  induction later generalizing a with
  | nil => exact h
  | cons event later ih =>
    obtain ⟨first, others⟩ := spared
    exact ih (h.follow event first) others

/-- A program that divides by zero in the second line of its file. -/
def divider : Program where
  code := Slice.quotient
  debug := { files := ["main.asm"], origins := #[⟨0, 0⟩, ⟨0, 1⟩] }

/-- A robot that is loaded with the program. -/
def dividing : Entity :=
  { Entity.build {} ⟨1⟩ { team := ⟨1⟩ } with
    processor := some { Processor.create .none {} (some (.ofPath "main.asm")) with
      binding := some (.ofPath "main.asm"), version := 1 } }

/-- An arena with the robot. -/
def workshop : Arena :=
  { Arena.create {} with
    world := { entities := [dividing], nextId := 2 }
    scheduler := { registry := ({} : Registry).publish (.ofPath "main.asm") divider 0 } }

end Arena

end RobotArena
