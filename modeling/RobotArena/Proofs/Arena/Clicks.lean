import RobotArena.Proofs.Arena.Course
import RobotArena.Proofs.World.Owners

/-!
# Clicks reach their owners

A ledger goes with an arena and notes, for each robot, the clicks that were put in its queue because it owned
the element, and those that its program has taken out. Every element has an owner that can be told of a click,
and whatever happens, the programs take the clicks that they were told of, in their order.
-/

namespace RobotArena

namespace World

/-! ### Clicks that were put in queues and taken out -/

/-- What was put in a robot's queue was taken out or still waits there, in the same order. -/
structure Balanced (w : World) (clicked polled : EntityId → List UInt32) : Prop where
  waiting : ∀ e ∈ w.entities, clicked e.id = polled e.id ++ e.clicks
  taken : ∀ id, polled id <+: clicked id
  fresh : ∀ id : EntityId, w.nextId ≤ id.number → clicked id = [] ∧ polled id = []

variable {w w' : World} {clicked polled put got : EntityId → List UInt32} {settings : Settings}

/-- Robots that are there afterwards were there before, and what they are told and take explains what waits
for them then. -/
theorem Balanced.follow (h : w.Balanced clicked polled) (orderly : w.Orderly) (next : w'.nextId = w.nextId)
    (known : ∀ e' ∈ w'.entities, ∃ e ∈ w.entities, e.id = e'.id ∧
      e.clicks ++ put e.id = got e.id ++ e'.clicks)
    (there : ∀ e ∈ w.entities, got e.id <+: e.clicks ++ put e.id)
    (absent : ∀ id ∉ w.entities.map (·.id), put id = [] ∧ got id = []) :
    w'.Balanced (fun id => clicked id ++ put id) (fun id => polled id ++ got id) := by
  refine ⟨fun e' member => ?_, fun id => ?_, fun id new => ?_⟩
  · obtain ⟨e, before, same, clicks⟩ := known e' member
    rw [← same, h.waiting e before, List.append_assoc, clicks, List.append_assoc]
  · -- a robot that is gone afterwards has still taken its clicks from the front of those that waited
    by_cases member : id ∈ w.entities.map (·.id)
    · obtain ⟨e, before, rfl⟩ := List.mem_map.mp member
      rw [h.waiting e before, List.append_assoc]
      exact (List.prefix_append_right_inj _).mpr (there e before)
    · obtain ⟨nothing, nothing'⟩ := absent id member
      rw [nothing, nothing', List.append_nil, List.append_nil]
      exact h.taken id
  · rw [next] at new
    obtain ⟨nothing, nothing'⟩ := absent id (orderly.absent_of_new new)
    obtain ⟨before, before'⟩ := h.fresh id new
    rw [nothing, nothing', before, before']
    exact ⟨rfl, rfl⟩

theorem Balanced.spawn (h : w.Balanced clicked polled) (b : Blueprint) (left : w.nextId + 1 ≠ 0) :
    (w.spawn settings b).2.Balanced clicked polled := by
  have later : ∀ id : EntityId, w.nextId + 1 ≤ id.number → w.nextId ≤ id.number :=
    fun id new => Nat.le_trans (Nat.le_of_lt (lt_succ left)) new
  refine ⟨fun e member => ?_, h.taken, fun id new => h.fresh id (later id new)⟩
  rcases List.mem_append.mp member with old | new
  · exact h.waiting e old
  · obtain rfl := List.mem_singleton.mp new
    have empty : (Entity.build settings ⟨w.nextId⟩ b).clicks = [] := by
      unfold Entity.build Entity.clicks
      cases b.passive <;> rfl
    obtain ⟨before, before'⟩ := h.fresh ⟨w.nextId⟩ (Nat.le_refl _)
    rw [empty]
    show clicked ⟨w.nextId⟩ = polled ⟨w.nextId⟩ ++ []
    rw [before, before']
    rfl

/-! ### What a deed does -/

/-- What a deed can do to the world, and the clicks that it puts in queues. -/
inductive Touched (settings : Settings) (w : World) : World → (EntityId → List UInt32) → Prop where
  | same : Touched settings w w fun _ => []
  | spawn (b : Blueprint) (left : w.nextId + 1 ≠ 0) : Touched settings w (w.spawn settings b).2 fun _ => []
  | despawn (id : EntityId) : Touched settings w (w.despawn id) fun _ => []
  | deposit (d : Deposit) : Touched settings w (w.addDeposit d) fun _ => []
  | processor {id : EntityId} {e : Entity} {p q : Processor} {put : EntityId → List UInt32}
      (found : w.find? id = some e) (processor : e.processor = some p)
      (inbound : q.queues.inbound = p.queues.inbound) (outbound : q.queues.outbound = p.queues.outbound)
      (clicks : q.queues.uiEvents.items = p.queues.uiEvents.items ++ put id)
      (others : ∀ other, other ≠ id → put other = []) :
      Touched settings w (w.modify id ({ · with processor := some q })) put

theorem Touched.exists_course (touched : w.Touched settings w' put) (orderly : w.Orderly)
    (technologies : List TechHash) : ∃ events, w' = w.course settings technologies events := by
  cases touched with
  | same => exact ⟨[], rfl⟩
  | spawn b left => exact ⟨[.spawn b], (happen_spawn settings technologies left b).symm⟩
  | despawn id => exact ⟨[.despawn id], rfl⟩
  | deposit d => exact ⟨[.deposit d], rfl⟩
  | @processor id e p q _ found processor inbound outbound =>
    refine ⟨[.tend fun x p => if x = id then q else p], ?_⟩
    exact modify_eq_tend settings technologies orderly found processor inbound outbound

theorem Balanced.touched (h : w.Balanced clicked polled) (orderly : w.Orderly)
    (touched : w.Touched settings w' put) : w'.Balanced (fun id => clicked id ++ put id) polled := by
  have none : ∀ history : EntityId → List UInt32, (fun id => history id ++ []) = history :=
    fun history => funext fun id => List.append_nil _
  have untouched : ∀ {w' : World}, w'.entities.Sublist w.entities → w'.nextId = w.nextId →
      w'.Balanced (fun id => clicked id ++ []) polled := by
    intro w' kept next
    rw [none]
    refine ⟨fun e there => h.waiting e (kept.subset there), h.taken, fun id new => h.fresh id ?_⟩
    rwa [← next]
  cases touched with
  | same => exact untouched (.refl _) rfl
  | spawn b left =>
    rw [none]
    exact h.spawn b left
  | despawn id => exact untouched List.filter_sublist rfl
  | deposit d => exact untouched (.refl _) rfl
  | @processor id e p q _ found processor _ _ clicks others =>
    rw [← none polled]
    obtain ⟨there, named⟩ := mem_of_find? found
    refine h.follow orderly rfl (fun e' member => ?_) (fun _ _ => List.nil_prefix) fun other absent => ?_
    · obtain ⟨x, before, rfl⟩ := List.mem_map.mp member
      refine ⟨x, before, ?_⟩
      by_cases same : x.id = id
      · obtain rfl := eq_of_id orderly.distinct there before (same.trans named.symm)
        rw [if_pos same, same]
        refine ⟨rfl, ?_⟩
        unfold Entity.clicks
        rw [processor]
        exact clicks.symm
      · rw [if_neg same, others x.id same]
        exact ⟨rfl, List.append_nil _⟩
    · refine ⟨others other fun same => absent ?_, rfl⟩
      rw [same, ← named]
      exact List.mem_map_of_mem there

/-! ### What a tick does -/

theorem clicks_bindSource (e : Entity) :
    Entity.clicks { e with processor := e.processor.map Processor.bindSource } = e.clicks := by
  have kept : ∀ p : Processor, p.bindSource.queues = p.queues := by
    intro p
    unfold Processor.bindSource
    split <;> rfl
  unfold Entity.clicks
  cases e.processor with
  | none => rfl
  | some p => exact congrArg (·.uiEvents.items) (kept p)

theorem ids_bindAll (w : World) : w.bindAll.entities.map (·.id) = w.entities.map (·.id) := by
  have same : ∀ e : Entity, Entity.id { e with processor := e.processor.map Processor.bindSource } = e.id :=
    fun _ => rfl
  exact view_mapEntities same w

theorem course_tick (w : World) (settings : Settings) (technologies : List TechHash) (engine : EngineSettings)
    (g : Registry) (clock : UInt64) :
    w.course settings technologies (Arena.eventsOfTick engine g clock) =
      ((((w.bindAll.runPrograms { settings := engine } g clock).2.runDevices settings technologies).deliver
        settings).2.integrate settings).2 := by
  rw [bindAll_eq settings technologies]
  rfl

/-- A robot that is there after a tick was there before, and has taken the first of its clicks. -/
theorem clicks_tick (orderly : w.Orderly) (settings : Settings) (technologies : List TechHash)
    (engine : EngineSettings) (g : Registry) (clock : UInt64) {e' : Entity}
    (there : e' ∈ (w.course settings technologies (Arena.eventsOfTick engine g clock)).entities) :
    ∃ e ∈ w.entities, e.id = e'.id ∧ e.clicks = w.bindAll.pollsOf engine g clock e.id ++ e'.clicks := by
  rw [course_tick] at there
  have bound : w.bindAll.Orderly := orderly.of_same (ids_bindAll w) rfl
  have ran : (w.bindAll.runPrograms { settings := engine } g clock).2.Orderly :=
    bound.happen settings technologies (.programs engine g clock)
  obtain ⟨sliced, there, kept, waiting⟩ := clicks_outside ran settings technologies there
  obtain ⟨_, there, same, clicks⟩ := clicks_runPrograms bound engine g clock there
  obtain ⟨e, before, rfl⟩ := List.mem_map.mp there
  rw [clicks_bindSource, waiting] at clicks
  exact ⟨e, before, same.trans kept, clicks⟩

theorem Balanced.tick (h : w.Balanced clicked polled) (orderly : w.Orderly) (settings : Settings)
    (technologies : List TechHash) (engine : EngineSettings) (g : Registry) (clock : UInt64) :
    (w.course settings technologies (Arena.eventsOfTick engine g clock)).Balanced clicked
      (fun id => polled id ++ w.bindAll.pollsOf engine g clock id) := by
  have none : (fun id => clicked id ++ []) = clicked := funext fun id => List.append_nil _
  have bound : w.bindAll.Orderly := orderly.of_same (ids_bindAll w) rfl
  rw [← none]
  refine h.follow orderly ?_ (fun e' there => ?_) (fun e there => ?_) fun id absent => ?_
  · rw [course_tick, nextId_integrate, nextId_deliver, nextId_runDevices]
    rfl
  · obtain ⟨e, before, same, clicks⟩ := clicks_tick orderly settings technologies engine g clock there
    exact ⟨e, before, same, by rw [List.append_nil, clicks]⟩
  · have taken := pollsOf_prefix bound engine g clock (List.mem_map_of_mem there)
    rw [clicks_bindSource] at taken
    rw [List.append_nil]
    exact taken
  · exact ⟨rfl, pollsOf_absent engine g clock (ids_bindAll w ▸ absent)⟩

end World

namespace Arena

variable {a b : Arena} {put : EntityId → List UInt32}

/-- What a click on an element puts in queues: its number in its owner's, unless the click is refused. -/
def clickedOn (a : Arena) (element : UInt32) : EntityId → List UInt32 :=
  match a.world.panel.find? element, a.click element with
  | some x, .ok _ => fun id => if id = x.owner then [element] else []
  | _, _ => fun _ => []

/-- The clicks that a deed puts in queues. -/
def clicked (a : Arena) : Deed → EntityId → List UInt32
  | .click element => a.clickedOn element
  | _ => fun _ => []

/-- Whether a deed asks for a robot when the last number has been given out. -/
def isOverdue (a : Arena) : Deed → Bool
  | .spawn _ => a.world.nextId + 1 = 0
  | _ => false

/-- A deed has changed the world at most, and has put some clicks in queues. -/
structure Done (a b : Arena) (put : EntityId → List UInt32) : Prop where
  settings : b.settings = a.settings
  technologies : b.technologies = a.technologies
  engine : b.engine = a.engine
  world : a.world.Touched a.settings b.world put

theorem Done.nothing (a : Arena) : a.Done a fun _ => [] :=
  ⟨rfl, rfl, rfl, .same⟩

theorem Done.setProcessor {id : EntityId} {p q : Processor} (known : a.processor id = .ok p)
    (inbound : q.queues.inbound = p.queues.inbound) (outbound : q.queues.outbound = p.queues.outbound)
    (clicks : q.queues.uiEvents.items = p.queues.uiEvents.items ++ put id)
    (others : ∀ other, other ≠ id → put other = []) : a.Done (a.setProcessor id q) put := by
  obtain ⟨e, found, processor⟩ := processor_eq_ok known
  exact ⟨rfl, rfl, rfl, .processor found processor inbound outbound clicks others⟩

theorem done_click (a : Arena) (element : UInt32) :
    a.Done ((a.click element).toOption.getD a) (a.clickedOn element) := by
  unfold clickedOn
  cases found : a.world.panel.find? element with
  | none =>
    have refused : a.click element = .error (.unknownElement element) := by rw [click, found]
    rw [refused]
    exact .nothing a
  | some x =>
    cases outcome : a.click element with
    | error _ => exact .nothing a
    | ok b =>
      have put := outcome
      rw [click, found] at put
      obtain ⟨p, queues, known, changed, rfl⟩ := putInQueue_eq_ok put
      obtain ⟨uiEvents, pushed, rfl⟩ := Option.map_eq_some_iff.mp changed
      refine .setProcessor known rfl rfl ?_ fun other apart => if_neg apart
      show uiEvents.items = _ ++ if x.owner = x.owner then [element] else []
      rw [if_pos rfl]
      exact Queue.items_push? pushed

theorem done_putInQueue {id : EntityId} {queue : HostQueue} {change : Queues → Option Queues}
    (apart : ∀ q q', change q = some q' →
      q'.inbound = q.inbound ∧ q'.outbound = q.outbound ∧ q'.uiEvents = q.uiEvents) :
    a.Done ((a.putInQueue id queue change).toOption.getD a) fun _ => [] := by
  refine of_outcome (P := (a.Done · _)) (.nothing a) fun b outcome => ?_
  obtain ⟨p, queues, known, changed, rfl⟩ := putInQueue_eq_ok outcome
  obtain ⟨inbound, outbound, clicks⟩ := apart p.queues queues changed
  refine .setProcessor known inbound outbound ?_ fun _ _ => rfl
  rw [clicks, List.append_nil]

theorem done_perform (a : Arena) (d : Deed) (fits : a.isOverdue d = false) :
    a.Done (a.perform d) (a.clicked d) := by
  cases d with
  | spawn b => exact ⟨rfl, rfl, rfl, .spawn b (of_decide_eq_false fits)⟩
  | despawn id =>
    refine of_answer (P := (a.Done · _)) (.nothing a) fun x outcome => ?_
    unfold despawn at outcome
    split at outcome
    · cases outcome
      exact ⟨rfl, rfl, rfl, .despawn id⟩
    · cases outcome
  | setProgram id source =>
    refine of_outcome (P := (a.Done · _)) (.nothing a) fun b outcome => ?_
    obtain ⟨p, known, rfl⟩ := setProgram_eq_ok outcome
    exact .setProcessor known rfl rfl (List.append_nil _).symm fun _ _ => rfl
  | sourceChanged source now =>
    refine of_answer (P := (a.Done · _)) (.nothing a) fun x outcome => ?_
    unfold sourceChanged at outcome
    cases invalidated : a.scheduler.invalidate source now with
    | error _ =>
      rw [invalidated] at outcome
      cases outcome
    | ok answer =>
      rw [invalidated] at outcome
      cases outcome
      exact ⟨rfl, rfl, rfl, .same⟩
  | command id command =>
    refine done_putInQueue fun q q' changed => ?_
    obtain ⟨_, _, rfl⟩ := Option.map_eq_some_iff.mp changed
    exact ⟨rfl, rfl, rfl⟩
  | line id line =>
    refine done_putInQueue fun q q' changed => ?_
    obtain ⟨_, _, rfl⟩ := Option.map_eq_some_iff.mp changed
    exact ⟨rfl, rfl, rfl⟩
  | click element => exact done_click a element
  | deposit d => exact ⟨rfl, rfl, rfl, .deposit d⟩
  | hold source =>
    show a.Done (a.hold source) _
    unfold hold
    split
    · exact ⟨rfl, rfl, rfl, .same⟩
    · exact .nothing a
  | fetch | ensure _ _ | publish _ _ _ | release _ | receive _ => exact ⟨rfl, rfl, rfl, .same⟩

/-- The clicks that a robot's program takes in a tick. -/
def polled {σ : Type} (a : Arena) (dispatcher : Dispatcher σ) (env : σ) (now : Nat) (id : EntityId) :
    List UInt32 :=
  a.world.bindAll.pollsOf a.engine.settings (a.readied dispatcher env now) (UInt64.ofNat (now / 1000)) id

end Arena

/-! ### Ledgers -/

/-- An arena, and for each robot that was ever there the clicks that were put in its queue and those that its
program has taken out. Nothing in the arena depends on them. -/
structure Ledger where
  arena : Arena
  clicked : EntityId → List UInt32 := fun _ => []
  polled : EntityId → List UInt32 := fun _ => []

namespace Ledger

variable {σ : Type}

/-- The ledger after an event. An arena ends where it would have to give out the last number for robots: it adds
none there, and neither does an event. -/
def step (l : Ledger) : Season.Event σ → Ledger
  | .deed d =>
    if l.arena.isOverdue d then l
    else
      { l with
        arena := l.arena.perform d
        clicked := fun id => l.clicked id ++ l.arena.clicked d id }
  | .tick dispatcher env now =>
    { l with
      arena := l.arena.after dispatcher env now
      polled := fun id => l.polled id ++ l.arena.polled dispatcher env now id }

/-- The ledger of some events. -/
def run (l : Ledger) (events : List (Season.Event σ)) : Ledger :=
  events.foldl step l

/-- The world of the arena is one that a course leads to, and the clicks balance. -/
structure Kept (l : Ledger) : Prop where
  course : ∃ n, l.arena.OnCourse n
  balanced : l.arena.world.Balanced l.clicked l.polled

namespace Kept

variable {l : Ledger}

theorem new (settings : Settings) : Kept { arena := .create settings } where
  course := ⟨0, .new settings⟩
  balanced := ⟨fun _ none => absurd none List.not_mem_nil, fun _ => List.prefix_refl _, fun _ _ => ⟨rfl, rfl⟩⟩

theorem deed (h : l.Kept) (d : Arena.Deed) : (l.step (.deed d : Season.Event σ)).Kept := by
  obtain ⟨n, course⟩ := h.course
  unfold step
  dsimp only
  split
  · exact h
  · rename_i fits
    obtain ⟨settings, technologies, engine, touched⟩ := l.arena.done_perform d (Bool.eq_false_iff.mpr fits)
    obtain ⟨events, world⟩ := touched.exists_course course.orderly l.arena.technologies
    have balanced := h.balanced.touched course.orderly touched
    exact ⟨⟨_, course.follow events settings technologies engine world⟩, balanced⟩

theorem tick (h : l.Kept) (dispatcher : Dispatcher σ) (env : σ) (now : Nat) :
    (l.step (.tick dispatcher env now)).Kept := by
  obtain ⟨n, course⟩ := h.course
  have ticked := h.balanced.tick course.orderly l.arena.settings l.arena.technologies l.arena.engine.settings
    (l.arena.readied dispatcher env now) (UInt64.ofNat (now / 1000))
  rw [← Arena.world_after course.standard] at ticked
  -- the arena of the ledger is reduced before it is compared, or else the whole tick is unfolded
  unfold step Arena.polled
  constructor
  · dsimp only
    exact ⟨n, course.tick dispatcher env now⟩
  · dsimp only
    exact ticked

theorem step (h : l.Kept) (event : Season.Event σ) : (l.step event).Kept := by
  cases event with
  | deed d => exact h.deed d
  | tick dispatcher env now => exact h.tick dispatcher env now

theorem run (h : l.Kept) (events : List (Season.Event σ)) : (l.run events).Kept := by
  induction events generalizing l with
  | nil => exact h
  | cons event later ih => exact ih (h.step event)

theorem owned (h : l.Kept) : l.arena.world.Owned := by
  obtain ⟨_, _, events, _, world⟩ := h.course
  rw [world]
  exact World.owned_course _ _ ⟨.nil, fun _ none => absurd none List.not_mem_nil⟩
    (fun _ none => absurd none List.not_mem_nil) events

theorem orderly (h : l.Kept) : l.arena.world.Orderly :=
  h.course.elim fun _ course => course.orderly

end Kept

/-- Whatever happens in an arena, every element on the panel belongs to a robot that is there, has a
processor and is of the element's team, so that a click on it is refused only if that robot's queue is full.
The programs of a robot take the clicks on its elements in their order, and those that have not been taken wait
as long as the robot is there. A program that takes a click gets the number of the element. A run adds no robot
with the last number, where an arena ends. -/
theorem clicks_reach_owners (settings : Settings) (events : List (Season.Event σ)) :
    let l := run { arena := .create settings } events
    (∀ x ∈ l.arena.world.panel.elements, ∃ e p, l.arena.world.find? x.2.owner = some e ∧
      e.team = x.2.team ∧ e.processor = some p) ∧
    (∀ element x, l.arena.world.panel.find? element = some x → ∃ p, l.arena.processor x.owner = .ok p ∧
      l.arena.click element =
        if p.queues.uiEvents.items.length < p.queues.uiEvents.capacity then
          .ok (l.arena.setProcessor x.owner { p with queues := { p.queues with
            uiEvents := { p.queues.uiEvents with items := p.queues.uiEvents.items ++ [element] } } })
        else .error (.queueFull x.owner .uiEvents)) ∧
    (∀ e ∈ l.arena.world.entities, l.clicked e.id = l.polled e.id ++ e.clicks) ∧
    (∀ id, l.polled id <+: l.clicked id) ∧
    ∀ i s element, MachineState.polled? i s = some element →
      (s.step .standard i).1.registers.get 0 = element ∧
        s.context.queues.uiEvents.items = element :: (s.step .standard i).1.context.queues.uiEvents.items := by
  intro l
  have kept : l.Kept := (Kept.new settings).run events
  have owner : ∀ x ∈ l.arena.world.panel.elements, ∃ e p, l.arena.world.find? x.2.owner = some e ∧
      e.team = x.2.team ∧ e.processor = some p := by
    intro x up
    obtain ⟨e, there, p, processor, same, team⟩ := kept.owned.exists_owner up
    refine ⟨e, p, ?_, team, processor⟩
    rw [← same]
    exact World.find?_of_mem kept.orderly.distinct there
  obtain ⟨waiting, taken, _⟩ := kept.balanced
  refine ⟨owner, fun element x found => ?_, waiting, taken, fun i s element polled => ?_⟩
  · obtain ⟨e, p, there, _, processor⟩ := owner (element, x) (Panel.mem_of_find? found)
    have known : l.arena.processor x.owner = .ok p := by
      rw [Arena.processor, there]
      dsimp only
      rw [processor]
    refine ⟨p, known, ?_⟩
    rw [Arena.click, found]
    dsimp only
    rw [Arena.putInQueue_eq known, Queue.push?]
    by_cases room : p.queues.uiEvents.items.length < p.queues.uiEvents.capacity
    · rw [if_pos room, if_pos room]
      rfl
    · rw [if_neg room, if_neg room]
      rfl
  · have taken := (s.step_polls i).clicks
    rw [polled] at taken
    exact ⟨MachineState.register_of_polled? polled, taken⟩

end Ledger

end RobotArena
