import RobotArena.Proofs.Machine.Loading
import RobotArena.Proofs.Machine.Talk
import RobotArena.Proofs.World.Course

/-!
# Delivery of transmissions

A delivery takes everything that has been sent, by sender and then in the order of sending, and appends to
each inbound queue as much of what is meant for it as there is room for. A history follows what is sent,
what is due, what arrives and what is heard over a whole course of a world.
-/

namespace RobotArena

namespace Entity

variable {settings : Settings} {t : Transmission} {e : Entity}

/-- The messages in the entity's inbound queue, oldest first. -/
def inbox (e : Entity) : List Transmission :=
  match e.processor with
  | some p => p.queues.inbound.items
  | none => []

/-- How many messages the inbound queue has room for. -/
def free (e : Entity) : Nat :=
  match e.processor with
  | some p => p.queues.inbound.capacity - p.queues.inbound.items.length
  | none => 0

/-- What of some transmissions is meant for an entity and heard by it: what others have sent to its team, and
what reaches it. -/
def due (settings : Settings) (pending : List Transmission) (e : Entity) : List Transmission :=
  pending.filter fun t =>
    e.id ≠ t.sender ∧ e.team = t.team ∧ t.reaches e.position settings.transmissionRange = true

/-- Appends messages to the inbound queue. -/
def hear (ts : List Transmission) (e : Entity) : Entity :=
  { e with processor := e.processor.map fun p =>
      { p with queues := { p.queues with
          inbound := { p.queues.inbound with items := p.queues.inbound.items ++ ts } } } }

/-- The entity after a delivery: nothing is left to send, and as much of what is due as there is room for
stands behind the messages that were there. -/
def served (settings : Settings) (pending : List Transmission) (e : Entity) : Entity :=
  e.clearSent.hear ((e.due settings pending).take e.free)

/-- The entity after a transmission is offered to it. -/
def offer (settings : Settings) (t : Transmission) (e : Entity) : Entity :=
  if e.hears settings t && 0 < e.free then e.hear [t] else e

theorem hear_nil (e : Entity) : e.hear [] = e := by
  obtain ⟨id, team, pose, health, drive, radar, attachment, processor, pendrive⟩ := e
  cases processor with
  | none => rfl
  | some p => simp [hear]

theorem hear_hear (ts us : List Transmission) (e : Entity) : (e.hear ts).hear us = e.hear (ts ++ us) := by
  obtain ⟨id, team, pose, health, drive, radar, attachment, processor, pendrive⟩ := e
  cases processor with
  | none => rfl
  | some p => simp [hear]

theorem free_hear (ts : List Transmission) (e : Entity) : (e.hear ts).free = e.free - ts.length := by
  obtain ⟨id, team, pose, health, drive, radar, attachment, processor, pendrive⟩ := e
  cases processor with
  | none => simp [hear, free]
  | some p => simp [hear, free]; omega

theorem receive_eq (t : Transmission) (e : Entity) :
    e.receive t = if 0 < e.free then some (e.hear [t]) else none := by
  obtain ⟨id, team, pose, health, drive, radar, attachment, processor, pendrive⟩ := e
  cases processor with
  | none => rfl
  | some p =>
    by_cases room : p.queues.inbound.items.length < p.queues.inbound.capacity
    · have free : 0 < p.queues.inbound.capacity - p.queues.inbound.items.length := by omega
      simp [receive, hear, Entity.free, Queue.push?, room, free]
    · have full : ¬ 0 < p.queues.inbound.capacity - p.queues.inbound.items.length := by omega
      simp [receive, Entity.free, Queue.push?, room, full]

theorem hears_eq (t : Transmission) (e : Entity) : e.hears settings t =
    decide (e.id ≠ t.sender ∧ e.team = t.team ∧ t.reaches e.position settings.transmissionRange = true) := by
  simp [hears, Bool.and_assoc]

theorem due_cons (rest : List Transmission) (e : Entity) :
    e.due settings (t :: rest) =
      if e.hears settings t then t :: e.due settings rest else e.due settings rest := by
  rw [hears_eq]
  exact List.filter_cons

theorem inbox_hear {ts : List Transmission} {e : Entity} (room : ts.length ≤ e.free) :
    (e.hear ts).inbox = e.inbox ++ ts := by
  obtain ⟨id, team, pose, health, drive, radar, attachment, processor, pendrive⟩ := e
  cases processor with
  | none =>
    obtain rfl := List.length_eq_zero_iff.mp (Nat.le_zero.mp room)
    rfl
  | some p => rfl

@[simp]
theorem inbox_clearSent (e : Entity) : e.clearSent.inbox = e.inbox := by
  unfold clearSent inbox
  cases e.processor <;> rfl

@[simp]
theorem free_clearSent (e : Entity) : e.clearSent.free = e.free := by
  unfold clearSent free
  cases e.processor <;> rfl

theorem sent_served (settings : Settings) (pending : List Transmission) (e : Entity) :
    (e.served settings pending).sent = [] := by
  unfold served hear clearSent sent
  cases e.processor <;> rfl

theorem inbox_served (settings : Settings) (pending : List Transmission) (e : Entity) :
    (e.served settings pending).inbox = e.inbox ++ (e.due settings pending).take e.free := by
  unfold served
  rw [inbox_hear, inbox_clearSent]
  rw [free_clearSent]
  exact List.length_take_le _ _

theorem free_served (settings : Settings) (pending : List Transmission) (e : Entity) :
    (e.served settings pending).free = e.free - (e.due settings pending).length := by
  unfold served
  rw [free_hear, free_clearSent, List.length_take]
  omega

/-- Offering one transmission and then the others is offering all of them. -/
theorem hear_offer (rest : List Transmission) (e : Entity) :
    ((e.offer settings t).hear (((e.offer settings t).due settings rest).take (e.offer settings t).free) =
      e.hear ((e.due settings (t :: rest)).take e.free)) ∧
    (if e.hears settings t && 0 < e.free then 1 else 0) +
        (((e.offer settings t).due settings rest).take (e.offer settings t).free).length =
      ((e.due settings (t :: rest)).take e.free).length := by
  cases heard : e.hears settings t with
  | false => simp [offer, due_cons, heard]
  | true =>
    cases free : e.free with
    | zero => simp [offer, free, hear_nil]
    | succ n =>
      have same : (e.hear [t]).due settings rest = e.due settings rest := rfl
      have left : (e.hear [t]).free = n := by rw [free_hear, free]; rfl
      have offered : e.offer settings t = e.hear [t] := by simp [offer, heard, free]
      rw [offered, same, left, hear_hear, due_cons, if_pos heard, List.take_succ_cons]
      refine ⟨rfl, ?_⟩
      simp
      omega

end Entity

/-! ### A delivery -/

theorem Transmission.deliver_eq (settings : Settings) (t : Transmission) (entities : List Entity) :
    t.deliver settings entities =
      (tally (fun e => if e.hears settings t && 0 < e.free then 1 else 0) entities,
        entities.map (Entity.offer settings t)) := by
  induction entities with
  | nil => rfl
  | cons e rest ih =>
    rw [deliver, ih, tally, List.map_cons, Entity.receive_eq, Entity.offer]
    cases heard : e.hears settings t with
    | false => simp
    | true =>
      by_cases room : 0 < e.free
      · simp [room, Nat.add_comm]
      · simp [room]

theorem deliver_all (settings : Settings) (pending : List Transmission) (n : Nat)
    (entities : List Entity) :
    pending.foldl (fun found t => (found.1 + (t.deliver settings found.2).1,
        (t.deliver settings found.2).2)) (n, entities) =
      (n + tally (fun e => ((e.due settings pending).take e.free).length) entities,
        entities.map fun e => e.hear ((e.due settings pending).take e.free)) := by
  induction pending generalizing n entities with
  | nil => simp [Entity.due, Entity.hear_nil, tally_zero]
  | cons t rest ih =>
    rw [List.foldl_cons, ih, Transmission.deliver_eq, tally_map, List.map_map, Nat.add_assoc, tally_add]
    congr 1
    · rw [tally_congr fun e _ => (Entity.hear_offer rest e).2]
    · exact List.map_congr_left fun e _ => (Entity.hear_offer rest e).1

namespace World

/-- Everything that has been sent and not yet delivered, in the order in which it is delivered. -/
def pending (w : World) : List Transmission :=
  w.entities.flatMap Entity.sent

theorem deliver_eq (settings : Settings) (w : World) :
    w.deliver settings =
      (tally (fun e => ((e.due settings w.pending).take e.free).length) w.entities,
        { w with entities := w.entities.map (Entity.served settings w.pending) }) := by
  have all := deliver_all settings w.pending 0 (w.entities.map Entity.clearSent)
  have due : ∀ e : Entity, e.clearSent.due settings w.pending = e.due settings w.pending := fun _ => rfl
  have free := Entity.free_clearSent
  have each : (fun e : Entity => e.hear ((e.due settings w.pending).take e.free)) ∘ Entity.clearSent =
      Entity.served settings w.pending := by
    funext e
    simp only [Function.comp_apply, due, free]
    rfl
  rw [tally_map, List.map_map, each, Nat.zero_add] at all
  simp only [due, free] at all
  have folded : w.deliver settings =
      ((w.pending.foldl (fun found t => (found.1 + (t.deliver settings found.2).1,
          (t.deliver settings found.2).2)) (0, w.entities.map Entity.clearSent)).1,
        { w with entities := (w.pending.foldl (fun found t => (found.1 + (t.deliver settings found.2).1,
          (t.deliver settings found.2).2)) (0, w.entities.map Entity.clearSent)).2 }) := rfl
  rw [folded, all]

/-! ### The order of a delivery -/

/-- Every transmission that waits to be delivered is signed with the robot that it waits at. -/
def Signed (w : World) : Prop :=
  ∀ e ∈ w.entities, ∀ t ∈ e.sent, t.sender = e.id ∧ t.team = e.team

theorem sorted_pending {w : World} (orderly : w.Orderly) (signed : w.Signed) :
    w.pending.Pairwise (·.sender.number ≤ ·.sender.number) := by
  refine List.pairwise_flatMap.mpr ⟨fun e there => ?_, ?_⟩
  · refine List.pairwise_of_forall_mem_list fun t first u second => ?_
    rw [(signed e there t first).1, (signed e there u second).1]
    exact Nat.le_refl _
  · refine (List.pairwise_map.mp orderly.sorted).imp_of_mem fun {a b} first second less t sent u later => ?_
    rw [(signed a first t sent).1, (signed b second u later).1]
    exact Nat.le_of_lt less

theorem filter_id_of_absent {entities : List Entity} {id : EntityId}
    (absent : id ∉ entities.map (·.id)) : entities.filter (·.id = id) = [] := by
  refine List.filter_eq_nil_iff.mpr fun e member same => absent ?_
  rw [← decide_eq_true_eq.mp same]
  exact List.mem_map_of_mem member

theorem filter_id {entities : List Entity} (distinct : (entities.map (·.id)).Nodup) {e : Entity}
    (there : e ∈ entities) : entities.filter (·.id = e.id) = [e] := by
  induction entities with
  | nil => cases there
  | cons x rest ih =>
    rw [List.map_cons, List.nodup_cons] at distinct
    obtain ⟨new, distinct⟩ := distinct
    rcases List.mem_cons.mp there with rfl | later
    · rw [List.filter_cons_of_pos (by simp), filter_id_of_absent new]
    · have known : e.id ∈ rest.map (·.id) := List.mem_map_of_mem later
      have other : ¬ x.id = e.id := fun same => new (same ▸ known)
      rw [List.filter_cons_of_neg (by simpa using other), ih distinct later]

theorem pending_of_mem {w : World} (orderly : w.Orderly) (signed : w.Signed) {e : Entity}
    (there : e ∈ w.entities) : w.pending.filter (·.sender = e.id) = e.sent := by
  have parts : ∀ entities : List Entity, (∀ x ∈ entities, x ∈ w.entities) →
      (entities.flatMap Entity.sent).filter (·.sender = e.id) =
        (entities.filter (·.id = e.id)).flatMap Entity.sent := by
    intro entities
    induction entities with
    | nil => exact fun _ => rfl
    | cons x rest ih =>
      intro known
      have senders := signed x (known x List.mem_cons_self)
      rw [List.flatMap_cons, List.filter_append, ih fun y member => known y (List.mem_cons_of_mem _ member)]
      by_cases same : x.id = e.id
      · have all : x.sent.filter (·.sender = e.id) = x.sent := by
          refine List.filter_eq_self.mpr fun t sent => ?_
          rw [decide_eq_true_eq, (senders t sent).1, same]
        rw [all, List.filter_cons_of_pos (by simpa using same), List.flatMap_cons]
      · have none : x.sent.filter (·.sender = e.id) = [] := by
          refine List.filter_eq_nil_iff.mpr fun t sent equal => same ?_
          rw [← (senders t sent).1]
          exact decide_eq_true_eq.mp equal
        rw [none, List.filter_cons_of_neg (by simpa using same), List.nil_append]
  unfold pending
  rw [parts w.entities fun _ member => member, filter_id orderly.distinct there]
  simp

theorem pending_of_absent {w : World} (signed : w.Signed) {id : EntityId}
    (absent : id ∉ w.entities.map (·.id)) : w.pending.filter (·.sender = id) = [] := by
  refine List.filter_eq_nil_iff.mpr fun t member same => ?_
  obtain ⟨e, there, sent⟩ := List.mem_flatMap.mp member
  rw [decide_eq_true_eq, (signed e there t sent).1] at same
  exact absent (List.mem_map.mpr ⟨e, there, same⟩)

end World

/-- A list loses something to a limit only when it is longer. -/
theorem lt_length_of_take_ne {α : Type} {n : Nat} {as : List α} (less : as.take n ≠ as) : n < as.length :=
  Nat.lt_of_not_le fun enough => less (List.take_of_length_le enough)

namespace World

/-- A delivery does what it is there for, and nothing else. -/
structure Exact (settings : Settings) (w : World) : Prop where
  served : (w.deliver settings).2 =
    { w with entities := w.entities.map (Entity.served settings w.pending) }
  count : (w.deliver settings).1 =
    tally (fun e => ((e.due settings w.pending).take e.free).length) w.entities
  emptied : ∀ e ∈ w.entities, (e.served settings w.pending).sent = []
  appended : ∀ e ∈ w.entities,
    (e.served settings w.pending).inbox = e.inbox ++ (e.due settings w.pending).take e.free
  dropped : ∀ e ∈ w.entities, (e.due settings w.pending).take e.free ≠ e.due settings w.pending →
    (e.served settings w.pending).free = 0
  bySender : w.pending.Pairwise (·.sender.number ≤ ·.sender.number)
  inOrder : ∀ e ∈ w.entities, w.pending.filter (·.sender = e.id) = e.sent
  signed : ∀ t ∈ w.pending, ∃ e ∈ w.entities, t.sender = e.id ∧ t.team = e.team

theorem exact {w : World} (orderly : w.Orderly) (signed : w.Signed) (settings : Settings) :
    w.Exact settings where
  served := by rw [deliver_eq]
  count := by rw [deliver_eq]
  emptied e _ := e.sent_served settings w.pending
  appended e _ := e.inbox_served settings w.pending
  dropped e _ less := by
    have more := lt_length_of_take_ne less
    rw [Entity.free_served]
    omega
  bySender := sorted_pending orderly signed
  inOrder e there := pending_of_mem orderly signed there
  signed t member := by
    obtain ⟨e, there, sent⟩ := List.mem_flatMap.mp member
    exact ⟨e, there, signed e there t sent⟩

end World

/-! ### What programs send and hear in a tick -/

/-- What a processor's program sends and hears in a tick. -/
def Engine.talk (settings : EngineSettings) (g : Registry) (p : Processor) (host : Option Host) : Talk :=
  match p.runnable? g with
  | none => {}
  | some (version, program) =>
    if version ≠ p.version ∨ p.signal ≠ .none then {}
    else Slice.talk program.code settings.instructionBudget ⟨p.registers, ⟨p.memory, p.queues, host⟩⟩

theorem Engine.talk_eq (settings : EngineSettings) (g : Registry) (p : Processor) (host : Option Host) :
    Engine.talk settings g p host =
      match p.running? g with
      | none => {}
      | some program =>
        Slice.talk program.code settings.instructionBudget ⟨p.registers, ⟨p.memory, p.queues, host⟩⟩ := by
  unfold Engine.talk Processor.running?
  cases p.runnable? g with
  | none => rfl
  | some what =>
    dsimp only
    split <;> rfl

theorem Engine.tick_exchanges (settings : EngineSettings) (g : Registry) (p : Processor)
    (host : Option Host) :
    Exchanges (Context.station ⟨p.memory, p.queues, host⟩)
      (Context.station ⟨p.memory, (Engine.tick { settings } g p host).2.1.queues,
        (Engine.tick { settings } g p host).2.2⟩)
      (Engine.talk settings g p host).sent (Engine.talk settings g p host).heard := by
  rw [Engine.talk_eq]
  cases runs : p.running? g with
  | none =>
    obtain ⟨outcome, p', queues, rests⟩ := Engine.tick_resting { settings } runs
    rw [rests]
    dsimp only
    rw [queues]
    exact .refl _
  | some program =>
    rw [Engine.tick_running { settings } _ runs]
    have ran := Slice.run_exchanges program.code settings.instructionBudget
      { state := ⟨p.registers, ⟨p.memory, p.queues, host⟩⟩
        trace := if settings.traceEnabled then some ⟨settings.traceCapacity, #[]⟩ else none }
    unfold Engine.runSlice
    dsimp only
    split
    · exact ran
    · exact ran
    · rename_i t _
      cases t <;> exact ran

namespace Entity

/-- What the radio sees of an entity. -/
def station (e : Entity) : Station :=
  ⟨some (e.id, e.team), e.inbox, e.sent⟩

theorem blindToCargo_station : BlindToCargo station :=
  { tend := fun change e => by unfold station inbox sent tend; cases e.processor <;> rfl
    pose := fun _ _ => rfl
    health := fun _ _ => rfl
    turret := fun _ _ _ _ => rfl
    attachment := fun _ _ => rfl }

/-- What an entity's program sends and hears in a tick. -/
def talk (settings : EngineSettings) (g : Registry) (clock : UInt64) (e : Entity) (sketch : Sketch)
    (panel : Panel) : Talk :=
  match e.processor with
  | none => {}
  | some p => Engine.talk settings g p
      (some ⟨e.id, e.team, e.pose, clock, sketch, panel, e.pendrive⟩)

theorem runSlice_exchanges (settings : EngineSettings) (g : Registry) (clock : UInt64) (e : Entity)
    (sketch : Sketch) (panel : Panel) :
    Exchanges e.station (e.runSlice { settings } g clock sketch panel).2.1.station
      (e.talk settings g clock sketch panel).sent (e.talk settings g clock sketch panel).heard := by
  obtain ⟨id, team, pose, health, drive, radar, attachment, processor, pendrive⟩ := e
  cases processor with
  | none => exact .refl _
  | some p =>
    obtain ⟨_, taken, added, signed⟩ := Engine.tick_exchanges settings g p
      (some ⟨id, team, pose, clock, sketch, panel, pendrive⟩)
    unfold runSlice
    dsimp only
    split
    · exact ⟨rfl, taken, added, signed⟩
    · exact ⟨rfl, taken, added, signed⟩

end Entity

namespace World

/-- What the programs send and hear when one entity after another gets its slice. -/
def talks (settings : EngineSettings) (g : Registry) (clock : UInt64) :
    List Entity → Sketch → Panel → List (EntityId × Talk)
  | [], _, _ => []
  | e :: rest, sketch, panel =>
    (e.id, e.talk settings g clock sketch panel) ::
      talks settings g clock rest (e.runSlice { settings } g clock sketch panel).2.2.1
        (e.runSlice { settings } g clock sketch panel).2.2.2

/-- What an entity's program has sent and heard. -/
def talkOf (id : EntityId) (talks : List (EntityId × Talk)) : Talk :=
  ((talks.find? (·.1 = id)).map (·.2)).getD {}

theorem keys_talks (settings : EngineSettings) (g : Registry) (clock : UInt64) (entities : List Entity)
    (sketch : Sketch) (panel : Panel) :
    (talks settings g clock entities sketch panel).map (·.1) = entities.map (·.id) := by
  induction entities generalizing sketch panel with
  | nil => rfl
  | cons e rest ih => rw [talks, List.map_cons, List.map_cons, ih]

theorem runSlices_exchanges (settings : EngineSettings) (g : Registry) (clock : UInt64)
    (entities : List Entity) (sketch : Sketch) (panel : Panel) :
    ∀ e' ∈ (runSlices { settings } g clock entities sketch panel).2.1, ∃ e ∈ entities, ∃ talk,
      (e.id, talk) ∈ talks settings g clock entities sketch panel ∧
        Exchanges e.station e'.station talk.sent talk.heard := by
  induction entities generalizing sketch panel with
  | nil => exact fun e' member => absurd member List.not_mem_nil
  | cons e rest ih =>
    intro e' member
    rcases List.mem_cons.mp member with rfl | later
    · exact ⟨e, List.mem_cons_self, _, List.mem_cons_self, e.runSlice_exchanges settings g clock sketch panel⟩
    · obtain ⟨x, there, talk, known, exchanges⟩ := ih _ _ e' later
      exact ⟨x, List.mem_cons_of_mem _ there, talk, List.mem_cons_of_mem _ known, exchanges⟩

theorem talkOf_of_mem {talks : List (EntityId × Talk)} (distinct : (talks.map (·.1)).Nodup)
    {id : EntityId} {talk : Talk} (known : (id, talk) ∈ talks) : talkOf id talks = talk := by
  unfold talkOf
  induction talks with
  | nil => cases known
  | cons first rest ih =>
    rw [List.map_cons, List.nodup_cons] at distinct
    obtain ⟨new, distinct⟩ := distinct
    rcases List.mem_cons.mp known with rfl | later
    · rw [List.find?_cons_of_pos (by simp)]
      rfl
    · have there : id ∈ rest.map (·.1) := List.mem_map_of_mem later
      have other : ¬ first.1 = id := fun same => new (same ▸ there)
      rw [List.find?_cons_of_neg (by simpa using other)]
      exact ih distinct later

theorem talkOf_of_absent {talks : List (EntityId × Talk)} {id : EntityId}
    (absent : id ∉ talks.map (·.1)) : talkOf id talks = {} := by
  have none : talks.find? (·.1 = id) = none := by
    refine List.find?_eq_none.mpr fun x member same => absent ?_
    rw [← decide_eq_true_eq.mp same]
    exact List.mem_map_of_mem member
  rw [talkOf, none]
  rfl

end World

/-! ### Whole courses -/

/-- What was due to a robot at a delivery, and the room that there was. -/
structure Post where
  due : List Transmission
  free : Nat

/-- What has arrived of it: the first ones, as many as there was room for. -/
def Post.arrived (p : Post) : List Transmission :=
  p.due.take p.free

/-- What is due to a robot when everything is delivered: nothing, unless the robot is there. -/
def World.post (settings : Settings) (w : World) (id : EntityId) : List Post :=
  (w.entities.filter (·.id = id)).map fun e => ⟨e.due settings w.pending, e.free⟩

theorem World.post_of_mem {w : World} (orderly : w.Orderly) (settings : Settings) {e : Entity}
    (there : e ∈ w.entities) : w.post settings e.id = [⟨e.due settings w.pending, e.free⟩] := by
  rw [post, filter_id orderly.distinct there]
  rfl

theorem World.post_of_absent {w : World} (settings : Settings) {id : EntityId}
    (absent : id ∉ w.entities.map (·.id)) : w.post settings id = [] := by
  rw [post, filter_id_of_absent absent]
  rfl

/-- A world, and for each robot that was ever there what its programs have sent and heard, what has been
taken from its outbound queue to be delivered, and what was due to it. -/
structure History where
  world : World := {}
  sent : EntityId → List Transmission := fun _ => []
  heard : EntityId → List Transmission := fun _ => []
  flown : EntityId → List Transmission := fun _ => []
  posts : EntityId → List Post := fun _ => []

namespace History

variable (settings : Settings) (technologies : List TechHash)

/-- The talks of the programs when they run. -/
def talks (h : History) (engine : EngineSettings) (g : Registry) (clock : UInt64) :
    List (EntityId × Talk) :=
  World.talks engine g clock h.world.entities {} h.world.panel

/-- The history after an event. -/
def happen (h : History) (event : World.Event) : History :=
  match event with
  | .programs engine g clock =>
    { h with
      world := h.world.happen settings technologies event
      sent := fun id => h.sent id ++ (World.talkOf id (h.talks engine g clock)).sent
      heard := fun id => h.heard id ++ (World.talkOf id (h.talks engine g clock)).heard }
  | .deliver =>
    { h with
      world := h.world.happen settings technologies event
      flown := fun id => h.flown id ++ h.world.pending.filter (·.sender = id)
      posts := fun id => h.posts id ++ h.world.post settings id }
  | _ => { h with world := h.world.happen settings technologies event }

/-- The history of some events. -/
def run (h : History) (events : List World.Event) : History :=
  events.foldl (happen settings technologies) h

theorem world_happen (h : History) (event : World.Event) :
    (h.happen settings technologies event).world = h.world.happen settings technologies event := by
  cases event <;> rfl

theorem world_run (h : History) (events : List World.Event) :
    (h.run settings technologies events).world = h.world.course settings technologies events := by
  induction events generalizing h with
  | nil => rfl
  | cons event later ih => exact (ih _).trans (by rw [world_happen]; rfl)

/-- What has arrived at a robot. -/
def arrived (h : History) (id : EntityId) : List Transmission :=
  (h.posts id).flatMap Post.arrived

/-- What was due to a robot. -/
def due (h : History) (id : EntityId) : List Transmission :=
  (h.posts id).flatMap Post.due

theorem arrived_deliver (h : History) (id : EntityId) :
    (h.happen settings technologies .deliver).arrived id =
      h.arrived id ++ (h.world.post settings id).flatMap Post.arrived :=
  List.flatMap_append

theorem due_deliver (h : History) (id : EntityId) :
    (h.happen settings technologies .deliver).due id =
      h.due id ++ (h.world.post settings id).flatMap Post.due :=
  List.flatMap_append

/-- The records of a history fit each other and the world. -/
structure Faithful (h : History) : Prop where
  orderly : h.world.Orderly
  signed : h.world.Signed
  waiting : ∀ e ∈ h.world.entities, h.sent e.id = h.flown e.id ++ e.sent
  flown : ∀ id, h.flown id <+: h.sent id
  inbox : ∀ e ∈ h.world.entities, h.arrived e.id = h.heard e.id ++ e.inbox
  heard : ∀ id, h.heard id <+: h.arrived id
  due : ∀ receiver sender, ((h.due receiver).filter (·.sender = sender)).Sublist (h.flown sender)
  fresh : ∀ id : EntityId, h.world.nextId ≤ id.number →
    h.sent id = [] ∧ h.flown id = [] ∧ h.heard id = [] ∧ h.posts id = []

namespace Faithful

variable {settings : Settings} {technologies : List TechHash} {h : History}

/-- Numbers that are new stay new when they grow. -/
theorem fresh_of_le (f : h.Faithful) {next : UInt32} (grown : h.world.nextId ≤ next) {id : EntityId}
    (new : next ≤ id.number) :
    h.sent id = [] ∧ h.flown id = [] ∧ h.heard id = [] ∧ h.posts id = [] :=
  f.fresh id (Nat.le_trans grown new)

/-- An event after which every entity looks to the radio like one that was there before. -/
theorem of_stations (f : h.Faithful) {w : World} (orderly : w.Orderly)
    (stations : (w.entities.map Entity.station).Sublist (h.world.entities.map Entity.station))
    (next : w.nextId = h.world.nextId) : Faithful { h with world := w } := by
  have known : ∀ e' ∈ w.entities, ∃ e ∈ h.world.entities,
      e'.id = e.id ∧ e'.team = e.team ∧ e'.inbox = e.inbox ∧ e'.sent = e.sent := by
    intro e' member
    obtain ⟨e, there, same⟩ := List.mem_map.mp (stations.subset (List.mem_map_of_mem member))
    simp only [Entity.station, Station.mk.injEq, Option.some.injEq, Prod.mk.injEq] at same
    exact ⟨e, there, same.1.1.symm, same.1.2.symm, same.2.1.symm, same.2.2.symm⟩
  refine ⟨orderly, ?_, ?_, f.flown, ?_, f.heard, f.due, ?_⟩
  · intro e' member t sent
    obtain ⟨e, there, id, team, _, same⟩ := known e' member
    rw [id, team]
    exact f.signed e there t (same ▸ sent)
  · intro e' member
    obtain ⟨e, there, id, _, _, same⟩ := known e' member
    rw [id, same]
    exact f.waiting e there
  · intro e' member
    obtain ⟨e, there, id, _, same, _⟩ := known e' member
    rw [id, same]
    exact f.inbox e there
  · intro id new
    exact f.fresh id (next ▸ new)

theorem spawn (f : h.Faithful) (b : Blueprint) (left : h.world.nextId + 1 ≠ 0) :
    Faithful { h with world := (h.world.spawn settings b).2 } := by
  have empty : (Entity.build settings ⟨h.world.nextId⟩ b).inbox = [] ∧
      (Entity.build settings ⟨h.world.nextId⟩ b).sent = [] := by
    unfold Entity.build Entity.inbox Entity.sent
    cases b.passive <;> exact ⟨rfl, rfl⟩
  obtain ⟨sent, flown, heard, posts⟩ := f.fresh ⟨h.world.nextId⟩ (Nat.le_refl _)
  refine ⟨f.orderly.spawn settings b left, ?_, ?_, f.flown, ?_, f.heard, f.due, ?_⟩
  · intro e member t there
    rcases List.mem_append.mp member with old | new
    · exact f.signed e old t there
    · rw [List.mem_singleton.mp new, empty.2] at there
      cases there
  · intro e member
    rcases List.mem_append.mp member with old | new
    · exact f.waiting e old
    · rw [List.mem_singleton.mp new, empty.2]
      show h.sent ⟨h.world.nextId⟩ = h.flown ⟨h.world.nextId⟩ ++ []
      rw [sent, flown]
      rfl
  · intro e member
    rcases List.mem_append.mp member with old | new
    · exact f.inbox e old
    · rw [List.mem_singleton.mp new, empty.1]
      show (h.posts ⟨h.world.nextId⟩).flatMap Post.arrived = h.heard ⟨h.world.nextId⟩ ++ []
      rw [posts, heard]
      rfl
  · exact fun id new => f.fresh_of_le (Nat.le_of_lt (World.lt_succ left)) new

theorem programs (f : h.Faithful) (engine : EngineSettings) (g : Registry) (clock : UInt64) :
    Faithful (h.happen settings technologies (.programs engine g clock)) := by
  have keys : (h.talks engine g clock).map (·.1) = h.world.entities.map (·.id) :=
    World.keys_talks engine g clock _ _ _
  have talk : ∀ e' ∈ (h.happen settings technologies (.programs engine g clock)).world.entities,
      ∃ e ∈ h.world.entities, e'.id = e.id ∧ e'.team = e.team ∧
        Exchanges e.station e'.station (World.talkOf e.id (h.talks engine g clock)).sent
          (World.talkOf e.id (h.talks engine g clock)).heard := by
    intro e' member
    obtain ⟨e, there, talk, known, exchanges⟩ :=
      World.runSlices_exchanges engine g clock h.world.entities {} h.world.panel e' member
    have distinct : ((h.talks engine g clock).map (·.1)).Nodup := keys ▸ f.orderly.distinct
    have owner := Option.some.inj exchanges.owner
    refine ⟨e, there, congrArg Prod.fst owner, congrArg Prod.snd owner, ?_⟩
    rw [World.talkOf_of_mem distinct known]
    exact exchanges
  have silent : ∀ id, id ∉ h.world.entities.map (·.id) →
      World.talkOf id (h.talks engine g clock) = {} :=
    fun id absent => World.talkOf_of_absent (keys ▸ absent)
  have orderly := f.orderly.happen settings technologies (.programs engine g clock)
  have inbox : ∀ e' ∈ (h.happen settings technologies (.programs engine g clock)).world.entities,
      h.arrived e'.id =
        (h.heard e'.id ++ (World.talkOf e'.id (h.talks engine g clock)).heard) ++ e'.inbox := by
    intro e' member
    obtain ⟨e, there, id, _, exchanges⟩ := talk e' member
    have taken : e.inbox = _ ++ e'.inbox := exchanges.taken
    rw [id, f.inbox e there, taken, List.append_assoc]
  have ids : (h.happen settings technologies (.programs engine g clock)).world.entities.map (·.id) =
      h.world.entities.map (·.id) :=
    World.view_runPrograms World.blindToProcessor_id _ g clock h.world
  refine ⟨orderly, ?_, ?_, ?_, inbox, ?_, f.due, ?_⟩
  · intro e' member t sent
    obtain ⟨e, there, id, team, exchanges⟩ := talk e' member
    have added : e'.sent = e.sent ++ _ := exchanges.added
    rw [added] at sent
    rw [id, team]
    rcases List.mem_append.mp sent with old | new
    · exact f.signed e there t old
    · have owner := Option.some.inj (exchanges.signed t new)
      exact ⟨(congrArg Prod.fst owner).symm, (congrArg Prod.snd owner).symm⟩
  · intro e' member
    obtain ⟨e, there, id, _, exchanges⟩ := talk e' member
    have added : e'.sent = e.sent ++ _ := exchanges.added
    show h.sent e'.id ++ _ = h.flown e'.id ++ _
    rw [id, added, f.waiting e there, List.append_assoc]
  · exact fun id => (f.flown id).trans (List.prefix_append _ _)
  · intro id
    show h.heard id ++ (World.talkOf id (h.talks engine g clock)).heard <+: h.arrived id
    by_cases there : id ∈ h.world.entities.map (·.id)
    · obtain ⟨e', member, rfl⟩ := List.mem_map.mp (ids ▸ there)
      rw [inbox e' member]
      exact List.prefix_append _ _
    · rw [silent id there, List.append_nil]
      exact f.heard id
  · intro id new
    obtain ⟨sent, flown, heard, posts⟩ := f.fresh id new
    have nothing := silent id (f.orderly.absent_of_new new)
    refine ⟨?_, flown, ?_, posts⟩
    · show h.sent id ++ _ = []
      rw [sent, nothing]
      rfl
    · show h.heard id ++ _ = []
      rw [heard, nothing]
      rfl

theorem deliver (f : h.Faithful) : Faithful (h.happen settings technologies .deliver) := by
  have known : ∀ e' ∈ (h.happen settings technologies .deliver).world.entities,
      ∃ e ∈ h.world.entities, e' = e.served settings h.world.pending := by
    intro e' member
    have entities : e' ∈ (h.world.deliver settings).2.entities := member
    rw [World.deliver_eq] at entities
    obtain ⟨e, there, same⟩ := List.mem_map.mp entities
    exact ⟨e, there, same.symm⟩
  have orderly := f.orderly.happen settings technologies .deliver
  refine ⟨orderly, ?_, ?_, ?_, ?_, ?_, ?_, ?_⟩
  · intro e' member t sent
    obtain ⟨e, _, rfl⟩ := known e' member
    rw [Entity.sent_served] at sent
    cases sent
  · intro e' member
    obtain ⟨e, there, rfl⟩ := known e' member
    show h.sent e.id = (h.flown e.id ++ h.world.pending.filter (·.sender = e.id)) ++ _
    rw [Entity.sent_served, List.append_nil, World.pending_of_mem f.orderly f.signed there]
    exact f.waiting e there
  · intro id
    show h.flown id ++ h.world.pending.filter (·.sender = id) <+: h.sent id
    by_cases there : id ∈ h.world.entities.map (·.id)
    · obtain ⟨e, member, rfl⟩ := List.mem_map.mp there
      rw [World.pending_of_mem f.orderly f.signed member]
      exact ⟨[], (List.append_nil _).trans (f.waiting e member).symm⟩
    · rw [World.pending_of_absent f.signed there, List.append_nil]
      exact f.flown id
  · intro e' member
    obtain ⟨e, there, rfl⟩ := known e' member
    show arrived _ e.id = h.heard e.id ++ _
    rw [arrived_deliver, World.post_of_mem f.orderly settings there, f.inbox e there, Entity.inbox_served,
      List.flatMap_singleton, List.append_assoc]
    rfl
  · intro id
    rw [arrived_deliver]
    exact (f.heard id).trans (List.prefix_append _ _)
  · intro receiver sender
    rw [due_deliver, List.filter_append]
    refine (f.due receiver sender).append ?_
    by_cases there : receiver ∈ h.world.entities.map (·.id)
    · obtain ⟨e, member, rfl⟩ := List.mem_map.mp there
      rw [World.post_of_mem f.orderly settings member, List.flatMap_singleton]
      exact List.Sublist.filter _ List.filter_sublist
    · rw [World.post_of_absent settings there]
      exact List.nil_sublist _
  · intro id new
    obtain ⟨sent, flown, heard, posts⟩ := f.fresh id new
    have absent := f.orderly.absent_of_new new
    refine ⟨sent, ?_, heard, ?_⟩
    · show h.flown id ++ _ = []
      rw [flown, World.pending_of_absent f.signed absent]
      rfl
    · show h.posts id ++ _ = []
      rw [posts, World.post_of_absent settings absent]
      rfl

theorem happen (f : h.Faithful) (event : World.Event) :
    Faithful (h.happen settings technologies event) := by
  have orderly := f.orderly.happen settings technologies event
  cases event with
  | spawn b =>
    show Faithful { h with world := h.world.happen settings technologies (.spawn b) }
    by_cases last : h.world.nextId + 1 = 0
    · rw [World.happen_spawn_last _ _ last]
      exact f
    · rw [World.happen_spawn _ _ last]
      exact f.spawn b last
  | programs engine g clock => exact f.programs engine g clock
  | deliver => exact f.deliver
  | despawn id => exact f.of_stations orderly (List.filter_sublist.map _) rfl
  | deposit d => exact f.of_stations orderly (.refl _) rfl
  | tend change =>
    have same : ∀ e : Entity, (e.tend (change e.id)).station = e.station :=
      fun e => Entity.blindToCargo_station.tend _ e
    exact f.of_stations orderly (World.view_mapEntities same h.world ▸ .refl _) rfl
  | device d =>
    have same := World.view_run Entity.blindToCargo_station settings technologies h.world d
    exact f.of_stations orderly (same ▸ .refl _) (World.nextId_run h.world d)
  | integrate =>
    exact f.of_stations orderly (World.view_integrate Entity.blindToCargo_station.health settings h.world)
      (World.nextId_integrate h.world)

theorem run (f : h.Faithful) (events : List World.Event) :
    Faithful (h.run settings technologies events) := by
  induction events generalizing h with
  | nil => exact f
  | cons event later ih => exact ih (f.happen event)

theorem start : Faithful {} where
  orderly := World.orderly_course {} [] []
  signed := fun _ none => absurd none List.not_mem_nil
  waiting := fun _ none => absurd none List.not_mem_nil
  flown := fun _ => List.prefix_refl _
  inbox := fun _ none => absurd none List.not_mem_nil
  heard := fun _ => List.prefix_refl _
  due := fun _ _ => .refl _
  fresh := fun _ _ => ⟨rfl, rfl, rfl, rfl⟩

end Faithful

/-- What robots hear is what others have sent to them, in the order of sending and each time it was sent at
most once. What is still waiting is in a queue, and a copy is lost only where the others have filled the
queue. -/
structure Reliable (h : History) : Prop where
  order : ∀ receiver sender, ((h.heard receiver).filter (·.sender = sender)).Sublist (h.sent sender)
  lost : ∀ id, ∀ post ∈ h.posts id, post.arrived ≠ post.due → post.arrived.length = post.free
  heard : ∀ id, h.heard id <+: h.arrived id
  inbox : ∀ e ∈ h.world.entities, h.arrived e.id = h.heard e.id ++ e.inbox
  sent : ∀ e ∈ h.world.entities, h.sent e.id = h.flown e.id ++ e.sent

theorem arrived_sublist_due (h : History) (id : EntityId) : (h.arrived id).Sublist (h.due id) := by
  unfold arrived due
  induction h.posts id with
  | nil => exact .refl _
  | cons post later ih =>
    rw [List.flatMap_cons, List.flatMap_cons]
    exact (List.take_sublist _ _).append ih

theorem Faithful.reliable {h : History} (f : h.Faithful) : h.Reliable where
  order receiver sender := by
    have heard := (f.heard receiver).sublist.trans (h.arrived_sublist_due receiver)
    exact ((heard.filter _).trans (f.due receiver sender)).trans (f.flown sender).sublist
  lost id post _ less := by
    have more := lt_length_of_take_ne less
    rw [Post.arrived, List.length_take]
    omega
  heard := f.heard
  inbox := f.inbox
  sent := f.waiting

/-- In every world that can come about, a delivery empties all outbound queues, and each inbound queue gets
as much as it has room for of what is meant for its robot, by sender and then in the order of sending. Over
whole courses, every robot hears from each other one what that one has sent, in that order and at most
once, and what is lost is lost to a full queue. A program takes a message out of its queue only by getting
all of it. A course adds no robot with the last number, where an arena ends. -/
theorem radio_is_exact (settings : Settings) (technologies : List TechHash) (events : List World.Event) :
    (run settings technologies {} events).world = World.course settings technologies {} events ∧
      (World.course settings technologies {} events).Exact settings ∧
      (run settings technologies {} events).Reliable ∧
      ∀ (i : Instruction) (s : MachineState),
        Exchanges s.context.station (s.step .standard i).1.context.station (s.sent? i).toList
            (s.heard? i).toList ∧
          ∀ m, s.heard? i = some m → s.HandedOver (s.step .standard i).1 m := by
  have world := world_run settings technologies {} events
  have faithful : Faithful (run settings technologies {} events) := Faithful.start.run events
  refine ⟨world, ?_, faithful.reliable, ?_⟩
  · rw [← world]
    exact World.exact faithful.orderly faithful.signed settings
  · exact fun i s => ⟨s.step_exchanges i, fun m heard => MachineState.handedOver_of_heard? heard⟩

/-- Three bytes that the first robot sends. -/
def greeting : Transmission := ⟨⟨1⟩, ⟨1⟩, .zero, [0, 0, 0], none⟩

/-- A program that sends three bytes and listens in its next slice. -/
def polite : CompilationRecord where
  source := ⟨"polite", ⟨1⟩⟩
  status := .done
  success := true
  scheduledAt := 0
  program := some { code := .ofInstructions [{ op := .li, a := 2, imm := 3 }, { op := .ext, imm := 18 },
    { op := .yield }, { op := .ext, imm := 20 }, { op := .yield }] }

/-- Two robots of a team run the program, with a delivery between its slices. -/
def conversation : List World.Event :=
  [.spawn { team := ⟨1⟩ }, .spawn { team := ⟨1⟩ },
    .tend fun _ p => { p with binding := some polite.source },
    .programs {} { records := [polite] } 0, .deliver, .programs {} { records := [polite] } 0]

/-- The second robot when it listens. -/
def listener : MachineState where
  registers := ({} : Registers).set 2 3
  context :=
    { memory := .zero
      queues := { Queues.ofCapacities {} with inbound := ⟨16, [greeting]⟩ }
      host := some ⟨⟨2⟩, ⟨1⟩, default, 0, {}, {}, none⟩ }

theorem greeting_is_heard :
    (run {} [] {} conversation).heard ⟨2⟩ = [greeting] ∧
      listener.heard? { op := .ext, imm := 20 } = some greeting ∧
      listener.HandedOver (listener.step .standard { op := .ext, imm := 20 }).1 greeting := by
  have heard : listener.heard? { op := .ext, imm := 20 } = some greeting := by decide +kernel
  have whole : (run {} [] {} conversation).heard ⟨2⟩ = [greeting] := by decide +kernel
  exact ⟨whole, heard, ((radio_is_exact {} [] conversation).2.2.2 _ listener).2 greeting heard⟩

end History

end RobotArena
