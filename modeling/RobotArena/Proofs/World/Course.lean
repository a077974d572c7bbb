import RobotArena.Arena.Tick

/-!
# The course of a world

Entities and deposits are added, programs run, devices work, transmissions are delivered, projectiles
fly, and the host has its say. `World.course` is the world after any sequence of such events. Its entities
stand in the order of their numbers, and no two have the same number.
-/

namespace RobotArena

/-- Adds up a number for each of some things. -/
def tally {α : Type} (f : α → Nat) : List α → Nat
  | [] => 0
  | a :: rest => f a + tally f rest

section Tally

variable {α β : Type} {f : α → Nat}

theorem tally_append (as bs : List α) : tally f (as ++ bs) = tally f as + tally f bs := by
  induction as with
  | nil => simp [tally]
  | cons a as ih => simp [tally, ih, Nat.add_assoc]

theorem tally_map (g : β → α) (bs : List β) : tally f (bs.map g) = tally (fun b => f (g b)) bs := by
  induction bs with
  | nil => rfl
  | cons b bs ih => simp [tally, ih]

theorem tally_zero (as : List α) : tally (fun _ : α => 0) as = 0 := by
  induction as with
  | nil => rfl
  | cons a as ih => rw [tally, ih]

theorem tally_add (g : α → Nat) (as : List α) :
    tally f as + tally g as = tally (fun a => f a + g a) as := by
  induction as with
  | nil => rfl
  | cons a as ih =>
    simp only [tally]
    omega

theorem tally_congr {g : α → Nat} {as : List α} (same : ∀ a ∈ as, f a = g a) :
    tally f as = tally g as := by
  induction as with
  | nil => rfl
  | cons a as ih =>
    rw [tally, tally, same a List.mem_cons_self, ih fun b member => same b (List.mem_cons_of_mem _ member)]

theorem tally_le_of_sublist {as bs : List α} (sub : as.Sublist bs) : tally f as ≤ tally f bs := by
  induction sub with
  | slnil => exact Nat.le_refl _
  | cons a _ ih => exact Nat.le_trans ih (Nat.le_add_left _ _)
  | cons_cons a _ ih => exact Nat.add_le_add_left ih _

theorem le_tally {a : α} {as : List α} (member : a ∈ as) : f a ≤ tally f as := by
  have one := tally_le_of_sublist (f := f) (List.singleton_sublist.mpr member)
  simpa [tally] using one

theorem add_le_tally {a b : α} {as : List α} (first : a ∈ as) (second : b ∈ as) (other : a ≠ b) :
    f a + f b ≤ tally f as := by
  induction as with
  | nil => cases first
  | cons c as ih =>
    rcases List.mem_cons.mp first with rfl | later
    · have rest := le_tally (f := f) ((List.mem_cons.mp second).resolve_left (Ne.symm other))
      exact Nat.add_le_add_left rest _
    · rcases List.mem_cons.mp second with rfl | later'
      · have rest := le_tally (f := f) later
        rw [Nat.add_comm]
        exact Nat.add_le_add_left rest _
      · exact Nat.le_trans (ih later later') (Nat.le_add_left _ _)

theorem tally_set {as : List α} {i : Nat} {a : α} (found : as[i]? = some a) (b : α) :
    tally f (as.set i b) + f a = tally f as + f b := by
  induction as generalizing i with
  | nil => cases found
  | cons c as ih =>
    cases i with
    | zero =>
      cases found
      simp only [List.set_cons_zero, tally]
      omega
    | succ i =>
      have rest := ih found
      simp only [List.set_cons_succ, tally]
      omega

end Tally

/-- Changes a processor in any way, except that its radio queues stay as they are. -/
def Processor.tend (change : Processor → Processor) (p : Processor) : Processor :=
  { change p with queues := { (change p).queues with
      inbound := p.queues.inbound
      outbound := p.queues.outbound } }

/-- Changes the entity's processor in any way, except for its radio queues. -/
def Entity.tend (change : Processor → Processor) (e : Entity) : Entity :=
  { e with processor := e.processor.map (Processor.tend change) }

namespace World

/-- What can happen in a world. -/
inductive Event where
  | spawn (b : Blueprint)
  | despawn (id : EntityId)
  | deposit (d : Deposit)
  | tend (change : EntityId → Processor → Processor)
  | programs (engine : EngineSettings) (registry : Registry) (clock : UInt64)
  | device (d : Device)
  | deliver
  | integrate

variable (settings : Settings) (technologies : List TechHash)

/-- The world after an event. An arena ends where it would have to give out the last number for entities: it
adds none there, and neither does an event. -/
def happen (w : World) : Event → World
  | .spawn b => if w.nextId + 1 = 0 then w else (w.spawn settings b).2
  | .despawn id => w.despawn id
  | .deposit d => w.addDeposit d
  | .tend change => w.mapEntities fun e => e.tend (change e.id)
  | .programs engine registry clock => (w.runPrograms { settings := engine } registry clock).2
  | .device d => d.run settings technologies w
  | .deliver => (w.deliver settings).2
  | .integrate => (w.integrate settings).2

theorem happen_spawn_last {w : World} (last : w.nextId + 1 = 0) (b : Blueprint) :
    w.happen settings technologies (.spawn b) = w :=
  if_pos last

theorem happen_spawn {w : World} (left : w.nextId + 1 ≠ 0) (b : Blueprint) :
    w.happen settings technologies (.spawn b) = (w.spawn settings b).2 :=
  if_neg left

/-- A world after some events, the first one first. -/
def course (w : World) (events : List Event) : World :=
  events.foldl (happen settings technologies) w

end World

/-! ### What is seen of an entity -/

namespace Entity

variable {β : Type}

/-- A view that shows neither where an entity is, nor its health, nor a turret's state, and of the
processor at most its radio queues. -/
structure Blind (view : Entity → β) : Prop where
  tend : ∀ change e, view (e.tend change) = view e
  pose : ∀ pose e, view { e with pose } = view e
  health : ∀ health e, view { e with health } = view e
  turret : ∀ angle cooldown e, e.attachment.kind = .turret →
    view { e with attachment := .turret angle cooldown } = view e

variable {view : Entity → β} (blind : Blind view)
include blind

theorem Blind.onMemory (f : Memory → Memory) (e : Entity) : view (e.onMemory f) = view e :=
  blind.tend (fun p => { p with memory := f p.memory }) e

theorem Blind.deliverLine (e : Entity) :
    view { e with processor := e.processor.map Processor.deliverLine } = view e := by
  have same : Processor.deliverLine = Processor.tend Processor.deliverLine := by
    funext p
    unfold Processor.tend Processor.deliverLine
    split <;> rfl
  rw [same]
  exact blind.tend Processor.deliverLine e

theorem Blind.move (settings : Settings) (e : Entity) : view (e.move settings) = view e := by
  unfold Entity.move
  split
  · exact blind.pose _ e
  · rfl

theorem Blind.sense (blips : List Blip) (deposits : List Deposit) (e : Entity) :
    view (e.sense blips deposits) = view e := by
  unfold Entity.sense
  split
  · rfl
  · exact blind.onMemory _ e

theorem Blind.fire (settings : Settings) (e : Entity) : view (e.fire settings).1 = view e := by
  unfold Entity.fire
  split
  · rename_i angle cooldown p turret _
    dsimp only
    refine (blind.onMemory _ _).trans (blind.turret _ _ e ?_)
    rw [turret]
    rfl
  · rfl

omit blind

/-- A view that does not show what the entity carries either. -/
structure BlindToCargo (view : Entity → β) : Prop extends Blind view where
  attachment : ∀ attachment e, view { e with attachment } = view e

/-- A view that shows nothing of the processor and of the pendrive. -/
structure BlindToProcessor (view : Entity → β) : Prop extends Blind view where
  processor : ∀ processor pendrive e, view { e with processor, pendrive } = view e

theorem BlindToCargo.extract (blind : BlindToCargo view) (settings : Settings) (e : Entity)
    (deposits : List Deposit) : view (e.extract settings deposits).1 = view e := by
  unfold Entity.extract
  split
  · rename_i stored capacity p _ _
    split
    · rcases Extractor.extract settings e.position stored capacity deposits with ⟨status, units, left⟩
      dsimp only
      exact (blind.onMemory _ _).trans (blind.attachment _ e)
    · dsimp only
      exact blind.onMemory _ e
  · rfl

theorem BlindToCargo.research (blind : BlindToCargo view) (settings : Settings)
    (technologies : List TechHash) (e : Entity) :
    view (e.research settings technologies) = view e := by
  unfold Entity.research
  split
  · dsimp only
    split
    · exact blind.attachment _ e
    · rename_i p processor
      have known : ∀ (a : Attachment) (m : Memory),
          ({ e with attachment := a, processor := some { p with memory := m } } : Entity) =
            Entity.onMemory (fun _ => m) { e with attachment := a } := by
        intro a m
        simp only [onMemory, processor, Option.map_some]
      rw [known]
      exact (blind.onMemory _ _).trans (blind.attachment _ e)
  · rfl

theorem BlindToProcessor.runSlice (blind : BlindToProcessor view) (engine : Engine) (g : Registry)
    (clock : UInt64) (e : Entity) (sketch : Sketch) (panel : Panel) :
    view (e.runSlice engine g clock sketch panel).2.1 = view e := by
  obtain ⟨id, team, pose, health, drive, radar, attachment, processor, pendrive⟩ := e
  have same := fun q d => blind.processor q d
    ⟨id, team, pose, health, drive, radar, attachment, processor, pendrive⟩
  cases processor with
  | none => rfl
  | some p =>
    unfold Entity.runSlice
    dsimp only
    split
    · exact same _ _
    · exact same _ _

theorem BlindToProcessor.receive (blind : BlindToProcessor view) {t : Transmission} {e e' : Entity}
    (received : e.receive t = some e') : view e' = view e := by
  obtain ⟨p, _, pushed⟩ := Option.bind_eq_some_iff.mp received
  obtain ⟨inbound, _, same⟩ := Option.bind_eq_some_iff.mp pushed
  cases same
  exact blind.processor _ e.pendrive e

end Entity

namespace World

variable {β : Type} {view : Entity → β}

/-- Whether the device moves resources. -/
def handlesCargo : Device → Bool
  | .extractor | .transporter | .facility => true
  | _ => false

theorem view_mapEntities {change : Entity → Entity} (same : ∀ e, view (change e) = view e) (w : World) :
    (w.mapEntities change).entities.map view = w.entities.map view := by
  show (w.entities.map change).map view = _
  rw [List.map_map]
  exact List.map_congr_left fun e _ => same e

theorem view_modify {change : Entity → Entity} (same : ∀ e, view (change e) = view e) (w : World)
    (id : EntityId) : (w.modify id change).entities.map view = w.entities.map view := by
  have each : ∀ e : Entity, view (if e.id = id then change e else e) = view e := by
    intro e
    split
    · exact same e
    · rfl
  exact view_mapEntities each w

theorem view_device (blind : Entity.Blind view) (settings : Settings) (technologies : List TechHash)
    {d : Device} (plain : handlesCargo d = false) (w : World) :
    (d.run settings technologies w).entities.map view = w.entities.map view := by
  cases d with
  | console => exact view_mapEntities blind.deliverLine w
  | navigation => exact view_mapEntities (fun e => blind.onMemory _ e) w
  | drive => exact view_mapEntities (blind.move settings) w
  | radar => exact view_mapEntities (fun e => blind.sense _ _ e) w
  | turret =>
    show ((w.entities.map (Entity.fire settings)).map (·.1)).map view = _
    rw [List.map_map, List.map_map]
    exact List.map_congr_left fun e _ => blind.fire settings e
  | extractor => cases plain
  | transporter => cases plain
  | facility => cases plain

theorem view_extract (blind : Entity.BlindToCargo view) (settings : Settings) (w : World) :
    (w.extract settings).entities.map view = w.entities.map view := by
  have all : ∀ (entities : List Entity) (deposits : List Deposit),
      (Extractor.runAll settings entities deposits).1.map view = entities.map view := by
    intro entities
    induction entities with
    | nil => intros; rfl
    | cons e rest ih =>
      intro deposits
      simp only [Extractor.runAll, List.map_cons, blind.extract, ih]
  exact all w.entities w.deposits

theorem view_transferOne (blind : Entity.BlindToCargo view) (settings : Settings) (w : World)
    (r : Transporter.Request) :
    (Transporter.transfer settings w r).entities.map view = w.entities.map view := by
  unfold Transporter.transfer
  split
  · split
    · exact view_modify (fun e => blind.onMemory _ e) w _
    · refine (view_modify (fun e => ?_) _ _).trans (view_modify (fun e => blind.attachment _ e) w _)
      exact (blind.onMemory _ _).trans (blind.attachment _ e)
  · rfl

theorem view_clear (blind : Entity.Blind view) (w : World) :
    (w.mapEntities Transporter.clear).entities.map view = w.entities.map view := by
  refine view_mapEntities (fun e => ?_) w
  unfold Transporter.clear
  split
  · exact blind.onMemory _ e
  · rfl

theorem view_transfer (blind : Entity.BlindToCargo view) (settings : Settings) (w : World) :
    (w.transfer settings).entities.map view = w.entities.map view := by
  have all : ∀ (requests : List Transporter.Request) (w : World),
      (requests.foldl (Transporter.transfer settings) w).entities.map view = w.entities.map view := by
    intro requests
    induction requests with
    | nil => exact fun w => rfl
    | cons r rest ih => exact fun w => (ih _).trans (view_transferOne blind settings w r)
  exact (all _ _).trans (view_clear blind.toBlind w)

theorem view_run (blind : Entity.BlindToCargo view) (settings : Settings) (technologies : List TechHash)
    (w : World) (d : Device) :
    (d.run settings technologies w).entities.map view = w.entities.map view := by
  cases plain : handlesCargo d with
  | false => exact view_device blind.toBlind settings technologies plain w
  | true =>
    cases d with
    | extractor => exact view_extract blind settings w
    | transporter => exact view_transfer blind settings w
    | facility => exact view_mapEntities (blind.research settings technologies) w
    | _ => cases plain

theorem view_runSlices {engine : Engine} {g : Registry} {clock : UInt64}
    (same : ∀ e sketch panel, view (e.runSlice engine g clock sketch panel).2.1 = view e)
    (entities : List Entity) (sketch : Sketch) (panel : Panel) :
    (runSlices engine g clock entities sketch panel).2.1.map view = entities.map view := by
  induction entities generalizing sketch panel with
  | nil => rfl
  | cons e rest ih => simp only [runSlices, List.map_cons, same, ih]

theorem view_runPrograms (blind : Entity.BlindToProcessor view) (engine : Engine) (g : Registry)
    (clock : UInt64) (w : World) :
    (w.runPrograms engine g clock).2.entities.map view = w.entities.map view :=
  view_runSlices (blind.runSlice engine g clock) w.entities _ _

theorem view_deliver (blind : Entity.BlindToProcessor view) (settings : Settings) (w : World) :
    (w.deliver settings).2.entities.map view = w.entities.map view := by
  have one : ∀ (t : Transmission) (entities : List Entity),
      (t.deliver settings entities).2.map view = entities.map view := by
    intro t entities
    induction entities with
    | nil => rfl
    | cons e rest ih =>
      rcases later : t.deliver settings rest with ⟨count, rest'⟩
      rw [later] at ih
      simp only [Transmission.deliver, later]
      split
      · rename_i e' heard
        have received : e.receive t = some e' := by
          split at heard
          · exact heard
          · cases heard
        rw [List.map_cons, List.map_cons, blind.receive received, ih]
      · rw [List.map_cons, List.map_cons, ih]
  have all : ∀ (pending : List Transmission) (count : Nat) (entities : List Entity),
      (pending.foldl (fun found t =>
        (found.1 + (t.deliver settings found.2).1, (t.deliver settings found.2).2))
        (count, entities)).2.map view = entities.map view := by
    intro pending
    induction pending with
    | nil => intros; rfl
    | cons t rest ih => exact fun count entities => (ih _ _).trans (one t entities)
  refine (all _ _ _).trans ?_
  rw [List.map_map]
  exact List.map_congr_left fun e _ => blind.processor _ e.pendrive e

theorem view_launchAll (same : ∀ health e, view { e with health } = view e) (settings : Settings)
    (projectiles : List Projectile) (w : World) :
    (launchAll settings projectiles w).1.entities.map view = w.entities.map view := by
  induction projectiles generalizing w with
  | nil => rfl
  | cons p rest ih =>
    refine (ih _).trans ?_
    show (w.launch settings p).1.entities.map view = _
    unfold launch
    dsimp only
    split
    · exact view_modify (fun e => same _ e) w _
    · rfl

/-- Entities are removed together with what they have put on the panel. -/
theorem foldl_despawn (gone : List EntityId) (w : World) :
    gone.foldl despawn w = { w with
      entities := w.entities.filter (·.id ∉ gone)
      panel := { w.panel with elements := w.panel.elements.filter (·.2.owner ∉ gone) } } := by
  induction gone generalizing w with
  | nil =>
    have entities : w.entities.filter (·.id ∉ []) = w.entities := List.filter_eq_self.mpr fun _ _ => rfl
    have elements : w.panel.elements.filter (·.2.owner ∉ []) = w.panel.elements :=
      List.filter_eq_self.mpr fun _ _ => rfl
    rw [entities, elements]
    rfl
  | cons id rest ih =>
    rw [List.foldl_cons, ih]
    simp [despawn, Panel.removeOwner, List.filter_filter, not_or, Bool.and_comm]

theorem view_integrate (same : ∀ health e, view { e with health } = view e) (settings : Settings) (w : World) :
    ((w.integrate settings).2.entities.map view).Sublist (w.entities.map view) := by
  unfold integrate
  dsimp only
  rw [← view_launchAll same settings w.projectiles w, foldl_despawn]
  exact List.filter_sublist.map view

theorem mem_of_find? {w : World} {id : EntityId} {e : Entity} (found : w.find? id = some e) :
    e ∈ w.entities ∧ e.id = id :=
  ⟨List.mem_of_find?_eq_some found, by simpa using List.find?_some found⟩

/-! ### Deposits and numbers -/

variable {settings : Settings} {technologies : List TechHash}

/-- What no device but an extractor changes. -/
def rest (w : World) : UInt32 × List Deposit :=
  (w.nextId, w.deposits)

/-- A transfer changes nothing but the entities. -/
theorem transfer_eq (settings : Settings) (w : World) : ∃ entities, w.transfer settings = { w with entities } := by
  have one : ∀ (w : World) (r : Transporter.Request),
      ∃ entities, Transporter.transfer settings w r = { w with entities } := by
    intro w r
    unfold Transporter.transfer
    split
    · split
      · exact ⟨_, rfl⟩
      · exact ⟨_, rfl⟩
    · exact ⟨_, rfl⟩
  have all : ∀ (requests : List Transporter.Request) (w : World),
      ∃ entities, requests.foldl (Transporter.transfer settings) w = { w with entities } := by
    intro requests
    induction requests with
    | nil => exact fun w => ⟨_, rfl⟩
    | cons r later ih =>
      intro w
      obtain ⟨first, same⟩ := one w r
      rw [List.foldl_cons, same]
      exact ih _
  exact all _ (w.mapEntities Transporter.clear)

theorem rest_transfer (w : World) : (w.transfer settings).rest = w.rest := by
  obtain ⟨entities, same⟩ := transfer_eq settings w
  rw [same]
  rfl

theorem rest_run {d : Device} (other : d ≠ .extractor) (w : World) :
    (d.run settings technologies w).rest = w.rest := by
  cases d with
  | extractor => exact absurd rfl other
  | transporter => exact rest_transfer w
  | _ => rfl

theorem nextId_run (w : World) (d : Device) : (d.run settings technologies w).nextId = w.nextId := by
  by_cases other : d = .extractor
  · rw [other]
    rfl
  · exact congrArg Prod.fst (rest_run other w)

theorem nextId_runDevices (w : World) : (w.runDevices settings technologies).nextId = w.nextId := by
  unfold runDevices
  generalize Device.all = devices
  induction devices generalizing w with
  | nil => rfl
  | cons d later ih => exact (ih _).trans (nextId_run w d)

/-- Flying projectiles change nothing but the health of entities. -/
theorem launchAll_eq (settings : Settings) (projectiles : List Projectile) (w : World) :
    ∃ entities, (launchAll settings projectiles w).1 = { w with entities } := by
  induction projectiles generalizing w with
  | nil => exact ⟨_, rfl⟩
  | cons p later ih =>
    have first : ∃ entities, (w.launch settings p).1 = { w with entities } := by
      unfold launch
      dsimp only
      split
      · exact ⟨_, rfl⟩
      · exact ⟨_, rfl⟩
    obtain ⟨entities, same⟩ := first
    show ∃ entities, (launchAll settings later (w.launch settings p).1).1 = _
    rw [same]
    exact ih _

theorem rest_integrate (w : World) : (w.integrate settings).2.rest = w.rest := by
  obtain ⟨entities, launched⟩ := launchAll_eq settings w.projectiles w
  unfold integrate
  dsimp only
  rw [foldl_despawn, launched]
  rfl

theorem nextId_integrate (w : World) : (w.integrate settings).2.nextId = w.nextId :=
  congrArg Prod.fst (rest_integrate w)

theorem nextId_deliver (w : World) : (w.deliver settings).2.nextId = w.nextId := rfl

/-! ### The order of entities -/

/-- Entities stand in the order of their numbers, and the next one gets a number that is greater than
all of them. -/
structure Orderly (w : World) : Prop where
  sorted : (w.entities.map (·.id)).Pairwise (·.number < ·.number)
  fresh : ∀ id ∈ w.entities.map (·.id), id.number < w.nextId

theorem nodup_of_sorted {ids : List EntityId} (sorted : ids.Pairwise (·.number < ·.number)) : ids.Nodup := by
  refine sorted.imp fun less same => ?_
  rw [same] at less
  exact Nat.lt_irrefl _ less

theorem blindToCargo_id : Entity.BlindToCargo (·.id) :=
  { tend := fun _ _ => rfl, pose := fun _ _ => rfl, health := fun _ _ => rfl
    turret := fun _ _ _ _ => rfl, attachment := fun _ _ => rfl }

theorem blindToProcessor_id : Entity.BlindToProcessor (·.id) :=
  { blindToCargo_id.toBlind with processor := fun _ _ _ => rfl }

theorem lt_succ {n : UInt32} (left : n + 1 ≠ 0) : n < n + 1 := by
  have size : n.toNat < 4294967296 := n.toNat_lt
  have notLast : n.toNat ≠ 4294967295 := by
    intro last
    apply left
    apply UInt32.toNat_inj.mp
    rw [UInt32.toNat_add, last]
    rfl
  rw [UInt32.lt_iff_toNat_lt, UInt32.toNat_add]
  show n.toNat < (n.toNat + 1) % 4294967296
  omega

namespace Orderly

variable {w w' : World}

theorem of_ids (h : w.Orderly) (ids : (w'.entities.map (·.id)).Sublist (w.entities.map (·.id)))
    (next : w'.nextId = w.nextId) : w'.Orderly :=
  ⟨h.sorted.sublist ids, fun id member => next ▸ h.fresh id (ids.subset member)⟩

theorem distinct (h : w.Orderly) : (w.entities.map (·.id)).Nodup :=
  nodup_of_sorted h.sorted

theorem absent_of_new (h : w.Orderly) {id : EntityId} (new : w.nextId ≤ id.number) :
    id ∉ w.entities.map (·.id) :=
  fun member => Nat.lt_irrefl _ (Nat.lt_of_lt_of_le (h.fresh id member) new)

theorem of_same (h : w.Orderly) (ids : w'.entities.map (·.id) = w.entities.map (·.id))
    (next : w'.nextId = w.nextId) : w'.Orderly :=
  h.of_ids (ids ▸ .refl _) next

theorem spawn (h : w.Orderly) (settings : Settings) (b : Blueprint) (left : w.nextId + 1 ≠ 0) :
    (w.spawn settings b).2.Orderly := by
  have greater := lt_succ left
  have ids : (w.spawn settings b).2.entities.map (·.id) = w.entities.map (·.id) ++ [⟨w.nextId⟩] := by
    simp [World.spawn, Entity.build]
  constructor
  · rw [ids, List.pairwise_append]
    refine ⟨h.sorted, List.pairwise_singleton _ _, ?_⟩
    intro id member new last
    rw [List.mem_singleton.mp last]
    exact h.fresh id member
  · intro id member
    rw [ids] at member
    rcases List.mem_append.mp member with old | new
    · exact Nat.lt_trans (h.fresh id old) greater
    · rw [List.mem_singleton.mp new]
      exact greater

variable (settings technologies)

theorem happen (h : w.Orderly) (event : Event) : (w.happen settings technologies event).Orderly := by
  cases event with
  | spawn b =>
    by_cases last : w.nextId + 1 = 0
    · rw [happen_spawn_last _ _ last]
      exact h
    · rw [happen_spawn _ _ last]
      exact h.spawn settings b last
  | despawn id => exact h.of_ids (List.filter_sublist.map _) rfl
  | deposit d => exact h.of_same rfl rfl
  | tend change =>
    have same : ∀ e : Entity, (e.tend (change e.id)).id = e.id := fun _ => rfl
    exact h.of_same (view_mapEntities same w) rfl
  | programs engine g clock => exact h.of_same (view_runPrograms blindToProcessor_id _ g clock w) rfl
  | device d => exact h.of_same (view_run blindToCargo_id settings technologies w d) (nextId_run w d)
  | deliver => exact h.of_same (view_deliver blindToProcessor_id settings w) rfl
  | integrate =>
    exact h.of_ids (view_integrate blindToCargo_id.health settings w) (nextId_integrate w)

theorem course (h : w.Orderly) (events : List Event) :
    (w.course settings technologies events).Orderly := by
  induction events generalizing w with
  | nil => exact h
  | cons event later ih => exact ih (h.happen settings technologies event)

end Orderly

theorem orderly_course (settings : Settings) (technologies : List TechHash) (events : List Event) :
    (World.course settings technologies {} events).Orderly :=
  Orderly.course settings technologies ⟨.nil, fun _ none => absurd none List.not_mem_nil⟩ events

end World

end RobotArena
