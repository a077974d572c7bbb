import RobotArena.Proofs.World.Devices

/-!
# Passes of a device

Along a course a device is run again and again. `World.passes` lists the worlds on which it was run. Between
two passes of the turrets or of the facilities nothing changes what they keep of themselves: transporters and
extractors change what is stored and carried, and no more.
-/

namespace RobotArena

/-! ### What others than its own device leave of an attachment -/

/-- The attachment without the units that it stores or carries. -/
def Attachment.emptied : Attachment → Attachment
  | .extractor _ capacity => .extractor 0 capacity
  | .transporter _ capacity => .transporter 0 capacity
  | .facility _ queue researched => .facility 0 queue researched
  | a => a

/-- What an entity carries without the units, and whether it has a processor. -/
structure Mount where
  id : EntityId
  programmed : Bool
  attachment : Attachment

/-- An entity as a mount. -/
def Entity.mount (e : Entity) : Mount :=
  ⟨e.id, e.processor.isSome, e.attachment.emptied⟩

theorem Transporter.emptied_trade (cargo capacity : UInt32) (a : Attachment) :
    (trade cargo capacity a).2.1.emptied = a.emptied := by
  cases a <;> rfl

namespace Entity

variable (settings : Settings) (e : Entity)

theorem mount_change (change : Processor → Processor) :
    mount { e with processor := e.processor.map change } = e.mount := by
  unfold mount
  rw [Option.isSome_map]

theorem mount_onMemory (f : Memory → Memory) : (e.onMemory f).mount = e.mount :=
  e.mount_change _

theorem mount_served (pending : List Transmission) : (served settings pending e).mount = e.mount :=
  (mount_change _ _).trans (e.mount_change _)

theorem mount_move : (e.move settings).mount = e.mount := by
  unfold move
  split <;> rfl

theorem mount_sense (blips : List Blip) (deposits : List Deposit) :
    (e.sense blips deposits).mount = e.mount := by
  unfold sense
  split
  · rfl
  · exact e.mount_onMemory _

theorem mount_clear : (Transporter.clear e).mount = e.mount := by
  unfold Transporter.clear
  split
  · exact e.mount_onMemory _
  · rfl

theorem mount_extract (deposits : List Deposit) : (e.extract settings deposits).1.mount = e.mount := by
  have served : Served _ e (e.extract settings deposits).1 := e.served_extract deposits
  unfold mount
  rw [served.id, served.isSome]
  rcases e.extract_cases settings deposits with ⟨same, _⟩ | ⟨stored, capacity, attachment, after, _⟩
  · rw [same]
  · rw [after, attachment]
    rfl

theorem mount_runSlice (engine : Engine) (g : Registry) (clock : UInt64) (sketch : Sketch) (panel : Panel) :
    (e.runSlice engine g clock sketch panel).2.1.mount = e.mount := by
  obtain ⟨id, team, pose, health, drive, radar, attachment, processor, pendrive⟩ := e
  cases processor with
  | none => rfl
  | some p =>
    unfold runSlice
    dsimp only
    split <;> rfl

end Entity

namespace World

variable {settings : Settings} {technologies : List TechHash} {w : World}

/-- Entities with a number are changed in a way that a view does not show; there is only one of them. -/
theorem view_modify_of_mem {β : Type} {view : Entity → β} {change : Entity → Entity} {id : EntityId}
    (same : ∀ e ∈ w.entities, e.id = id → view (change e) = view e) :
    (w.modify id change).entities.map view = w.entities.map view := by
  show (w.entities.map _).map view = _
  rw [List.map_map]
  refine List.map_congr_left fun e there => ?_
  rw [Function.comp_apply]
  split
  · exact same e there ‹_›
  · rfl

variable (settings) in
theorem mount_transferOne (distinct : (w.entities.map (·.id)).Nodup) (r : Transporter.Request) :
    (Transporter.transfer settings w r).entities.map Entity.mount = w.entities.map Entity.mount := by
  unfold Transporter.transfer
  split
  · rename_i cargo capacity known
    obtain ⟨e, found, transporter⟩ := Option.map_eq_some_iff.mp known
    obtain ⟨there, number⟩ := mem_of_find? found
    split
    · exact view_modify (fun e => e.mount_onMemory _) w _
    · rename_i q partner
      obtain ⟨partnerIn, other, _⟩ := Transporter.mem_of_partner? partner
      have emptied := Transporter.emptied_trade cargo capacity q.attachment
      generalize Transporter.trade cargo capacity q.attachment = traded at emptied ⊢
      obtain ⟨left, gained, moved⟩ := traded
      have first : (w.modify q.id ({ · with attachment := gained })).entities.map Entity.mount =
          w.entities.map Entity.mount := by
        refine view_modify_of_mem fun x there' same => ?_
        obtain rfl := eq_of_id distinct partnerIn there' same
        exact congrArg (Mount.mk x.id x.processor.isSome) emptied
      refine (view_modify_of_mem fun x there' same => ?_).trans first
      obtain ⟨y, inside, rfl⟩ := List.mem_map.mp there'
      -- the partner has another number than the transporter, which is therefore as it was
      have apart : y.id ≠ q.id := by
        intro same'
        rw [if_pos same'] at same
        exact other (same'.symm.trans same)
      rw [if_neg apart] at same ⊢
      obtain rfl := eq_of_id distinct there inside (same.trans number.symm)
      refine (Entity.mount_onMemory _ _).trans ?_
      unfold Entity.mount
      rw [transporter]
      rfl
  · rfl

theorem mount_transfer (distinct : (w.entities.map (·.id)).Nodup) :
    (w.transfer settings).entities.map Entity.mount = w.entities.map Entity.mount := by
  have ids : ∀ {v v' : World}, v'.entities.map Entity.mount = v.entities.map Entity.mount →
      v'.entities.map (·.id) = v.entities.map (·.id) := by
    intro v v' mounts
    have numbers := congrArg (List.map Mount.id) mounts
    rwa [List.map_map, List.map_map] at numbers
  have all : ∀ (requests : List Transporter.Request) (v : World), (v.entities.map (·.id)).Nodup →
      (requests.foldl (Transporter.transfer settings) v).entities.map Entity.mount =
        v.entities.map Entity.mount := by
    intro requests
    induction requests with
    | nil => exact fun v _ => rfl
    | cons r rest ih =>
      intro v distinct
      have first := mount_transferOne settings distinct r
      exact (ih _ (by rwa [ids first])).trans first
  have cleared : (w.mapEntities Transporter.clear).entities.map Entity.mount = w.entities.map Entity.mount :=
    view_mapEntities Entity.mount_clear w
  exact (all _ _ (by rwa [ids cleared])).trans cleared

/-! ### Passes -/

/-- Whether an event is a pass of a device. -/
def Event.isPass (d : Device) : Event → Bool
  | .device x => x = d
  | _ => false

variable (settings technologies) in
/-- The worlds on which a device is run in a course, the first one first. -/
def passes (d : Device) (w : World) : List Event → List World
  | [] => []
  | event :: later =>
    (if event.isPass d then [w] else []) ++ passes d (w.happen settings technologies event) later

variable (settings technologies) in
theorem passes_append (d : Device) (w : World) (events later : List Event) :
    w.passes settings technologies d (events ++ later) = w.passes settings technologies d events ++
      (w.course settings technologies events).passes settings technologies d later := by
  induction events generalizing w with
  | nil => rfl
  | cons event events ih =>
    rw [List.cons_append, passes, passes, ih, List.append_assoc]
    rfl

/-- What each event keeps of the passes so far and of the world that it finds holds after every course, and
it held before each pass of the passes before that one. -/
theorem passes_induction {d : Device} {P : List World → World → Prop}
    (event : ∀ ws v x, v.Orderly → P ws v →
      P (ws ++ if Event.isPass d x then [v] else []) (v.happen settings technologies x))
    (start : P [] {}) (events : List Event) :
    P (World.passes settings technologies d {} events) (World.course settings technologies {} events) ∧
      ∀ t v, (World.passes settings technologies d {} events)[t]? = some v →
        v.Orderly ∧ P ((World.passes settings technologies d {} events).take t) v := by
  have all : ∀ (events : List Event) (ws : List World) (v : World), v.Orderly → P ws v →
      (∀ t u, ws[t]? = some u → u.Orderly ∧ P (ws.take t) u) →
      P (ws ++ v.passes settings technologies d events) (v.course settings technologies events) ∧
        ∀ t u, (ws ++ v.passes settings technologies d events)[t]? = some u →
          u.Orderly ∧ P ((ws ++ v.passes settings technologies d events).take t) u := by
    intro events
    induction events with
    | nil =>
      intro ws v _ holds before
      rw [passes, List.append_nil]
      exact ⟨holds, before⟩
    | cons x later ih =>
      intro ws v orderly holds before
      rw [passes, ← List.append_assoc]
      refine ih _ _ (orderly.happen settings technologies x) (event ws v x orderly holds) fun t u found => ?_
      split at found
      · rw [if_pos ‹_›]
        by_cases old : t < ws.length
        · rw [List.getElem?_append_left old] at found
          rw [List.take_append_of_le_length (Nat.le_of_lt old)]
          exact before t u found
        · rw [List.getElem?_append_right (Nat.le_of_not_lt old)] at found
          obtain ⟨last, same⟩ := List.getElem?_eq_some_iff.mp found
          have here : t = ws.length := by
            rw [List.length_singleton] at last
            omega
          subst here
          obtain rfl : v = u := by simpa using same
          rw [List.take_left]
          exact ⟨orderly, holds⟩
      · rw [if_neg ‹_›]
        rw [List.append_nil] at found ⊢
        exact before t u found
  exact all events [] {} (orderly_course settings technologies []) start fun _ _ none => by cases none

/-- A view of entities that shows no more than their mounts, and that no device but one changes. -/
structure Watches {β : Type} (d : Device) (view : Entity → β) : Prop where
  mount : ∀ e e' : Entity, e'.mount = e.mount → view e' = view e
  turret : d ≠ .turret → ∀ settings e, view (Entity.fire settings e).1 = view e
  facility : d ≠ .facility → ∀ settings technologies e, view (Entity.research settings technologies e) = view e

namespace Watches

variable {β : Type} {d : Device} {view : Entity → β} (watches : Watches d view)
include watches

theorem of_mounts {w' : World} (mounts : w'.entities.map Entity.mount = w.entities.map Entity.mount) :
    w'.entities.map view = w.entities.map view := by
  generalize w.entities = as, w'.entities = bs at mounts ⊢
  induction as generalizing bs with
  | nil => rw [List.map_eq_nil_iff.mp mounts]
  | cons e as ih =>
    obtain ⟨e', bs, rfl, first, rest⟩ := List.map_eq_cons_iff.mp mounts
    rw [List.map_cons, List.map_cons, watches.mount e e' first, ih bs rest]

theorem device (distinct : (w.entities.map (·.id)).Nodup) {x : Device} (other : x ≠ d) :
    (x.run settings technologies w).entities.map view = w.entities.map view := by
  cases x with
  | console => exact watches.of_mounts (view_mapEntities (fun e => e.mount_change _) w)
  | navigation => exact watches.of_mounts (view_mapEntities (fun e => e.mount_onMemory _) w)
  | drive => exact watches.of_mounts (view_mapEntities (Entity.mount_move settings) w)
  | radar => exact watches.of_mounts (view_mapEntities (fun e => e.mount_sense _ _) w)
  | turret =>
    show ((w.entities.map (Entity.fire settings)).map (·.1)).map view = _
    rw [List.map_map, List.map_map]
    exact List.map_congr_left fun e _ => watches.turret other.symm settings e
  | extractor =>
    have all : ∀ (entities : List Entity) (deposits : List Deposit),
        (Extractor.runAll settings entities deposits).1.map Entity.mount = entities.map Entity.mount := by
      intro entities
      induction entities with
      | nil => exact fun _ => rfl
      | cons e rest ih =>
        intro deposits
        simp only [Extractor.runAll, List.map_cons, Entity.mount_extract, ih]
    exact watches.of_mounts (all w.entities w.deposits)
  | transporter => exact watches.of_mounts (mount_transfer distinct)
  | facility => exact view_mapEntities (watches.facility other.symm settings technologies) w

variable (settings technologies) in
/-- An event that is no pass of the device adds an entity, or shows nothing new. -/
theorem happen (orderly : w.Orderly) {x : Event} (other : x.isPass d = false) :
    ((w.happen settings technologies x).entities.map view).Sublist (w.entities.map view) ∧
        (w.happen settings technologies x).nextId = w.nextId ∨
      ∃ b, w.nextId + 1 ≠ 0 ∧ w.happen settings technologies x = (w.spawn settings b).2 := by
  cases x with
  | spawn b =>
    by_cases last : w.nextId + 1 = 0
    · rw [happen_spawn_last _ _ last]
      exact .inl ⟨.refl _, rfl⟩
    · exact .inr ⟨b, last, happen_spawn _ _ last b⟩
  | despawn id => exact .inl ⟨List.filter_sublist.map _, rfl⟩
  | deposit d => exact .inl ⟨.refl _, rfl⟩
  | tend change =>
    have same : (w.mapEntities fun e => e.tend (change e.id)).entities.map view = w.entities.map view :=
      watches.of_mounts (view_mapEntities (fun e => e.mount_change _) w)
    exact .inl ⟨same ▸ .refl _, rfl⟩
  | programs engine g clock =>
    have same : (w.runPrograms { settings := engine } g clock).2.entities.map view = w.entities.map view :=
      watches.of_mounts (view_runSlices (fun e => e.mount_runSlice _ g clock) w.entities {} w.panel)
    exact .inl ⟨same ▸ .refl _, rfl⟩
  | device x =>
    have apart : x ≠ d := of_decide_eq_false other
    exact .inl ⟨watches.device orderly.distinct apart ▸ .refl _, nextId_run w x⟩
  | deliver =>
    have same : (w.deliver settings).2.entities.map view = w.entities.map view := by
      rw [deliver_eq]
      exact watches.of_mounts (view_mapEntities (fun e => e.mount_served settings w.pending) w)
    exact .inl ⟨same ▸ .refl _, nextId_deliver w⟩
  | integrate =>
    have hurt : ∀ health (e : Entity), view { e with health } = view e :=
      fun health e => watches.mount e _ rfl
    exact .inl ⟨view_integrate hurt settings w, nextId_integrate w⟩

end Watches

/-- Every entity of a world fits the passes so far, by what a view shows of it, and they know nothing of a
number that has not been given out. -/
structure Tracks {β : Type} (view : Entity → β) (fits : List World → β → Prop)
    (fresh : List World → EntityId → Prop) (passes : List World) (w : World) : Prop where
  fits : ∀ e ∈ w.entities, fits passes (view e)
  fresh : ∀ id : EntityId, w.nextId ≤ id.number → fresh passes id

section

variable {β : Type} {d : Device} {view : Entity → β} {fits : List World → β → Prop}
  {fresh : List World → EntityId → Prop} {passes : List World}

theorem Tracks.spawn (h : w.Tracks view fits fresh passes) {b : Blueprint} (left : w.nextId + 1 ≠ 0)
    (new : fits passes (view (.build settings ⟨w.nextId⟩ b))) :
    (w.spawn settings b).2.Tracks view fits fresh passes := by
  refine ⟨fun e there => ?_, fun id unborn => h.fresh id (Nat.le_trans (Nat.le_of_lt (lt_succ left)) unborn)⟩
  rcases List.mem_append.mp there with old | last
  · exact h.fits e old
  · obtain rfl := List.mem_singleton.mp last
    exact new

/-- If the passes of a device keep track of what others leave alone, and a new entity fits passes that do not
know it, then everything fits the passes, at the end of each course and at each pass of it. -/
theorem Watches.tracks (watches : Watches d view)
    (pass : ∀ passes w, w.Orderly → w.Tracks view fits fresh passes →
      (d.run settings technologies w).Tracks view fits fresh (passes ++ [w]))
    (new : ∀ passes id b, fresh passes id → fits passes (view (.build settings id b)))
    (start : ∀ id, fresh [] id) (events : List Event) :
    (World.course settings technologies {} events).Tracks view fits fresh
        (World.passes settings technologies d {} events) ∧
      ∀ (t : Nat) (w : World), (World.passes settings technologies d {} events)[t]? = some w → w.Orderly ∧
        w.Tracks view fits fresh ((World.passes settings technologies d {} events).take t) := by
  refine passes_induction (fun passes w x orderly h => ?_)
    ⟨fun _ none => absurd none List.not_mem_nil, fun id _ => start id⟩ events
  cases own : x.isPass d with
  | true =>
    obtain rfl : x = .device d := by
      cases x with
      | device x => exact congrArg Event.device (of_decide_eq_true own)
      | _ => cases own
    exact pass passes w orderly h
  | false =>
    rw [if_neg Bool.false_ne_true, List.append_nil]
    rcases watches.happen settings technologies orderly own with
      ⟨known, next⟩ | ⟨b, left, spawned⟩
    · refine ⟨fun e there => ?_, fun id unborn => h.fresh id (next ▸ unborn)⟩
      obtain ⟨e', there', same⟩ := List.mem_map.mp (known.subset (List.mem_map_of_mem there))
      exact same ▸ h.fits e' there'
    · rw [spawned]
      exact h.spawn left (new passes _ b (h.fresh _ (Nat.le_refl _)))

end

end World

end RobotArena
