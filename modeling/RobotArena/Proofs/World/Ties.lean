import RobotArena.Arena.Tick
import RobotArena.Proofs.Machine.Loading

/-!
# Who is tied to which source

The tie of a robot tells which source its processor is pointed at and which one it is bound to. Ties
are changed where a processor is pointed elsewhere or bound; devices, transmissions, projectiles and
the programs themselves leave them as they are, except that a robot that is destroyed loses its own.
-/

namespace RobotArena

/-- What a robot's processor is pointed at and bound to. -/
structure Tie where
  id : EntityId
  source : Option SourceId
  binding : Option SourceId
  deriving DecidableEq

/-- The tie after all processors that have a source are bound. -/
def Tie.bind (t : Tie) : Tie :=
  { t with binding := t.binding <|> t.source }

/-- The tie of an entity that has a processor. -/
def Entity.tie? (e : Entity) : Option Tie :=
  e.processor.map fun p => ⟨e.id, p.source, p.binding⟩

/-- The ties of all robots. -/
def World.ties (w : World) : List Tie :=
  w.entities.filterMap Entity.tie?

namespace World

theorem sources_eq (w : World) : w.sources = w.ties.filterMap (·.source) := by
  unfold sources ties
  rw [List.filterMap_filterMap, List.filterMap_filterMap]
  congr 1
  funext e
  unfold Entity.tie?
  cases e.processor <;> rfl

theorem bindings_eq (w : World) : w.bindings = w.ties.filterMap (·.binding) := by
  unfold bindings ties
  rw [List.filterMap_filterMap, List.filterMap_filterMap]
  congr 1
  funext e
  unfold Entity.tie?
  cases e.processor <;> rfl

theorem mem_sources {w : World} {s : SourceId} : s ∈ w.sources ↔ ∃ t ∈ w.ties, t.source = some s := by
  rw [sources_eq, List.mem_filterMap]

theorem mem_bindings {w : World} {s : SourceId} :
    s ∈ w.bindings ↔ ∃ t ∈ w.ties, t.binding = some s := by
  rw [bindings_eq, List.mem_filterMap]

end World

/-! ### Changes of entities that keep ties -/

namespace Entity

theorem ties_map {change : Entity → Entity} (keeps : ∀ e, (change e).tie? = e.tie?)
    (entities : List Entity) :
    (entities.map change).filterMap tie? = entities.filterMap tie? := by
  rw [List.filterMap_map]
  congr 1
  funext e
  exact keeps e

theorem tie?_onMemory (f : Memory → Memory) (e : Entity) : (e.onMemory f).tie? = e.tie? := by
  unfold tie? onMemory
  rw [Option.map_map]
  rfl

theorem tie?_move (settings : Settings) (e : Entity) : (e.move settings).tie? = e.tie? := by
  unfold move
  split <;> rfl

theorem tie?_sense (blips : List Blip) (deposits : List Deposit) (e : Entity) :
    (e.sense blips deposits).tie? = e.tie? := by
  unfold sense
  split
  · rfl
  · exact tie?_onMemory _ e

theorem tie?_fire (settings : Settings) (e : Entity) : (e.fire settings).1.tie? = e.tie? := by
  unfold fire
  split
  · exact tie?_onMemory _ _
  · rfl

theorem tie?_extract (settings : Settings) (e : Entity) (deposits : List Deposit) :
    (e.extract settings deposits).1.tie? = e.tie? := by
  unfold extract
  split
  · split
    · exact tie?_onMemory _ _
    · exact tie?_onMemory _ _
  · rfl

theorem tie?_research (settings : Settings) (technologies : List TechHash) (e : Entity) :
    (e.research settings technologies).tie? = e.tie? := by
  unfold research
  split
  · dsimp only
    split
    · rfl
    · rename_i p processor
      simp only [tie?, processor, Option.map_some]
  · rfl

theorem tie?_deliverLine (e : Entity) :
    tie? { e with processor := e.processor.map Processor.deliverLine } = e.tie? := by
  have kept : ∀ p : Processor,
      p.deliverLine.source = p.source ∧ p.deliverLine.binding = p.binding := by
    intro p
    unfold Processor.deliverLine
    split <;> exact ⟨rfl, rfl⟩
  unfold tie?
  rw [Option.map_map]
  refine Option.map_congr fun p _ => ?_
  obtain ⟨source, binding⟩ := kept p
  simp only [Function.comp_apply, source, binding]

theorem tie?_clearSent (e : Entity) : e.clearSent.tie? = e.tie? := by
  unfold clearSent tie?
  rw [Option.map_map]
  rfl

theorem tie?_receive {t : Transmission} {e e' : Entity} (received : e.receive t = some e') :
    e'.tie? = e.tie? := by
  obtain ⟨p, processor, pushed⟩ := Option.bind_eq_some_iff.mp received
  obtain ⟨inbound, _, same⟩ := Option.bind_eq_some_iff.mp pushed
  cases same
  simp only [tie?, processor, Option.map_some]

theorem tie?_clear (e : Entity) : (Transporter.clear e).tie? = e.tie? := by
  unfold Transporter.clear
  split
  · exact tie?_onMemory _ e
  · rfl

theorem tie?_report (status : Transporter.Status) (cargo partner : UInt32) (e : Entity) :
    (Transporter.report status cargo partner e).tie? = e.tie? :=
  tie?_onMemory _ e

end Entity

/-! ### What programs can do -/

namespace Engine

/-- A program cannot point its processor elsewhere, and loading one does not either. -/
theorem tied_tick (e : Engine) (g : Registry) (p : Processor) (host : Option Host) :
    (e.tick g p host).2.1.source = p.source ∧ (e.tick g p host).2.1.binding = p.binding := by
  rcases e.tick_cases g p host with idle | ⟨v, program, _, _, reloaded⟩ | ⟨program, _, _, ran⟩
  · rw [idle]
    exact ⟨rfl, rfl⟩
  · rw [reloaded]
    exact ⟨rfl, rfl⟩
  · obtain ⟨source, binding, _⟩ := e.kept_runSlice p host program
    rw [ran]
    exact ⟨source, binding⟩

end Engine

theorem Entity.tie?_runSlice (engine : Engine) (g : Registry) (clock : UInt64) (e : Entity)
    (sketch : Sketch) (panel : Panel) : (e.runSlice engine g clock sketch panel).2.1.tie? = e.tie? := by
  unfold runSlice
  split
  rename_i id team pose health drive radar attachment processor pendrive
  cases processor with
  | none => rfl
  | some p =>
    obtain ⟨source, binding⟩ := engine.tied_tick g p
      (some { entity := id, team, pose, clock, sketch, panel, pendrive })
    dsimp only
    split
    · simp only [tie?, Option.map_some, source, binding]
    · simp only [tie?, Option.map_some, source, binding]

namespace World

theorem ties_mapEntities {change : Entity → Entity} (keeps : ∀ e, (change e).tie? = e.tie?)
    (w : World) : (w.mapEntities change).ties = w.ties :=
  Entity.ties_map keeps w.entities

theorem ties_modify {change : Entity → Entity} (keeps : ∀ e, (change e).tie? = e.tie?)
    (w : World) (id : EntityId) : (w.modify id change).ties = w.ties := by
  refine Entity.ties_map (fun e => ?_) w.entities
  split
  · exact keeps e
  · rfl

theorem ties_runPrograms (engine : Engine) (g : Registry) (clock : UInt64) (w : World) :
    (w.runPrograms engine g clock).2.ties = w.ties := by
  have slices : ∀ (entities : List Entity) (sketch : Sketch) (panel : Panel),
      (runSlices engine g clock entities sketch panel).2.1.filterMap Entity.tie? =
        entities.filterMap Entity.tie? := by
    intro entities
    induction entities with
    | nil => intros; rfl
    | cons e rest ih =>
      intro sketch panel
      have first := e.tie?_runSlice engine g clock sketch panel
      rw [runSlices]
      dsimp only
      rw [List.filterMap_cons, List.filterMap_cons, first, ih]
  exact slices w.entities _ _

/-! ### What devices do -/

theorem ties_fire (settings : Settings) (w : World) : (w.fire settings).ties = w.ties := by
  unfold fire ties
  dsimp only
  rw [List.map_map]
  exact Entity.ties_map (fun e => e.tie?_fire settings) w.entities

theorem ties_extract (settings : Settings) (w : World) : (w.extract settings).ties = w.ties := by
  have all : ∀ (entities : List Entity) (deposits : List Deposit),
      (Extractor.runAll settings entities deposits).1.filterMap Entity.tie? =
        entities.filterMap Entity.tie? := by
    intro entities
    induction entities with
    | nil => intros; rfl
    | cons e rest ih =>
      intro deposits
      have first := e.tie?_extract settings deposits
      rw [Extractor.runAll]
      dsimp only
      rw [List.filterMap_cons, List.filterMap_cons, first, ih]
  exact all w.entities w.deposits

theorem ties_transfer (settings : Settings) (w : World) : (w.transfer settings).ties = w.ties := by
  have one : ∀ (w : World) (r : Transporter.Request),
      (Transporter.transfer settings w r).ties = w.ties := by
    intro w r
    unfold Transporter.transfer
    split
    · split
      · exact ties_modify (fun e => e.tie?_report _ _ _) w _
      · refine (ties_modify ?_ _ _).trans (ties_modify ?_ w _)
        · exact fun e => Entity.tie?_report _ _ _ _
        · exact fun e => rfl
    · rfl
  have all : ∀ (requests : List Transporter.Request) (w : World),
      (requests.foldl (Transporter.transfer settings) w).ties = w.ties := by
    intro requests
    induction requests with
    | nil => exact fun w => rfl
    | cons r rest ih => exact fun w => (ih _).trans (one w r)
  exact (all _ _).trans (ties_mapEntities Entity.tie?_clear w)

theorem ties_device (settings : Settings) (technologies : List TechHash) (w : World) (d : Device) :
    (d.run settings technologies w).ties = w.ties := by
  cases d with
  | console => exact ties_mapEntities Entity.tie?_deliverLine w
  | navigation => exact ties_mapEntities (fun e => e.tie?_onMemory _) w
  | drive => exact ties_mapEntities (fun e => e.tie?_move settings) w
  | radar => exact ties_mapEntities (fun e => e.tie?_sense _ _) w
  | turret => exact w.ties_fire settings
  | extractor => exact w.ties_extract settings
  | transporter => exact w.ties_transfer settings
  | facility => exact ties_mapEntities (fun e => e.tie?_research settings technologies) w

theorem ties_runDevices (settings : Settings) (technologies : List TechHash) (w : World) :
    (w.runDevices settings technologies).ties = w.ties := by
  unfold runDevices
  generalize Device.all = devices
  induction devices generalizing w with
  | nil => rfl
  | cons d rest ih => exact (ih _).trans (w.ties_device settings technologies d)

/-! ### What transmissions and projectiles do -/

theorem ties_deliver (settings : Settings) (w : World) : (w.deliver settings).2.ties = w.ties := by
  have one : ∀ (t : Transmission) (entities : List Entity),
      (t.deliver settings entities).2.filterMap Entity.tie? = entities.filterMap Entity.tie? := by
    intro t entities
    induction entities with
    | nil => rfl
    | cons e rest ih =>
      rcases later : t.deliver settings rest with ⟨count, rest'⟩
      rw [later] at ih
      simp only [Transmission.deliver, later]
      split
      · rename_i e' heard
        have received : e.receive t = some e' := by
          split at heard
          · exact heard
          · cases heard
        rw [List.filterMap_cons, List.filterMap_cons, Entity.tie?_receive received, ih]
      · rw [List.filterMap_cons, List.filterMap_cons, ih]
  have all : ∀ (pending : List Transmission) (count : Nat) (entities : List Entity),
      (pending.foldl (fun found t =>
        (found.1 + (t.deliver settings found.2).1, (t.deliver settings found.2).2))
        (count, entities)).2.filterMap Entity.tie? =
      entities.filterMap Entity.tie? := by
    intro pending
    induction pending with
    | nil => intros; rfl
    | cons t rest ih => exact fun count entities => (ih _ _).trans (one t entities)
  exact (all _ _ _).trans (Entity.ties_map Entity.tie?_clearSent w.entities)

theorem ties_launchAll (settings : Settings) (projectiles : List Projectile) (w : World) :
    (launchAll settings projectiles w).1.ties = w.ties := by
  induction projectiles generalizing w with
  | nil => rfl
  | cons p rest ih =>
    have first : (w.launch settings p).1.ties = w.ties := by
      unfold launch
      dsimp only
      split
      · refine ties_modify ?_ w _
        exact fun e => rfl
      · rfl
    exact (ih _).trans first

theorem ties_despawn (w : World) (id : EntityId) : (w.despawn id).ties.Sublist w.ties :=
  List.filter_sublist.filterMap _

theorem ties_integrate (settings : Settings) (w : World) :
    (w.integrate settings).2.ties.Sublist w.ties := by
  have all : ∀ (gone : List EntityId) (w : World), (gone.foldl despawn w).ties.Sublist w.ties := by
    intro gone
    induction gone with
    | nil => exact fun w => .refl _
    | cons id rest ih => exact fun w => (ih _).trans (w.ties_despawn id)
  have launched := ties_launchAll settings w.projectiles w
  refine (all _ _).trans ?_
  rw [← launched]
  exact .refl _

/-! ### What binds and unties -/

theorem ties_bindAll (w : World) : w.bindAll.ties = w.ties.map Tie.bind := by
  unfold bindAll mapEntities ties
  dsimp only
  rw [List.filterMap_map, List.map_filterMap]
  congr 1
  funext e
  have bound : ∀ p : Processor, p.bindSource.source = p.source ∧
      p.bindSource.binding = (p.binding <|> p.source) := by
    intro p
    unfold Processor.bindSource
    split
    · rename_i source unbound
      simp [Processor.bind, source, unbound]
    · rename_i other
      refine ⟨rfl, ?_⟩
      cases binding : p.binding with
      | some s => rfl
      | none =>
        cases source : p.source with
        | none => rfl
        | some s => exact absurd binding (other s source)
  show (e.processor.map Processor.bindSource).map _ = Option.map Tie.bind (e.processor.map _)
  rw [Option.map_map, Option.map_map]
  refine Option.map_congr fun p _ => ?_
  obtain ⟨source, binding⟩ := bound p
  simp only [Function.comp_apply, Tie.bind, source, binding]

theorem mem_ties_spawn {w : World} {settings : Settings} {b : Blueprint} {t : Tie}
    (member : t ∈ (w.spawn settings b).2.ties) : t ∈ w.ties ∨ t.binding = none := by
  have appended : (w.spawn settings b).2.ties =
      w.ties ++ [Entity.build settings ⟨w.nextId⟩ b].filterMap Entity.tie? := List.filterMap_append
  rw [appended] at member
  rcases List.mem_append.mp member with old | new
  · exact .inl old
  · right
    unfold Entity.build Entity.tie? at new
    cases passive : b.passive with
    | true => simp [passive] at new
    | false =>
      simp only [passive] at new
      cases List.mem_singleton.mp new
      rfl

/-- A processor that is put in an entity's place ties it as the processor says. -/
theorem mem_ties_replace {w : World} {id : EntityId} {p : Processor} {t : Tie}
    (member : t ∈ (w.modify id ({ · with processor := some p })).ties) :
    t ∈ w.ties ∨ t = ⟨id, p.source, p.binding⟩ := by
  obtain ⟨e, there, tied⟩ := List.mem_filterMap.mp member
  obtain ⟨before, member, rfl⟩ := List.mem_map.mp there
  split at tied
  · rename_i same
    cases tied
    rw [← same]
    exact .inr rfl
  · exact .inl (List.mem_filterMap.mpr ⟨before, member, tied⟩)

end World

end RobotArena
