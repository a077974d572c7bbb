import RobotArena.Proofs.Machine.Clicks
import RobotArena.Proofs.World.Devices
import RobotArena.Proofs.World.Isolation

/-!
# Who owns what is on the panel

Every element belongs to a robot that is there, has a processor and is of the element's team: programs put
elements up for their own robot only, and whatever removes a robot takes its elements down. The clicks that
wait for a robot are taken by its own program only.
-/

namespace RobotArena

/-! ### One robot -/

namespace Entity

/-- A robot with a processor, as it signs its elements. -/
def seat? (e : Entity) : Option (EntityId × TeamId) :=
  e.processor.map fun _ => (e.id, e.team)

theorem seat?_eq_some {e : Entity} {id : EntityId} {team : TeamId} :
    e.seat? = some (id, team) ↔ (∃ p, e.processor = some p) ∧ e.id = id ∧ e.team = team := by
  simp [seat?, Option.map_eq_some_iff]

/-- The clicks that wait for an entity's program. -/
def clicks (e : Entity) : List UInt32 :=
  match e.processor with
  | none => []
  | some p => p.queues.uiEvents.items

variable {e e' : Entity}

theorem seat?_of_fixture (same : e'.fixture = e.fixture) : e'.seat? = e.seat? := by
  have view : ∀ e : Entity, e.seat? = e.fixture.processor.map fun _ => (e.fixture.id, e.fixture.team) := by
    intro e
    unfold seat? fixture
    rw [Option.map_map]
    rfl
  rw [view, view, same]

theorem clicks_of_fixture (same : e'.fixture = e.fixture) : e'.clicks = e.clicks := by
  have view : ∀ e : Entity, e.clicks = (e.fixture.processor.map (·.queues.uiEvents.items)).getD [] := by
    intro e
    unfold clicks fixture
    cases e.processor <;> rfl
  rw [view, view, same]

variable (settings : EngineSettings) (g : Registry) (clock : UInt64) (e) (sketch : Sketch) (panel : Panel)

/-- The clicks that an entity's program takes in a tick. -/
def polls : List UInt32 :=
  match e.processor with
  | none => []
  | some p => Engine.polls settings g p (some ⟨e.id, e.team, e.pose, clock, sketch, panel, e.pendrive⟩)

theorem seat?_runSlice (engine : Engine) :
    (e.runSlice engine g clock sketch panel).2.1.seat? = e.seat? := by
  obtain ⟨id, team, pose, health, drive, radar, attachment, processor, pendrive⟩ := e
  cases processor with
  | none => rfl
  | some p =>
    unfold runSlice
    dsimp only
    split <;> rfl

theorem clicks_runSlice :
    e.clicks = e.polls settings g clock sketch panel ++
      (e.runSlice { settings } g clock sketch panel).2.1.clicks := by
  obtain ⟨id, team, pose, health, drive, radar, attachment, processor, pendrive⟩ := e
  cases processor with
  | none => rfl
  | some p =>
    have taken := (Engine.tick_polls settings g p (some ⟨id, team, pose, clock, sketch, panel, pendrive⟩)).clicks
    unfold runSlice
    dsimp only
    split
    · exact taken
    · exact taken

/-- An element that was not on the panel before is signed by the robot itself. -/
theorem signed_runSlice {x : UInt32 × Element}
    (up : x ∈ (e.runSlice { settings } g clock sketch panel).2.2.2.elements) :
    e.seat? = some (x.2.owner, x.2.team) ∨
      ∃ y ∈ panel.elements, y.2.owner = x.2.owner ∧ y.2.team = x.2.team := by
  obtain ⟨id, team, pose, health, drive, radar, attachment, processor, pendrive⟩ := e
  cases processor with
  | none => exact .inr ⟨x, up, rfl, rfl⟩
  | some p =>
    have polls := Engine.tick_polls settings g p (some ⟨id, team, pose, clock, sketch, panel, pendrive⟩)
    unfold runSlice at up
    dsimp only at up
    split at up
    · rename_i h known
      obtain ⟨h₀, own, edited⟩ := polls.host h known
      cases own
      rcases edited.panel x up with ⟨owner, team⟩ | old
      · exact .inl (seat?_eq_some.mpr ⟨⟨p, rfl⟩, owner.symm, team.symm⟩)
      · exact .inr old
    · exact .inr ⟨x, up, rfl, rfl⟩

end Entity

/-! ### All robots -/

namespace World

variable {w w' : World}

/-- Every element belongs to a robot of its team that is there and has a processor. -/
def Owned (w : World) : Prop :=
  ∀ x ∈ w.panel.elements, some (x.2.owner, x.2.team) ∈ w.entities.map Entity.seat?

theorem Owned.exists_owner (h : w.Owned) {x : UInt32 × Element} (up : x ∈ w.panel.elements) :
    ∃ e ∈ w.entities, ∃ p, e.processor = some p ∧ e.id = x.2.owner ∧ e.team = x.2.team := by
  obtain ⟨e, there, seat⟩ := List.mem_map.mp (h x up)
  obtain ⟨⟨p, processor⟩, owner, team⟩ := Entity.seat?_eq_some.mp seat
  exact ⟨e, there, p, processor, owner, team⟩

theorem Owned.of_seats (h : w.Owned) (panel : w'.panel = w.panel)
    (seats : w'.entities.map Entity.seat? = w.entities.map Entity.seat?) : w'.Owned := by
  intro x up
  rw [panel] at up
  rw [seats]
  exact h x up

theorem Owned.spawn (h : w.Owned) (settings : Settings) (b : Blueprint) : (w.spawn settings b).2.Owned := by
  intro x up
  have seats : (w.spawn settings b).2.entities.map Entity.seat? = w.entities.map Entity.seat? ++ _ :=
    List.map_append
  rw [seats]
  exact List.mem_append_left _ (h x up)

theorem Owned.despawn (h : w.Owned) (id : EntityId) : (w.despawn id).Owned := by
  intro x up
  obtain ⟨old, other⟩ := List.mem_filter.mp up
  obtain ⟨e, there, p, processor, owner, team⟩ := h.exists_owner old
  have stays : e ∈ (w.despawn id).entities := by
    refine List.mem_filter.mpr ⟨there, ?_⟩
    rwa [owner]
  exact List.mem_map.mpr ⟨e, stays, Entity.seat?_eq_some.mpr ⟨⟨p, processor⟩, owner, team⟩⟩

theorem signed_runSlices (settings : EngineSettings) (g : Registry) (clock : UInt64) (entities : List Entity)
    (sketch : Sketch) (panel : Panel) :
    ∀ x ∈ (runSlices { settings } g clock entities sketch panel).2.2.2.elements,
      some (x.2.owner, x.2.team) ∈ entities.map Entity.seat? ∨
        ∃ y ∈ panel.elements, y.2.owner = x.2.owner ∧ y.2.team = x.2.team := by
  induction entities generalizing sketch panel with
  | nil => exact fun x up => .inr ⟨x, up, rfl, rfl⟩
  | cons e rest ih =>
    intro x up
    -- the panel that the others begin with is the one that the first slice has left
    rcases ih _ _ x up with later | ⟨y, here, owner, team⟩
    · exact .inl (List.mem_cons_of_mem _ later)
    · rw [← owner, ← team, List.map_cons]
      rcases e.signed_runSlice settings g clock sketch panel here with own | old
      · rw [own]
        exact .inl List.mem_cons_self
      · exact .inr old

theorem Owned.runPrograms (h : w.Owned) (settings : EngineSettings) (g : Registry) (clock : UInt64) :
    (w.runPrograms { settings } g clock).2.Owned := by
  intro x up
  have seats : (w.runPrograms { settings } g clock).2.entities.map Entity.seat? = w.entities.map Entity.seat? :=
    view_runSlices (fun e sketch panel => e.seat?_runSlice g clock sketch panel _) _ _ _
  rw [seats]
  rcases signed_runSlices settings g clock w.entities {} w.panel x up with own | ⟨y, old, owner, team⟩
  · exact own
  · rw [← owner, ← team]
    exact h y old

theorem panel_run (settings : Settings) (technologies : List TechHash) (w : World) (d : Device) :
    (d.run settings technologies w).panel = w.panel := by
  cases d with
  | transporter =>
    obtain ⟨entities, same⟩ := transfer_eq settings w
    show (w.transfer settings).panel = w.panel
    rw [same]
  | _ => rfl

theorem Owned.integrate (h : w.Owned) (settings : Settings) : (w.integrate settings).2.Owned := by
  have removed : ∀ (gone : List EntityId) (w : World), w.Owned → (gone.foldl World.despawn w).Owned := by
    intro gone
    induction gone with
    | nil => exact fun w h => h
    | cons id rest ih => exact fun w h => ih _ (h.despawn id)
  have seats : (launchAll settings w.projectiles w).1.entities.map Entity.seat? = w.entities.map Entity.seat? :=
    view_launchAll (fun _ _ => rfl) settings w.projectiles w
  obtain ⟨entities, launched⟩ := launchAll_eq settings w.projectiles w
  refine removed _ _ (h.of_seats ?_ seats)
  show (launchAll settings w.projectiles w).1.panel = w.panel
  rw [launched]

theorem owned_happen (orderly : w.Orderly) (h : w.Owned) (settings : Settings) (technologies : List TechHash)
    (event : Event) : (w.happen settings technologies event).Owned := by
  cases event with
  | spawn b =>
    by_cases last : w.nextId + 1 = 0
    · rw [happen_spawn_last _ _ last]
      exact h
    · rw [happen_spawn _ _ last]
      exact h.spawn settings b
  | despawn id => exact h.despawn id
  | deposit d => exact h.of_seats rfl rfl
  | tend change =>
    refine h.of_seats rfl (view_mapEntities (fun e => ?_) w)
    unfold Entity.seat? Entity.tend
    rw [Option.map_map]
    rfl
  | programs engine g clock => exact h.runPrograms engine g clock
  | device d =>
    exact h.of_seats (panel_run settings technologies w d)
      ((serves_device settings technologies orderly.distinct d).view fun _ _ => Entity.seat?_of_fixture)
  | deliver => exact h.of_seats rfl ((serves_deliver settings w).view fun _ _ => Entity.seat?_of_fixture)
  | integrate => exact h.integrate settings

theorem owned_course (settings : Settings) (technologies : List TechHash) (orderly : w.Orderly) (h : w.Owned)
    (events : List Event) : (w.course settings technologies events).Owned := by
  induction events generalizing w with
  | nil => exact h
  | cons event later ih =>
    exact ih (orderly.happen settings technologies event) (owned_happen orderly h settings technologies event)

/-! ### Clicks that are taken in a tick -/

/-- Devices, transmissions and projectiles take no clicks. -/
theorem clicks_outside (orderly : w.Orderly) (settings : Settings) (technologies : List TechHash) {e' : Entity}
    (there : e' ∈ (((w.runDevices settings technologies).deliver settings).2.integrate settings).2.entities) :
    ∃ e ∈ w.entities, e.id = e'.id ∧ e.clicks = e'.clicks := by
  obtain ⟨delivered, there, health, same⟩ := mem_integrate settings there
  obtain ⟨served, there, heard⟩ := (serves_deliver settings _).exists_before there
  obtain ⟨e, there, changed⟩ := (serves_runDevices settings technologies orderly.distinct).exists_before there
  rw [same]
  refine ⟨e, there, changed.id.symm.trans heard.id.symm, ?_⟩
  show e.clicks = delivered.clicks
  rw [Entity.clicks_of_fixture heard.fixture, Entity.clicks_of_fixture changed.fixture]

/-- The clicks that an entity's program takes when it is its turn. -/
def pollsOf (settings : EngineSettings) (g : Registry) (clock : UInt64) (w : World) (id : EntityId) :
    List UInt32 :=
  match w.find? id with
  | none => []
  | some e => e.polls settings g clock (w.turn settings g clock id).1 (w.turn settings g clock id).2

theorem clicks_runPrograms (orderly : w.Orderly) (settings : EngineSettings) (g : Registry) (clock : UInt64)
    {e' : Entity} (there : e' ∈ (w.runPrograms { settings } g clock).2.entities) :
    ∃ e ∈ w.entities, e.id = e'.id ∧ e.clicks = w.pollsOf settings g clock e.id ++ e'.clicks := by
  have ids : (w.runPrograms { settings } g clock).2.entities.map (·.id) = w.entities.map (·.id) :=
    ids_runSlices _ _ _ _ _ _
  obtain ⟨e, before, same⟩ := List.mem_map.mp (ids ▸ List.mem_map_of_mem there)
  have found := find?_of_mem orderly.distinct before
  obtain ⟨early, late, between⟩ := exists_between orderly.distinct found
  have after := find?_of_mem (ids ▸ orderly.distinct) there
  rw [← same, (between.runPrograms settings g clock).1] at after
  obtain rfl := Option.some.inj after
  refine ⟨e, before, same, ?_⟩
  rw [pollsOf, found]
  exact e.clicks_runSlice settings g clock _ _

theorem pollsOf_prefix (orderly : w.Orderly) (settings : EngineSettings) (g : Registry) (clock : UInt64)
    {e : Entity} (there : e ∈ w.entities) : w.pollsOf settings g clock e.id <+: e.clicks := by
  rw [pollsOf, find?_of_mem orderly.distinct there]
  exact ⟨_, (e.clicks_runSlice settings g clock _ _).symm⟩

theorem pollsOf_absent (settings : EngineSettings) (g : Registry) (clock : UInt64) {id : EntityId}
    (absent : id ∉ w.entities.map (·.id)) : w.pollsOf settings g clock id = [] := by
  have none : w.find? id = none := List.find?_eq_none.mpr fun e there same =>
    absent (of_decide_eq_true same ▸ List.mem_map_of_mem there)
  rw [pollsOf, none]

end World

end RobotArena
