import Mathlib.Data.List.Forall2
import RobotArena.Proofs.Memory.Fields
import RobotArena.Proofs.World.Cargo
import RobotArena.Proofs.World.Radio

/-!
# What devices do to robots

Devices change a robot's memory only within their fields, and of the rest of its processor only the queues of
lines and transmissions. There is one lemma for each device; which fields the console and the radar may write
depends on what the program has asked for, and no other device changes that before they come.
-/

namespace RobotArena

/-! ### Robots served by devices -/

/-- A processor without the parts that devices change. -/
def Processor.fixed (p : Processor) : Processor :=
  { p with
    memory := .zero
    queues := { p.queues with inbound := ⟨0, []⟩, outbound := ⟨0, []⟩, stdin := ⟨0, []⟩ } }

namespace Entity

/-- The parts of an entity that no device changes. -/
structure Fixture where
  id : EntityId
  team : TeamId
  drive : Bool
  radar : Option Binary32
  kind : AttachmentKind
  processor : Option Processor
  pendrive : Option Pendrive

/-- What no device changes of an entity. -/
def fixture (e : Entity) : Fixture :=
  ⟨e.id, e.team, e.drive, e.radar, e.attachment.kind, e.processor.map Processor.fixed, e.pendrive⟩

/-- Devices have changed an entity, its memory only within some fields. -/
structure Served (fields : List Field) (e e' : Entity) : Prop where
  fixture : e'.fixture = e.fixture
  memory : ∀ p p', e.processor = some p → e'.processor = some p' → Memory.Within fields p.memory p'.memory

variable {fields more : List Field} {e e' e'' : Entity}

theorem Served.refl (e : Entity) : Served fields e e where
  fixture := rfl
  memory p p' known known' := by
    cases known.symm.trans known'
    exact .refl _

theorem Served.mono (served : Served fields e e') (sub : fields ⊆ more) : Served more e e' :=
  ⟨served.fixture, fun p p' known known' => (served.memory p p' known known').mono sub⟩

theorem Served.processor_some (served : Served fields e e') {p : Processor} (known : e.processor = some p) :
    ∃ p', e'.processor = some p' := by
  have same : e'.processor.map Processor.fixed = e.processor.map Processor.fixed :=
    congrArg Fixture.processor served.fixture
  rw [known] at same
  obtain ⟨p', known', _⟩ := Option.map_eq_some_iff.mp same
  exact ⟨p', known'⟩

theorem Served.isSome (served : Served fields e e') : e'.processor.isSome = e.processor.isSome := by
  have same : e'.processor.map Processor.fixed = e.processor.map Processor.fixed :=
    congrArg Fixture.processor served.fixture
  rw [← Option.isSome_map, same, Option.isSome_map]

theorem Served.trans (first : Served fields e e') (second : Served fields e' e'') : Served fields e e'' where
  fixture := second.fixture.trans first.fixture
  memory p p'' known known'' := by
    obtain ⟨p', known'⟩ := first.processor_some known
    exact (first.memory p p' known known').trans (second.memory p' p'' known' known'')

theorem Served.kind (served : Served fields e e') : e'.attachment.kind = e.attachment.kind :=
  congrArg Fixture.kind served.fixture

theorem Served.id (served : Served fields e e') : e'.id = e.id :=
  congrArg Fixture.id served.fixture

theorem served_onMemory {change : Memory → Memory}
    (within : ∀ p, e.processor = some p → Memory.Within fields p.memory (change p.memory)) :
    Served fields e (e.onMemory change) := by
  obtain ⟨id, team, pose, health, drive, radar, attachment, processor, pendrive⟩ := e
  cases processor with
  | none => exact .refl _
  | some p =>
    refine ⟨rfl, fun q q' known known' => ?_⟩
    cases known
    cases known'
    exact within p rfl

theorem served_processor {p p' : Processor} (known : e.processor = some p) (fixed : p'.fixed = p.fixed)
    (within : Memory.Within fields p.memory p'.memory) : Served fields e { e with processor := some p' } where
  fixture := by
    unfold Entity.fixture
    rw [known, Option.map_some, Option.map_some, fixed]
  memory q q' known' known'' := by
    cases known.symm.trans known'
    cases known''
    exact within

theorem served_memory {p : Processor} {memory : Memory} (known : e.processor = some p)
    (within : Memory.Within fields p.memory memory) :
    Served fields e { e with processor := some { p with memory } } :=
  served_processor known (by simp only [Processor.fixed]) within

/-- An attachment is exchanged for one of the same kind. -/
theorem served_attachment {a : Attachment} (kind : a.kind = e.attachment.kind) :
    Served fields e { e with attachment := a } where
  fixture := by
    unfold Entity.fixture
    rw [← kind]
  memory p p' known known' := by
    cases known.symm.trans known'
    exact .refl _

/-! ### Each device -/

/-- The program waits for a line, and there is one. -/
def hasLine (e : Entity) : Bool :=
  match e.processor with
  | some p => p.memory.byte Layout.stdinRequest != 0 && p.queues.stdin.front?.isSome
  | none => false

/-- The entity has a radar, and the program has asked it. -/
def asksRadar (e : Entity) : Bool :=
  e.radar.isSome && (e.processor.map (·.memory.byte Layout.radarRequest == 1)).getD false

end Entity

/-- The fields that a device may write for an entity. -/
def Device.fields (d : Device) (e : Entity) : List Field :=
  match d with
  | .console => if e.hasLine then Layout.consoleFields else []
  | .navigation => Layout.navigationFields
  | .drive => []
  | .radar => if e.asksRadar then Layout.radarFields else []
  | .turret | .extractor | .transporter | .facility => Layout.attachmentFields e.attachment.kind

namespace Entity

variable {e : Entity} {settings : Settings}

theorem served_deliverLine (e : Entity) :
    Served (Device.console.fields e) e { e with processor := e.processor.map Processor.deliverLine } := by
  obtain ⟨id, team, pose, health, drive, radar, attachment, processor, pendrive⟩ := e
  cases processor with
  | none => exact .refl _
  | some p =>
    cases asked : p.memory.stdinRequested with
    | false =>
      have same : p.deliverLine = p := by simp only [Processor.deliverLine, asked]
      rw [Option.map_some, same]
      exact .refl _
    | true =>
      cases waiting : p.queues.stdin.front? with
      | none =>
        have same : p.deliverLine = p := by simp only [Processor.deliverLine, asked, waiting]
        rw [Option.map_some, same]
        exact .refl _
      | some line =>
        have called : hasLine ⟨id, team, pose, health, drive, radar, attachment, some p, pendrive⟩ := by
          rw [Memory.stdinRequested] at asked
          simp only [hasLine, asked, waiting]
          rfl
        have fields : Device.console.fields
            ⟨id, team, pose, health, drive, radar, attachment, some p, pendrive⟩ = Layout.consoleFields :=
          if_pos called
        have delivered : p.deliverLine =
            { p with
              memory := p.memory.deliverStdin line
              queues := { p.queues with stdin := p.queues.stdin.pop } } := by
          simp only [Processor.deliverLine, asked, waiting]
        rw [fields, Option.map_some, delivered]
        exact served_processor rfl (by simp only [Processor.fixed]) (p.memory.within_deliverStdin line)

theorem served_navigate (e : Entity) : Served (Device.navigation.fields e) e e.navigate :=
  served_onMemory fun p _ => p.memory.within_navigate _ _

theorem served_move (e : Entity) : Served (Device.drive.fields e) e (e.move settings) := by
  unfold Entity.move
  split
  · refine ⟨rfl, fun p p' known known' => ?_⟩
    cases known.symm.trans known'
    exact .refl _
  · exact .refl _

theorem served_sense (blips : List Blip) (deposits : List Deposit) (e : Entity) :
    Served (Device.radar.fields e) e (e.sense blips deposits) := by
  unfold Entity.sense
  cases hardware : e.radar with
  | none => exact .refl _
  | some hardware' =>
    refine served_onMemory fun p known => ?_
    unfold Radar.answer
    split
    · rename_i asked
      have asks : e.asksRadar := by
        rw [Memory.radarRequested, Memory.radarAsked] at asked
        simp only [asksRadar, hardware, known, Option.map_some, asked]
        rfl
      have fields : Device.radar.fields e = Layout.radarFields := if_pos asks
      rw [fields]
      exact p.memory.within_answerRadar _
    · exact .refl _

theorem served_fire (e : Entity) : Served (Device.turret.fields e) e (e.fire settings).1 := by
  unfold Entity.fire
  split
  · rename_i angle cooldown p turret _
    dsimp only
    have kind : e.attachment.kind = .turret := by rw [turret]; rfl
    have fields : Device.turret.fields e = Layout.attachmentFields .turret := by rw [Device.fields, kind]
    rw [fields]
    refine (served_attachment ?_).trans (served_onMemory fun p _ => p.memory.within_showTurret _ _)
    rw [kind]
    rfl
  · exact .refl _

theorem served_extract (e : Entity) (deposits : List Deposit) :
    Served (Device.extractor.fields e) e (e.extract settings deposits).1 := by
  unfold Entity.extract
  split
  · rename_i stored capacity p extractor _
    have kind : e.attachment.kind = .extractor := by rw [extractor]; rfl
    have fields : Device.extractor.fields e = Layout.attachmentFields .extractor := by rw [Device.fields, kind]
    rw [fields]
    split
    · rcases Extractor.extract settings e.position stored capacity deposits with ⟨status, units, left⟩
      dsimp only
      refine (served_attachment ?_).trans (served_onMemory fun p _ => ?_)
      · rw [kind]
        rfl
      · have ended := p.memory.within_clearExtraction.trans (Memory.within_setExtractorStatus _ status.code)
        exact ended.trans (Memory.within_showStorage _ units capacity)
    · dsimp only
      refine served_onMemory fun p _ => ?_
      exact p.memory.within_clearExtraction.trans (Memory.within_showStorage _ stored capacity)
  · exact .refl _

theorem fields_transporter {cargo capacity : UInt32} (transporter : e.attachment = .transporter cargo capacity) :
    Device.transporter.fields e = Layout.attachmentFields .transporter := by
  rw [Device.fields, transporter]
  rfl

theorem served_clear (e : Entity) : Served (Device.transporter.fields e) e (Transporter.clear e) := by
  unfold Transporter.clear
  split
  · rename_i cargo capacity transporter
    rw [fields_transporter transporter]
    exact served_onMemory fun p _ => p.memory.within_clearTransfer
  · exact .refl _

theorem served_report (status : Transporter.Status) (amount partner : UInt32) (e : Entity) :
    Served (Layout.attachmentFields .transporter) e (Transporter.report status amount partner e) :=
  served_onMemory fun p _ => p.memory.within_showTransfer _ _ _

theorem within_operate (settings : Settings) (technologies : List TechHash) (stock : Facility.Stock) (m : Memory) :
    Memory.Within (Layout.attachmentFields .facility) m
      (Facility.operate settings technologies stock m).2 := by
  unfold Facility.operate
  split
  · exact .refl m
  · split
    · exact m.within_answerFacility _
    · split
      · split
        · exact m.within_answerFacility _
        · rename_i hash queue _
          exact (m.within_setFacilityHash hash.size).trans (Memory.within_answerFacility _ _)
      · exact m.within_answerFacility _

theorem served_research (technologies : List TechHash) (e : Entity) :
    Served (Device.facility.fields e) e (e.research settings technologies) := by
  unfold Entity.research
  split
  · rename_i stored queue researched facility
    have kind : e.attachment.kind = .facility := by rw [facility]; rfl
    have fields : Device.facility.fields e = Layout.attachmentFields .facility := by rw [Device.fields, kind]
    have stocked : ∀ stock : Facility.Stock, Served (Device.facility.fields e) e
        { e with attachment := stock.attachment } := fun stock => served_attachment (by rw [kind]; rfl)
    dsimp only
    split
    · exact stocked _
    · rename_i p known
      have operated := within_operate settings technologies ⟨stored, queue, researched⟩ p.memory
      generalize Facility.operate settings technologies ⟨stored, queue, researched⟩ p.memory = done at operated ⊢
      obtain ⟨stock, memory⟩ := done
      have within := operated.trans (memory.within_setQueueLength
        (UInt32.ofNat (Facility.research settings stock).queue.length))
      rw [← fields] at within
      exact (stocked (Facility.research settings stock)).trans (served_memory known within)
  · exact .refl _

end Entity

/-! ### Each device on a world -/

namespace World

/-- Every entity stays in its place and is served within its fields. -/
def Serves (fields : Entity → List Field) (w w' : World) : Prop :=
  List.Forall₂ (fun e e' => e.Served (fields e) e') w.entities w'.entities

variable {fields more : Entity → List Field} {w w' w'' : World}

theorem Serves.refl (w : World) : w.Serves fields w :=
  List.forall₂_same.mpr fun e _ => .refl e

theorem Serves.mono (serves : w.Serves fields w') (sub : ∀ e, fields e ⊆ more e) : w.Serves more w' :=
  serves.imp fun e _ served => served.mono (sub e)

/-- One change after another; the first one leaves as it is which fields the second one may write. -/
theorem Serves.trans (first : w.Serves fields w') (second : w'.Serves more w'')
    (carried : ∀ e e', e.Served (fields e) e' → more e' = more e) :
    w.Serves (fun e => fields e ++ more e) w'' := by
  unfold Serves at first second ⊢
  generalize w.entities = as, w'.entities = bs, w''.entities = cs at first second ⊢
  induction first generalizing cs with
  | nil =>
    cases second
    exact .nil
  | @cons e e' as bs here _ ih =>
    obtain ⟨e'', cs, there, rest, rfl⟩ := List.forall₂_cons_left_iff.mp second
    rw [carried e e' here] at there
    refine .cons ?_ (ih cs rest)
    exact (here.mono (List.subset_append_left _ _)).trans (there.mono (List.subset_append_right _ _))

theorem Serves.exists_before (serves : w.Serves fields w') {e' : Entity} (there : e' ∈ w'.entities) :
    ∃ e ∈ w.entities, e.Served (fields e) e' := by
  unfold Serves at serves
  generalize w.entities = as, w'.entities = bs at serves there ⊢
  induction serves with
  | nil => cases there
  | cons here _ ih =>
    rcases List.mem_cons.mp there with rfl | later
    · exact ⟨_, List.mem_cons_self, here⟩
    · obtain ⟨e, inside, served⟩ := ih later
      exact ⟨e, List.mem_cons_of_mem _ inside, served⟩

/-- What no device changes of an entity is the same all over the world. -/
theorem Serves.view {β : Type} {view : Entity → β}
    (fixed : ∀ e e' : Entity, e'.fixture = e.fixture → view e' = view e) (serves : w.Serves fields w') :
    w'.entities.map view = w.entities.map view := by
  unfold Serves at serves
  generalize w.entities = as, w'.entities = bs at serves ⊢
  induction serves with
  | nil => rfl
  | cons here _ ih => rw [List.map_cons, List.map_cons, fixed _ _ here.fixture, ih]

theorem Serves.ids (serves : w.Serves fields w') : w'.entities.map (·.id) = w.entities.map (·.id) :=
  serves.view fun _ _ same => congrArg Entity.Fixture.id same

theorem serves_mapEntities {change : Entity → Entity} (each : ∀ e : Entity, e.Served (fields e) (change e))
    (w : World) : w.Serves fields (w.mapEntities change) :=
  List.forall₂_map_right_iff.mpr (List.forall₂_same.mpr fun (e : Entity) _ => each e)

/-- The entity with a number is changed; there is only one. -/
theorem serves_modify {change : Entity → Entity} {id : EntityId}
    (only : ∀ e ∈ w.entities, e.id = id → e.Served (fields e) (change e)) :
    w.Serves fields (w.modify id change) := by
  refine List.forall₂_map_right_iff.mpr (List.forall₂_same.mpr fun (e : Entity) there => ?_)
  split
  · rename_i same
    exact only e there same
  · exact .refl e

/-- Two changes within the same fields. -/
theorem Serves.again (first : w.Serves fields w') (second : w'.Serves fields w'')
    (carried : ∀ e e', e.Served (fields e) e' → fields e' = fields e) : w.Serves fields w'' :=
  (first.trans second carried).mono fun _ _ member => (List.mem_append.mp member).elim id id

theorem carried_attachment (e e' : Entity) {fields : List Field} (served : e.Served fields e') :
    Layout.attachmentFields e'.attachment.kind = Layout.attachmentFields e.attachment.kind := by
  rw [served.kind]

theorem eq_of_id (distinct : (w.entities.map (·.id)).Nodup) {e q : Entity} (there : e ∈ w.entities)
    (there' : q ∈ w.entities) (same : q.id = e.id) : q = e :=
  List.inj_on_of_nodup_map distinct there' there same

section

variable {settings : Settings}

theorem kind_trade (cargo capacity : UInt32) (a : Attachment) :
    (Transporter.trade cargo capacity a).2.1.kind = a.kind := by
  cases a <;> rfl

theorem serves_transferOne (settings : Settings) (distinct : (w.entities.map (·.id)).Nodup)
    (r : Transporter.Request) :
    w.Serves Device.transporter.fields (Transporter.transfer settings w r) := by
  unfold Transporter.transfer
  split
  · rename_i cargo capacity known
    obtain ⟨e, found, transporter⟩ := Option.map_eq_some_iff.mp known
    obtain ⟨there, number⟩ := mem_of_find? found
    split
    · refine serves_modify fun x there' same => ?_
      obtain rfl := eq_of_id distinct there there' (same.trans number.symm)
      rw [Entity.fields_transporter transporter]
      exact Entity.served_report _ _ _ _
    · rename_i q partner
      obtain ⟨partnerIn, other, _⟩ := Transporter.mem_of_partner? partner
      have kind := kind_trade cargo capacity q.attachment
      generalize Transporter.trade cargo capacity q.attachment = traded at kind ⊢
      obtain ⟨left, gained, moved⟩ := traded
      have first : w.Serves Device.transporter.fields (w.modify q.id ({ · with attachment := gained })) := by
        refine serves_modify fun x there' same => ?_
        obtain rfl := eq_of_id distinct partnerIn there' same
        exact Entity.served_attachment kind
      refine first.again (serves_modify fun x there' same => ?_) fun e e' => carried_attachment e e'
      obtain ⟨y, inside, rfl⟩ := List.mem_map.mp there'
      -- a transporter is never its own partner, so the second change meets another robot
      have apart : y.id ≠ q.id := by
        intro same'
        rw [if_pos same'] at same
        exact other (same'.symm.trans same)
      rw [if_neg apart] at same ⊢
      obtain rfl := eq_of_id distinct there inside (same.trans number.symm)
      rw [Entity.fields_transporter transporter]
      exact (Entity.served_attachment (by rw [transporter]; rfl)).trans (Entity.served_report _ _ _ _)
  · exact .refl w

theorem serves_transfer (distinct : (w.entities.map (·.id)).Nodup) :
    w.Serves Device.transporter.fields (w.transfer settings) := by
  have all : ∀ (requests : List Transporter.Request) (w : World), (w.entities.map (·.id)).Nodup →
      w.Serves Device.transporter.fields (requests.foldl (Transporter.transfer settings) w) := by
    intro requests
    induction requests with
    | nil => exact fun w _ => .refl w
    | cons r rest ih =>
      intro w distinct
      have first := serves_transferOne settings distinct r
      exact first.again (ih _ (by rwa [first.ids])) fun e e' => carried_attachment e e'
  have cleared := serves_mapEntities Entity.served_clear w
  exact cleared.again (all _ _ (by rwa [cleared.ids])) fun e e' => carried_attachment e e'

theorem serves_extract (w : World) : w.Serves Device.extractor.fields (w.extract settings) := by
  have all : ∀ (entities : List Entity) (deposits : List Deposit),
      List.Forall₂ (fun e e' => e.Served (Device.extractor.fields e) e') entities
        (Extractor.runAll settings entities deposits).1 := by
    intro entities
    induction entities with
    | nil => exact fun _ => .nil
    | cons e rest ih => exact fun deposits => .cons (e.served_extract deposits) (ih _)
  exact all w.entities w.deposits

theorem serves_fire (w : World) : w.Serves Device.turret.fields (w.fire settings) := by
  show List.Forall₂ _ w.entities ((w.entities.map (Entity.fire settings)).map (·.1))
  rw [List.map_map]
  exact List.forall₂_map_right_iff.mpr (List.forall₂_same.mpr fun e _ => e.served_fire)

/-- Each device stays within its fields. -/
theorem serves_device (settings : Settings) (technologies : List TechHash)
    (distinct : (w.entities.map (·.id)).Nodup) (d : Device) :
    w.Serves d.fields (d.run settings technologies w) := by
  cases d with
  | console => exact serves_mapEntities Entity.served_deliverLine w
  | navigation => exact serves_mapEntities Entity.served_navigate w
  | drive => exact serves_mapEntities Entity.served_move w
  | radar => exact serves_mapEntities (fun e => e.served_sense _ _) w
  | turret => exact serves_fire w
  | extractor => exact serves_extract w
  | transporter => exact serves_transfer distinct
  | facility => exact serves_mapEntities (fun e => e.served_research technologies) w

end

/-! ### A tick of devices -/

/-- The fields that the devices together may write for an entity. -/
def deviceFields (e : Entity) : List Field :=
  Device.console.fields e ++ Layout.navigationFields ++ Device.radar.fields e ++
    Layout.attachmentFields e.attachment.kind

theorem deviceFields_subset (e : Entity) : deviceFields e ⊆
    Layout.consoleFields ++ Layout.navigationFields ++ Layout.radarFields ++
      Layout.attachmentFields e.attachment.kind := by
  have optional : ∀ (condition : Bool) (fields : List Field), (if condition then fields else []) ⊆ fields := by
    intro condition fields
    split
    · exact List.Subset.refl _
    · exact List.nil_subset _
  intro f member
  simp only [deviceFields, List.mem_append] at member ⊢
  rcases member with ((console | navigation) | radar) | attachment
  · exact .inl (.inl (.inl (optional _ _ console)))
  · exact .inl (.inl (.inr navigation))
  · exact .inl (.inr (optional _ _ radar))
  · exact .inr attachment

/-- Neither a line nor the pose of a robot asks its radar or takes the question away. -/
theorem asksRadar_of_served {e e' : Entity}
    (served : e.Served (Layout.consoleFields ++ Layout.navigationFields) e') : e'.asksRadar = e.asksRadar := by
  have radar : e'.radar = e.radar := congrArg Entity.Fixture.radar served.fixture
  unfold Entity.asksRadar
  rw [radar]
  cases known : e.processor with
  | none =>
    have none : e'.processor.map Processor.fixed = none := by
      rw [show e'.processor.map Processor.fixed = e.processor.map Processor.fixed from
        congrArg Entity.Fixture.processor served.fixture, known]
      rfl
    rw [Option.map_eq_none_iff.mp none]
  | some p =>
    obtain ⟨p', known'⟩ := served.processor_some known
    have own : (⟨Layout.radarRequest, 1⟩ : Field).Has Layout.radarRequest := ⟨Nat.le_refl _, Nat.lt_succ_self _⟩
    have same := (served.memory p p' known known').kept Layout.radarRequest_apart own
    rw [known', Option.map_some, Option.map_some, same]

section

variable (settings : Settings) (technologies : List TechHash)

theorem serves_runDevices (distinct : (w.entities.map (·.id)).Nodup) :
    w.Serves deviceFields (w.runDevices settings technologies) := by
  have step : ∀ (d : Device) {w : World}, (w.entities.map (·.id)).Nodup →
      w.Serves d.fields (d.run settings technologies w) ∧
        ((d.run settings technologies w).entities.map (·.id)).Nodup := by
    intro d w distinct
    have serves := serves_device settings technologies distinct d
    exact ⟨serves, by rwa [serves.ids]⟩
  obtain ⟨console, distinct⟩ := step .console distinct
  obtain ⟨navigation, distinct⟩ := step .navigation distinct
  obtain ⟨drive, distinct⟩ := step .drive distinct
  obtain ⟨radar, distinct⟩ := step .radar distinct
  obtain ⟨turret, distinct⟩ := step .turret distinct
  obtain ⟨extractor, distinct⟩ := step .extractor distinct
  obtain ⟨transporter, distinct⟩ := step .transporter distinct
  obtain ⟨facility, _⟩ := step .facility distinct
  -- the radar looks at its request only after the console, navigation and the drive have run
  have chassis := ((console.trans navigation fun _ _ _ => rfl).trans drive fun _ _ _ => rfl).trans radar
    fun e e' served => by
      have within : Device.console.fields e ++ Device.navigation.fields e ++ Device.drive.fields e ⊆
          Layout.consoleFields ++ Layout.navigationFields := by
        simp only [Device.fields, List.append_nil]
        split
        · exact List.Subset.refl _
        · exact List.subset_append_right _ _
      simp only [Device.fields, asksRadar_of_served (served.mono within)]
  have attachment := ((turret.again extractor fun e e' => carried_attachment e e').again transporter
    fun e e' => carried_attachment e e').again facility fun e e' => carried_attachment e e'
  refine (chassis.trans attachment fun e e' => carried_attachment e e').mono fun e => ?_
  simp only [deviceFields, Device.fields, List.append_nil]
  exact List.Subset.refl _

theorem serves_deliver (w : World) : w.Serves (fun _ => []) (w.deliver settings).2 := by
  rw [deliver_eq]
  refine List.forall₂_map_right_iff.mpr (List.forall₂_same.mpr fun (e : Entity) _ => ?_)
  obtain ⟨id, team, pose, health, drive, radar, attachment, processor, pendrive⟩ := e
  cases processor with
  | none => exact .refl _
  | some p => exact Entity.served_processor rfl (by simp only [Processor.fixed]) (.refl _)

/-- Projectiles change nothing of an entity that survives but its health. -/
theorem mem_integrate {e' : Entity} (survives : e' ∈ (w.integrate settings).2.entities) :
    ∃ e ∈ w.entities, ∃ health, e' = { e with health } := by
  have kept : ((w.integrate settings).2.entities.map fun e => { e with health := 0 }).Sublist
      (w.entities.map fun e => { e with health := 0 }) := view_integrate (fun _ _ => rfl) settings w
  obtain ⟨e, there, same⟩ := List.mem_map.mp (kept.subset (List.mem_map_of_mem survives))
  have whole := congrArg (fun x : Entity => { x with health := e'.health }) same
  exact ⟨e, there, e'.health, whole.symm⟩

theorem find?_of_mem (distinct : (w.entities.map (·.id)).Nodup) {e : Entity} (there : e ∈ w.entities) :
    w.find? e.id = some e := by
  cases found : w.find? e.id with
  | none => exact absurd (decide_eq_true rfl) (List.find?_eq_none.mp found e there)
  | some q =>
    obtain ⟨there', same⟩ := mem_of_find? found
    rw [eq_of_id distinct there there' same]

/-- Whatever stands in the registers, the devices, the delivery and the projectiles of a tick write to the
memory of an entity that survives them only what its console, navigation, its radar and its own attachment
show, and none of it is the program's. -/
theorem devices_stay_within_fields (distinct : (w.entities.map (·.id)).Nodup) :
    ∀ e' ∈ (((w.runDevices settings technologies).deliver settings).2.integrate settings).2.entities,
      ∃ e, w.find? e'.id = some e ∧ e'.processor.isSome = e.processor.isSome ∧
        ∀ p p', e.processor = some p → e'.processor = some p' →
          Memory.Within (deviceFields e) p.memory p'.memory ∧
            ∀ f ∈ Layout.programFields e.attachment.kind, ∀ address, f.Has address →
              p'.memory.byte address = p.memory.byte address := by
  intro e' survives
  obtain ⟨e₁, delivered, health, rfl⟩ := mem_integrate settings survives
  have serves := (serves_runDevices settings technologies distinct).trans
    (serves_deliver settings (w.runDevices settings technologies)) fun _ _ _ => rfl
  obtain ⟨e, there, served⟩ := serves.exists_before delivered
  rw [List.append_nil] at served
  refine ⟨e, ?_, ?_, fun p p' known known' => ?_⟩
  · rw [show Entity.id { e₁ with health } = e.id from served.id]
    exact find?_of_mem distinct there
  · exact served.isSome
  · have within := served.memory p p' known known'
    refine ⟨within, fun f member address has => ?_⟩
    exact within.kept (fun g inside => Layout.programFields_apart _ f member g (deviceFields_subset e inside)) has

end

/-- A robot with a radar and without attachment, for which a line waits. -/
def scout : Entity :=
  { Entity.build {} ⟨1⟩ { team := ⟨1⟩, radar := true } with
    processor := some { Processor.create .none {} none with
      queues := { Queues.ofCapacities {} with stdin := ⟨4, [[104, 105]]⟩ } } }

/-- The world after a tick's devices, in which there is nothing but the scout. -/
def scouted : World :=
  (((World.runDevices {} [] { entities := [scout] }).deliver {}).2.integrate {}).2

theorem scout_keeps_its_tail :
    ∃ e' ∈ scouted.entities, e'.id = ⟨1⟩ ∧ ∀ p p', scout.processor = some p → e'.processor = some p' →
      ∀ address, 16000 ≤ address → address < 16384 → p'.memory.byte address = p.memory.byte address := by
  have alive : scouted.entities.map (·.id) = [⟨1⟩] := by decide +kernel
  have there : ⟨1⟩ ∈ scouted.entities.map (·.id) := by
    rw [alive]
    exact List.mem_singleton.mpr rfl
  obtain ⟨e', survives, id⟩ := List.mem_map.mp there
  have inside := survives
  unfold scouted at inside
  have within := devices_stay_within_fields {} [] (w := { entities := [scout] }) (by decide)
  obtain ⟨e, found, _, kept⟩ := within e' inside
  rw [id] at found
  have same : scout = e := Option.some.inj found
  subst same
  refine ⟨e', survives, id, fun p p' known known' address low high => ?_⟩
  have tail : ⟨Layout.attachmentBase, Memory.size - Layout.attachmentBase⟩ ∈ Layout.programFields .none := by
    simp [Layout.programFields]
  exact (kept p p' known known').2 _ tail address ⟨low, high⟩

end World

end RobotArena
