import RobotArena.Arena.Tick
import RobotArena.Proofs.Machine.Isolation
import RobotArena.Proofs.World.Course

/-!
# Robots apart from each other

Robots get their slices one after another, and only the sketch and the panel are handed on. So a robot whose
program reaches neither of them ends its slice the same way whatever the other robots are and do, and they
end theirs the same way as without it.
-/

namespace RobotArena

/-! ### One robot -/

theorem Engine.tick_congr (engine : Engine) {g g' : Registry} {p : Processor}
    (record : p.runnable? g = p.runnable? g') (host : Option Host) :
    engine.tick g p host = engine.tick g' p host := by
  unfold Engine.tick
  rw [record]

namespace Entity

variable {settings : EngineSettings} {g g' : Registry} {clock : UInt64} {e e' : Entity}
  {sketch : Sketch} {panel : Panel}

/-- The numbers of the functions that an entity's program calls in a tick. -/
def calls (settings : EngineSettings) (g : Registry) (clock : UInt64) (e : Entity) (sketch : Sketch)
    (panel : Panel) : List Int32 :=
  match e.processor with
  | none => []
  | some p => Engine.calls settings g p (some ⟨e.id, e.team, e.pose, clock, sketch, panel, e.pendrive⟩)

/-- All that an entity's program can reach of its own entity is the same in another one. -/
structure Alike (e e' : Entity) : Prop where
  id : e'.id = e.id
  team : e'.team = e.team
  pose : e'.pose = e.pose
  processor : e'.processor = e.processor
  pendrive : e'.pendrive = e.pendrive

/-- The sketch and the panel pass by an entity that reaches neither. -/
theorem runSlice_alone
    (apart : ∀ number ∈ e.calls settings g clock sketch panel, External.isSharing number = false)
    (sketch' : Sketch) (panel' : Panel) :
    e.runSlice { settings } g clock sketch' panel' =
      ((e.runSlice { settings } g clock sketch panel).1, (e.runSlice { settings } g clock sketch panel).2.1,
        sketch', panel') := by
  obtain ⟨id, team, pose, health, drive, radar, attachment, processor, pendrive⟩ := e
  cases processor with
  | none => rfl
  | some p =>
    have same := Engine.tick_share sketch' panel' apart
    simp only [Option.map_some, Host.share] at same
    simp only [runSlice, same, Engine.reshare]
    rcases Engine.tick { settings } g p (some ⟨id, team, pose, clock, sketch, panel, pendrive⟩) with
      ⟨outcome, p', host⟩
    cases host <;> rfl

theorem Alike.runSlice (alike : e.Alike e')
    (record : ∀ p, e.processor = some p → p.runnable? g = p.runnable? g')
    (apart : ∀ number ∈ e.calls settings g clock sketch panel, External.isSharing number = false)
    (sketch' : Sketch) (panel' : Panel) :
    (e'.runSlice { settings } g' clock sketch' panel').1 = (e.runSlice { settings } g clock sketch panel).1 ∧
      (e.runSlice { settings } g clock sketch panel).2.1.Alike
        (e'.runSlice { settings } g' clock sketch' panel').2.1 := by
  have alone := runSlice_alone apart sketch' panel'
  have outcome := (congrArg (·.1) alone).symm
  have entity := (congrArg (·.2.1) alone).symm
  dsimp only at outcome entity
  rw [outcome, entity]
  clear alone outcome entity apart
  obtain ⟨_, _, _, health, drive, radar, attachment, _, _⟩ := e
  obtain ⟨id, team, pose, health', drive', radar', attachment', processor, pendrive⟩ := e'
  obtain ⟨sameId, sameTeam, samePose, sameProcessor, samePendrive⟩ := alike
  dsimp only at sameId sameTeam samePose sameProcessor samePendrive
  subst sameId sameTeam samePose sameProcessor samePendrive
  cases processor with
  | none => exact ⟨rfl, rfl, rfl, rfl, rfl, rfl⟩
  | some p =>
    simp only [Entity.runSlice, Engine.tick_congr _ (record p rfl)]
    rcases Engine.tick { settings } g' p (some ⟨id, team, pose, clock, sketch', panel', pendrive⟩) with
      ⟨outcome, p', host⟩
    cases host with
    | none => exact ⟨rfl, rfl, rfl, rfl, rfl, rfl⟩
    | some h => exact ⟨rfl, rfl, rfl, rfl, rfl, rfl⟩

end Entity

/-! ### One robot after another -/

namespace World

variable {settings : EngineSettings} {g : Registry} {clock : UInt64} {w : World} {id : EntityId} {e : Entity}

section

variable (engine : Engine) (g : Registry) (clock : UInt64)

theorem runSlices_append (as bs : List Entity) (sketch : Sketch) (panel : Panel) :
    runSlices engine g clock (as ++ bs) sketch panel =
      let first := runSlices engine g clock as sketch panel
      let second := runSlices engine g clock bs first.2.2.1 first.2.2.2
      (first.1 ++ second.1, first.2.1 ++ second.2.1, second.2.2) := by
  induction as generalizing sketch panel with
  | nil => rfl
  | cons a rest ih =>
    simp only [List.cons_append, runSlices, ih, List.append_assoc]

theorem runSlices_cons (e : Entity) (rest : List Entity) (sketch : Sketch) (panel : Panel) :
    runSlices engine g clock (e :: rest) sketch panel =
      let done := e.runSlice engine g clock sketch panel
      let later := runSlices engine g clock rest done.2.2.1 done.2.2.2
      ((done.1.map (e.id, ·)).toList ++ later.1, done.2.1 :: later.2.1, later.2.2) := rfl

theorem ids_runSlices (entities : List Entity) (sketch : Sketch) (panel : Panel) :
    (runSlices engine g clock entities sketch panel).2.1.map (·.id) = entities.map (·.id) :=
  view_runSlices (blindToProcessor_id.runSlice engine g clock) entities sketch panel

theorem mem_outcomes {entities : List Entity} {sketch : Sketch} {panel : Panel} {o : EntityId × TickOutcome}
    (member : o ∈ (runSlices engine g clock entities sketch panel).1) : o.1 ∈ entities.map (·.id) := by
  induction entities generalizing sketch panel with
  | nil => cases member
  | cons e rest ih =>
    simp only [runSlices] at member
    rcases List.mem_append.mp member with here | later
    · cases known : (e.runSlice engine g clock sketch panel).1 with
      | none =>
        rw [known] at here
        cases here
      | some outcome =>
        rw [known] at here
        rw [List.mem_singleton.mp here]
        exact List.mem_cons_self
    · exact List.mem_cons_of_mem _ (ih later)

theorem runPrograms_eq (w : World) :
    w.runPrograms engine g clock =
      let ran := runSlices engine g clock w.entities {} w.panel
      (ran.1, { w with entities := ran.2.1, sketch := ran.2.2.1, panel := ran.2.2.2 }) := rfl

end

/-- The world without an entity. -/
def without (id : EntityId) (w : World) : World :=
  { w with entities := w.entities.filter (·.id ≠ id) }

/-- The sketch and the panel as they are when it is an entity's turn. -/
def turn (settings : EngineSettings) (g : Registry) (clock : UInt64) (w : World) (id : EntityId) :
    Sketch × Panel :=
  (runSlices { settings } g clock (w.entities.takeWhile (·.id ≠ id)) {} w.panel).2.2

/-- The numbers of the functions that an entity's program calls when it is its turn. -/
def callsOf (settings : EngineSettings) (g : Registry) (clock : UInt64) (w : World) (id : EntityId) :
    List Int32 :=
  match w.find? id with
  | none => []
  | some e => e.calls settings g clock (w.turn settings g clock id).1 (w.turn settings g clock id).2

/-- An entity with the entities before and after it, none of which has its number. -/
structure Between (w : World) (id : EntityId) (before : List Entity) (e : Entity) (rest : List Entity) :
    Prop where
  split : w.entities = before ++ e :: rest
  same : e.id = id
  early : id ∉ before.map (·.id)
  late : id ∉ rest.map (·.id)

theorem exists_between (distinct : (w.entities.map (·.id)).Nodup) (there : w.find? id = some e) :
    ∃ before rest, w.Between id before e rest := by
  obtain ⟨same, before, rest, split, _⟩ := List.find?_eq_some_iff_append.mp there
  have same := of_decide_eq_true same
  rw [split, List.map_append, List.map_cons, same] at distinct
  obtain ⟨_, after, apart⟩ := List.nodup_append.mp distinct
  exact ⟨before, rest, split, same, fun early => apart id early id List.mem_cons_self rfl,
    (List.nodup_cons.mp after).1⟩

theorem filter_others {entities : List Entity} (absent : id ∉ entities.map (·.id)) :
    entities.filter (·.id ≠ id) = entities :=
  List.filter_eq_self.mpr fun _ member =>
    decide_eq_true fun same => absent (same ▸ List.mem_map_of_mem member)

theorem filter_outcomes {outcomes : List (EntityId × TickOutcome)} (absent : id ∉ outcomes.map (·.1)) :
    outcomes.filter (·.1 ≠ id) = outcomes :=
  List.filter_eq_self.mpr fun _ member =>
    decide_eq_true fun same => absent (same ▸ List.mem_map_of_mem member)

theorem lookup_outcomes {outcomes : List (EntityId × TickOutcome)} (absent : id ∉ outcomes.map (·.1)) :
    outcomes.lookup id = none := by
  refine List.lookup_eq_none_iff.mpr fun o member => ?_
  simpa using fun same : id = o.1 => absent (same ▸ List.mem_map_of_mem member)

section

variable (engine : Engine) (g : Registry) (clock : UInt64)

theorem not_mem_outcomes {entities : List Entity} (sketch : Sketch) (panel : Panel)
    (absent : id ∉ entities.map (·.id)) :
    id ∉ (runSlices engine g clock entities sketch panel).1.map (·.1) := by
  intro member
  obtain ⟨o, there, same⟩ := List.mem_map.mp member
  exact absent (same ▸ mem_outcomes engine g clock there)

theorem not_mem_ids {entities : List Entity} (sketch : Sketch) (panel : Panel)
    (absent : id ∉ entities.map (·.id)) :
    id ∉ (runSlices engine g clock entities sketch panel).2.1.map (·.id) := by
  rwa [ids_runSlices]

end

namespace Between

variable {before rest : List Entity} (settings : EngineSettings) (g : Registry) (clock : UInt64)

theorem turn (b : w.Between id before e rest) :
    w.turn settings g clock id = (runSlices { settings } g clock before {} w.panel).2.2 := by
  have others : ∀ a ∈ before, decide (a.id ≠ id) = true := fun a member =>
    decide_eq_true fun same => b.early (same ▸ List.mem_map_of_mem member)
  have stop : (e :: rest).takeWhile (·.id ≠ id) = [] := List.takeWhile_cons_of_neg (by simp [b.same])
  rw [World.turn, b.split, List.takeWhile_append_of_pos others, stop, List.append_nil]

theorem kept (b : w.Between id before e rest) (sketch : Sketch) (panel : Panel) :
    (e.runSlice { settings } g clock sketch panel).2.1.id = id :=
  (blindToProcessor_id.runSlice _ _ _ e _ _).trans b.same

/-- After a tick's slices an entity is as its own slice has left it. -/
theorem runPrograms (b : w.Between id before e rest) :
    (w.runPrograms { settings } g clock).2.find? id = some (e.runSlice { settings } g clock
        (w.turn settings g clock id).1 (w.turn settings g clock id).2).2.1 ∧
      (w.runPrograms { settings } g clock).1.lookup id = (e.runSlice { settings } g clock
        (w.turn settings g clock id).1 (w.turn settings g clock id).2).1 := by
  have absent := not_mem_ids { settings } g clock {} w.panel b.early
  have silent := not_mem_outcomes { settings } g clock {} w.panel b.early
  rw [runPrograms_eq, b.split, runSlices_append, b.turn settings g clock]
  generalize runSlices { settings } g clock before {} w.panel = first at absent silent ⊢
  obtain ⟨outcomes, entities, sketch, panel⟩ := first
  dsimp only at absent silent ⊢
  have kept : (e.runSlice { settings } g clock sketch panel).2.1.id = id := b.kept settings g clock sketch panel
  rw [runSlices_cons]
  generalize e.runSlice { settings } g clock sketch panel = done at kept ⊢
  have later := not_mem_outcomes { settings } g clock done.2.2.1 done.2.2.2 b.late
  constructor
  · have none : entities.find? (·.id = id) = none := List.find?_eq_none.mpr fun a member same =>
      absent ((of_decide_eq_true same) ▸ List.mem_map_of_mem member)
    unfold find?
    rw [List.find?_append, none, Option.none_or]
    exact List.find?_cons_of_pos (decide_eq_true kept)
  · dsimp only
    rw [List.lookup_append, lookup_outcomes silent, Option.none_or, List.lookup_append, lookup_outcomes later,
      Option.or_none, b.same]
    cases done.1 with
    | none => rfl
    | some outcome => simp

/-- An entity that reaches neither the sketch nor the panel could as well not be there. -/
theorem runPrograms_without (b : w.Between id before e rest)
    (apart : ∀ number ∈ e.calls settings g clock (w.turn settings g clock id).1 (w.turn settings g clock id).2,
      External.isSharing number = false) :
    (w.without id).runPrograms { settings } g clock =
      ((w.runPrograms { settings } g clock).1.filter (·.1 ≠ id),
        (w.runPrograms { settings } g clock).2.without id) := by
  have absent := not_mem_ids { settings } g clock {} w.panel b.early
  have silent := not_mem_outcomes { settings } g clock {} w.panel b.early
  have left : (w.without id).entities = before ++ rest := by
    have gone : (e :: rest).filter (·.id ≠ id) = rest.filter (·.id ≠ id) :=
      List.filter_cons_of_neg (by simp [b.same])
    rw [without, b.split, List.filter_append, gone, filter_others b.early, filter_others b.late]
  rw [b.turn settings g clock] at apart
  rw [runPrograms_eq, left, runPrograms_eq, b.split, runSlices_append, runSlices_append]
  change (_, World.mk _ _ _ _ _ _) = (List.filter _ _, World.mk (List.filter _ _) _ _ _ _ _)
  dsimp only [without]
  generalize runSlices { settings } g clock before {} w.panel = first at absent silent apart ⊢
  obtain ⟨outcomes, entities, sketch, panel⟩ := first
  dsimp only at absent silent apart ⊢
  have kept : (e.runSlice { settings } g clock sketch panel).2.1.id = id := b.kept settings g clock sketch panel
  -- those behind it get the sketch and the panel that it got itself
  have passed := congrArg (·.2.2) (Entity.runSlice_alone apart sketch panel)
  rw [runSlices_cons]
  generalize e.runSlice { settings } g clock sketch panel = done at kept passed ⊢
  obtain ⟨outcome, e', sketch', panel'⟩ := done
  cases passed
  dsimp only at kept ⊢
  have gone := not_mem_ids { settings } g clock sketch panel b.late
  have quiet := not_mem_outcomes { settings } g clock sketch panel b.late
  have own : (outcome.map (e.id, ·)).toList.filter (·.1 ≠ id) = [] := by
    cases outcome <;> simp [b.same]
  -- of all that the slices have left, the filters take away its outcome and itself, and nothing else
  rw [List.filter_append, List.filter_append, own, filter_outcomes silent, filter_outcomes quiet,
    List.filter_append, List.filter_cons_of_neg (by simp [kept]), filter_others absent, filter_others gone,
    List.nil_append]

end Between

theorem runnable?_congr {p : Processor} {g g' : Registry}
    (record : ∀ source, p.binding = some source → g.find? source = g'.find? source) :
    p.runnable? g = p.runnable? g' := by
  unfold Processor.runnable?
  cases bound : p.binding with
  | none => rfl
  | some source =>
    simp only [Option.bind_eq_bind, Option.bind_some]
    rw [record source bound]

/-- Two worlds have a robot in common, and the record that it is bound to. If its slice in the first one
reaches neither the sketch nor the panel, its slice in the second one leaves it the same and ends the same
way, and without it the first world would be the same for all the others. Whatever a slice reaches, every
other entity begins its own as it was and is in the end as that has left it. -/
theorem slices_are_apart (settings : EngineSettings) (clock : UInt64) {g₁ g₂ : Registry} {w₁ w₂ : World}
    {id : EntityId} {e₁ e₂ : Entity} (distinct₁ : (w₁.entities.map (·.id)).Nodup)
    (distinct₂ : (w₂.entities.map (·.id)).Nodup) (there₁ : w₁.find? id = some e₁)
    (there₂ : w₂.find? id = some e₂) (alike : e₁.Alike e₂)
    (record : ∀ p source, e₁.processor = some p → p.binding = some source →
      g₁.find? source = g₂.find? source)
    (apart : ∀ number ∈ w₁.callsOf settings g₁ clock id, External.isSharing number = false) :
    (∃ e₁' e₂', (w₁.runPrograms { settings } g₁ clock).2.find? id = some e₁' ∧
        (w₂.runPrograms { settings } g₂ clock).2.find? id = some e₂' ∧ e₁'.Alike e₂') ∧
      (w₁.runPrograms { settings } g₁ clock).1.lookup id =
        (w₂.runPrograms { settings } g₂ clock).1.lookup id ∧
      (w₁.without id).runPrograms { settings } g₁ clock =
        ((w₁.runPrograms { settings } g₁ clock).1.filter (·.1 ≠ id),
          (w₁.runPrograms { settings } g₁ clock).2.without id) ∧
      ∀ other d, w₁.find? other = some d → (w₁.runPrograms { settings } g₁ clock).2.find? other =
        some (d.runSlice { settings } g₁ clock (w₁.turn settings g₁ clock other).1
          (w₁.turn settings g₁ clock other).2).2.1 := by
  obtain ⟨before₁, rest₁, between₁⟩ := exists_between distinct₁ there₁
  obtain ⟨before₂, rest₂, between₂⟩ := exists_between distinct₂ there₂
  obtain ⟨entity₁, outcome₁⟩ := between₁.runPrograms settings g₁ clock
  obtain ⟨entity₂, outcome₂⟩ := between₂.runPrograms settings g₂ clock
  rw [callsOf, there₁] at apart
  obtain ⟨outcome, alike'⟩ := alike.runSlice (fun p known => runnable?_congr (record p · known)) apart
    (w₂.turn settings g₂ clock id).1 (w₂.turn settings g₂ clock id).2
  refine ⟨⟨_, _, entity₁, entity₂, alike'⟩, ?_, between₁.runPrograms_without settings g₁ clock apart, ?_⟩
  · rw [outcome₁, outcome₂, outcome]
  · intro other d there
    obtain ⟨before, rest, between⟩ := exists_between distinct₁ there
    exact (between.runPrograms settings g₁ clock).1

/-- A program that asks for the time. -/
def timekeeping : CompilationRecord where
  source := ⟨"time", ⟨1⟩⟩
  status := .done
  success := true
  scheduledAt := 0
  program := some { code := .ofInstructions [{ op := .ext, imm := 26 }, { op := .yield }] }

/-- A program that puts up a button and crashes. -/
def reckless : CompilationRecord where
  source := ⟨"reckless", ⟨2⟩⟩
  status := .done
  success := true
  scheduledAt := 0
  program := some { code := .ofInstructions [{ op := .ext, imm := 27 }, { op := .crash }] }

/-- A robot that runs the program of a record. -/
def running (id : EntityId) (team : TeamId) (r : CompilationRecord) : Entity :=
  { Entity.build {} id { team } with
    processor := some { Processor.create .none {} none with binding := some r.source } }

theorem timekeeper_does_not_notice :
    let crowd : World := { entities := [running ⟨1⟩ ⟨1⟩ reckless, running ⟨2⟩ ⟨2⟩ timekeeping] }
    let alone : World := { entities := [running ⟨2⟩ ⟨2⟩ timekeeping], panel := { nextId := 7 } }
    crowd.callsOf {} { records := [reckless, timekeeping] } 5 ⟨2⟩ = [26] ∧
      ((crowd.runPrograms {} { records := [reckless, timekeeping] } 5).1.lookup ⟨2⟩ =
        (alone.runPrograms {} { records := [timekeeping] } 5).1.lookup ⟨2⟩) := by
  intro crowd alone
  have calls : crowd.callsOf {} { records := [reckless, timekeeping] } 5 ⟨2⟩ = [26] := by decide +kernel
  refine ⟨calls, ?_⟩
  have record : ∀ p source, (running ⟨2⟩ ⟨2⟩ timekeeping).processor = some p → p.binding = some source →
      Registry.find? { records := [reckless, timekeeping] } source =
        Registry.find? { records := [timekeeping] } source := by
    intro p source known bound
    cases known
    cases bound
    rfl
  have there : crowd.find? ⟨2⟩ = some (running ⟨2⟩ ⟨2⟩ timekeeping) := rfl
  have there' : alone.find? ⟨2⟩ = some (running ⟨2⟩ ⟨2⟩ timekeeping) := rfl
  have apart : ∀ number ∈ crowd.callsOf {} { records := [reckless, timekeeping] } 5 ⟨2⟩,
      External.isSharing number = false := by
    intro number called
    rw [calls, List.mem_singleton] at called
    rw [called]
    decide +kernel
  exact (slices_are_apart {} 5 (by decide) (by decide) there there' ⟨rfl, rfl, rfl, rfl, rfl⟩ record apart).2.1

end World

end RobotArena
