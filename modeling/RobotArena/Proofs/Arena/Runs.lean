import RobotArena.Proofs.Arena.Clicks

/-!
# Runs of an arena

A host, its players and its workers do something, or the arena is ticked, again and again. Whatever happens, the
robots stay in the order of their numbers, since no run goes on with the last number given out.
-/

namespace RobotArena

namespace Arena

variable {σ : Type} {a : Arena}

/-- What happens next in an arena. It ends where it would have to give out the last number for robots: it adds
none there, and neither does an event. -/
def follow (a : Arena) : Season.Event σ → Arena
  | .deed d => if a.isOverdue d then a else a.perform d
  | .tick dispatcher env now => a.after dispatcher env now

theorem follow_tick (a : Arena) (dispatcher : Dispatcher σ) (env : σ) (now : Nat) :
    a.follow (.tick dispatcher env now) = a.after dispatcher env now := rfl

theorem follow_deed (a : Arena) (d : Deed) :
    a.follow (.deed d : Season.Event σ) = if a.isOverdue d then a else a.perform d := rfl

/-- An arena after some events. -/
def run (a : Arena) (events : List (Season.Event σ)) : Arena :=
  events.foldl follow a

/-- Programs can call the functions that every arena has, and robots and their numbers are in order. -/
structure Sound (a : Arena) : Prop where
  standard : a.engine.table = .standard
  orderly : a.world.Orderly

/-- One arena comes from another: it is set up in the same way, and its world has gone through some events
since. -/
structure Descends (a b : Arena) : Prop where
  settings : b.settings = a.settings
  technologies : b.technologies = a.technologies
  engine : b.engine = a.engine
  world : ∃ events, b.world = a.world.course a.settings a.technologies events

namespace Descends

theorem refl (a : Arena) : a.Descends a :=
  ⟨rfl, rfl, rfl, [], rfl⟩

theorem trans {b c : Arena} (first : a.Descends b) (second : b.Descends c) : a.Descends c := by
  obtain ⟨early, before⟩ := first.world
  obtain ⟨late, after⟩ := second.world
  refine ⟨second.settings.trans first.settings, second.technologies.trans first.technologies,
    second.engine.trans first.engine, early ++ late, ?_⟩
  rw [after, before, first.settings, first.technologies]
  exact List.foldl_append.symm

theorem sound {b : Arena} (h : a.Descends b) (sound : a.Sound) : b.Sound := by
  obtain ⟨events, world⟩ := h.world
  refine ⟨h.engine ▸ sound.standard, ?_⟩
  rw [world]
  exact World.Orderly.course _ _ sound.orderly events

end Descends

namespace Sound

theorem new (settings : Settings) : (create settings).Sound :=
  ⟨rfl, .nil, fun _ none => absurd none List.not_mem_nil⟩

theorem descends_follow (h : a.Sound) (event : Season.Event σ) : a.Descends (a.follow event) := by
  cases event with
  | deed d =>
    rw [follow_deed]
    split
    · exact .refl a
    · rename_i fits
      obtain ⟨settings, technologies, engine, touched⟩ := a.done_perform d (Bool.eq_false_iff.mpr fits)
      exact ⟨settings, technologies, engine, touched.exists_course h.orderly a.technologies⟩
  | tick dispatcher env now =>
    obtain ⟨settings, technologies, engine⟩ := a.settings_after dispatcher env now
    exact ⟨settings, technologies, engine, _, world_after h.standard dispatcher env now⟩

theorem follow (h : a.Sound) (event : Season.Event σ) : (a.follow event).Sound :=
  (h.descends_follow event).sound h

theorem after (h : a.Sound) (dispatcher : Dispatcher σ) (env : σ) (now : Nat) :
    (a.after dispatcher env now).Sound :=
  h.follow (.tick dispatcher env now)

theorem descends_run (h : a.Sound) (events : List (Season.Event σ)) : a.Descends (a.run events) := by
  induction events generalizing a with
  | nil => exact .refl a
  | cons event later ih => exact (h.descends_follow event).trans (ih (h.follow event))

theorem run (h : a.Sound) (events : List (Season.Event σ)) : (a.run events).Sound :=
  (h.descends_run events).sound h

theorem bound (h : a.Sound) : (a.world.bindAll.entities.map (·.id)).Nodup := by
  rw [World.ids_bindAll]
  exact h.orderly.distinct

end Sound

/-! ### What a tick does -/

section

variable (a : Arena) (dispatcher : Dispatcher σ) (env : σ) (now : Nat)

/-- What came of the robots' turns in a tick, and the world after them. -/
def turns : List (EntityId × TickOutcome) × World :=
  a.world.bindAll.runPrograms a.engine (a.readied dispatcher env now) (UInt64.ofNat (now / 1000))

theorem world_tick : (a.after dispatcher env now).world =
    ((((a.turns dispatcher env now).2.runDevices a.settings a.technologies).deliver a.settings).2.integrate
      a.settings).2 := by
  obtain ⟨settings, world, scheduler, engine, technologies, outbound, ticks, held⟩ := a
  unfold after tick turns readied
  dsimp only

theorem nextId_after : (a.after dispatcher env now).world.nextId = a.world.nextId := by
  rw [world_tick, World.nextId_integrate, World.nextId_deliver, World.nextId_runDevices]
  rfl

end

theorem turns_eq {dispatcher : Dispatcher σ} {env : σ} {now : Nat} (standard : a.engine.table = .standard) :
    a.turns dispatcher env now = a.world.bindAll.runPrograms { settings := a.engine.settings }
      (a.readied dispatcher env now) (UInt64.ofNat (now / 1000)) := by
  obtain ⟨settings, world, scheduler, ⟨engine, table⟩, technologies, outbound, ticks, held⟩ := a
  obtain rfl : table = .standard := standard
  rfl

end Arena

end RobotArena
