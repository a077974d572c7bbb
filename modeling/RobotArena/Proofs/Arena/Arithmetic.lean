import RobotArena.Proofs.Arena.Runs
import RobotArena.Proofs.World.Arithmetic

/-!
# Ticks that overflow

Whatever programs ask for, the arithmetic of a tick overflows only where a facility is given more than it can
count, and where a hit with negative damage gives somebody more health than there can be.
-/

namespace RobotArena

namespace Arena

variable {σ : Type}

/-- The updates of a tick. -/
def updates (a : Arena) (dispatcher : Dispatcher σ) (env : σ) (now : Nat) : List Update :=
  (a.turns dispatcher env now).2.updates a.settings a.technologies

section

variable (a : Arena) (dispatcher : Dispatcher σ) (env : σ) (now : Nat)

theorem overflowed_iff : (a.tick dispatcher env now).1.overflowed = true ↔
    ∃ u ∈ a.updates dispatcher env now, u.computed ≠ u.exact := by
  have told : (a.tick dispatcher env now).1.overflowed = (a.updates dispatcher env now).any (!·.fits) := by
    unfold tick
    rfl
  rw [told, List.any_eq_true]
  simp only [ne_eq, Update.computed_eq_iff, Bool.not_eq_true', Bool.not_eq_true]

variable {a}

/-- The updates of a tick are those of its events; programs need none. -/
theorem updates_eq_log (standard : a.engine.table = .standard) : a.updates dispatcher env now =
    a.world.log a.settings a.technologies
      (eventsOfTick a.engine.settings (a.readied dispatcher env now) (UInt64.ofNat (now / 1000))) := by
  unfold updates eventsOfTick
  rw [turns_eq standard, World.bindAll_eq a.settings a.technologies, World.updates_eq_log, List.append_assoc]
  generalize Device.all.map World.Event.device ++ [World.Event.deliver, World.Event.integrate] = rest
  rfl

end

/-- An update is computed exactly, unless it gives a facility 2^32 units or more, or takes negative damage from
somebody's health that leaves more of it than there can be; that is so in every course of a world and in every
tick of an arena, and while fewer units have been delivered and projectiles do no negative damage, no tick
overflows. Neither a course nor a run adds a robot with the last number, where an arena ends. -/
theorem only_stores_and_health_overflow (settings : Settings) :
    (∀ technologies events, ∀ u ∈ World.log settings technologies {} events, u.computed ≠ u.exact ↔
      (∃ stored cargo, u = .store stored cargo ∧ 4294967296 ≤ stored.toNat + cargo.toNat) ∨
      ∃ health, u = .hit health settings.projectileDamage ∧ 0 < health ∧
        2147483647 < health.toInt - settings.projectileDamage.toInt) ∧
    ∀ (events : List (Season.Event σ)) (dispatcher : Dispatcher σ) (env : σ) (now : Nat),
      let a := run (create settings) events
      ((a.tick dispatcher env now).1.overflowed = true ↔
        (∃ stored cargo, .store stored cargo ∈ a.updates dispatcher env now ∧
          4294967296 ≤ stored.toNat + cargo.toNat) ∨
        ∃ health, .hit health settings.projectileDamage ∈ a.updates dispatcher env now ∧ 0 < health ∧
          2147483647 < health.toInt - settings.projectileDamage.toInt) ∧
      (a.world.total settings < UInt32.size → 0 ≤ settings.projectileDamage →
        (a.tick dispatcher env now).1.overflowed = false) := by
  refine ⟨fun technologies events u member => World.Regular.new.inexact_iff technologies member, ?_⟩
  intro events dispatcher env now a
  have run := (Sound.new settings).descends_run events
  have same : a.settings = settings := run.settings
  have standard : a.engine.table = .standard := (run.sound (Sound.new settings)).standard
  have regular : a.world.Regular settings := by
    obtain ⟨_, world⟩ := run.world
    rw [world]
    exact World.Regular.new.course settings.technologies _
  have updates := updates_eq_log dispatcher env now standard
  rw [same] at updates
  rw [overflowed_iff, updates]
  refine ⟨?_, fun countable harm => ?_⟩
  · constructor
    · rintro ⟨u, member, inexact⟩
      rcases (regular.inexact_iff a.technologies member).mp inexact with
        ⟨stored, cargo, rfl, much⟩ | ⟨health, rfl, alive, much⟩
      · exact .inl ⟨stored, cargo, member, much⟩
      · exact .inr ⟨health, member, alive, much⟩
    · rintro (⟨stored, cargo, member, much⟩ | ⟨health, member, alive, much⟩)
      · exact ⟨_, member, (regular.inexact_iff a.technologies member).mpr (.inl ⟨stored, cargo, rfl, much⟩)⟩
      · exact ⟨_, member, (regular.inexact_iff a.technologies member).mpr (.inr ⟨health, rfl, alive, much⟩)⟩
  · refine Bool.eq_false_iff.mpr fun overflowed => ?_
    obtain ⟨u, member, inexact⟩ := (a.overflowed_iff dispatcher env now).mp overflowed
    rw [updates] at member
    have fit := regular.updates_fit a.technologies harm (eventsOfTick a.engine.settings
      (a.readied dispatcher env now) (UInt64.ofNat (now / 1000))) countable
    exact inexact (u.computed_eq_iff.mpr (fit u member))

/-- A deposit is found. -/
def prospect : List (Season.Event Unit) :=
  [.deed (.deposit ⟨.zero, 30⟩)]

theorem prospect_does_not_overflow :
    ((run (create {}) prospect).tick Season.refuse () 0).1.overflowed = false := by
  have countable : (run (create {}) prospect).world.total {} < UInt32.size := by decide
  exact ((only_stores_and_health_overflow {}).2 prospect Season.refuse () 0).2 countable (by decide)

end Arena

namespace World

/-- Extractors and transporters have room for as much as a word can count. -/
def vast : Settings where
  extractorCapacity := 4294967295
  extractionAmount := 4294967295
  transporterCapacity := 4294967295

/-- All programs ask for an extraction, and for the transfer with a number. -/
def requesting (command : UInt8) : Event :=
  .tend fun _ p => { p with memory := ⟨.replicate 16384 command⟩ }

/-- Units are found, drawn and loaded, and are to be unloaded. -/
def delivery (amount : UInt32) : List Event :=
  [.deposit ⟨.zero, amount⟩, requesting 1, .device .extractor, .device .transporter, requesting 2]

/-- An extractor and a transporter beside a facility, and two deliveries. -/
def haul : List Event :=
  [.spawn { team := ⟨1⟩, attachment := .extractor }, .spawn { team := ⟨1⟩, attachment := .transporter },
    .spawn { team := ⟨1⟩, passive := true, attachment := .facility }] ++
    delivery 4294967295 ++ [.device .transporter] ++ delivery 1

theorem second_delivery_overflows :
    ∃ u ∈ log vast [] {} (haul ++ [.device .transporter]), u.computed ≠ u.exact := by
  decide +kernel

end World

end RobotArena
