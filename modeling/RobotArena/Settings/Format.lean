import RobotArena.Json.Fields
import RobotArena.Json.Reader
import RobotArena.Settings.Basic
import RobotArena.Text.Utf8

/-!
# Settings as JSON

A file may give any part of the settings; what it leaves out keeps its default. Members that are
not known are passed over.
-/

namespace RobotArena

open Json (toNat? toInt? toBool? toTexts? toBinary32?)

/-- The greatest number of 32 bits. -/
def Settings.maxWord : Nat := 0xFFFFFFFF

/-- The greatest number of 64 bits. -/
def Settings.maxLong : Nat := 0xFFFFFFFFFFFFFFFF

/-- A word of 32 bits. -/
def Settings.decodeWord? (value : Json) : Option UInt32 :=
  (value.toNat? maxWord).map UInt32.ofNat

/-- A signed integer of 32 bits. -/
def Settings.decodeSigned? (value : Json) : Option Int32 :=
  (value.toInt? (-0x80000000) 0x7FFFFFFF).map Int32.ofInt

/-- A number of 64 bits. -/
def Settings.decodeLong? (value : Json) : Option Nat :=
  value.toNat? maxLong

open Settings (maxWord decodeWord? decodeSigned? decodeLong?)

/-- The capacities of queues. -/
def QueueCapacities.decode? (value : Json) : Option QueueCapacities := do
  let d : QueueCapacities := {}
  let f ← value.fields? ["inbound", "outbound", "commands", "stdin", "ui_events"]
  let inbound ← f.optional "inbound" d.inbound decodeLong?
  let outbound ← f.optional "outbound" d.outbound decodeLong?
  let commands ← f.optional "commands" d.commands decodeLong?
  let stdin ← f.optional "stdin" d.stdin decodeLong?
  let uiEvents ← f.optional "ui_events" d.uiEvents decodeLong?
  return { inbound, outbound, commands, stdin, uiEvents }

/-- The settings of a scheduler. -/
def SchedulerSettings.decode? (value : Json) : Option SchedulerSettings := do
  let d : SchedulerSettings := {}
  let f ← value.fields? ["retry_backoff", "sync_interval"]
  let retryBackoff ← f.optional "retry_backoff" d.retryBackoff decodeLong?
  let syncInterval ← f.optional "sync_interval" d.syncInterval decodeLong?
  return { retryBackoff, syncInterval }

/-- The settings of an engine. -/
def EngineSettings.decode? (value : Json) : Option EngineSettings := do
  let d : EngineSettings := {}
  let f ← value.fields? ["instruction_budget", "trace_enabled", "trace_capacity"]
  let instructionBudget ← f.optional "instruction_budget" d.instructionBudget (toNat? maxWord)
  let traceEnabled ← f.optional "trace_enabled" d.traceEnabled toBool?
  let traceCapacity ← f.optional "trace_capacity" d.traceCapacity decodeLong?
  return { instructionBudget, traceEnabled, traceCapacity }

namespace Settings

/-- The names of the settings, in order. -/
def names : List String :=
  ["tick_hz", "drive_speed", "drive_turn_rate", "turret_turn_rate", "turret_cooldown_ticks",
    "projectile_speed", "projectile_lifetime_ticks", "projectile_damage", "hit_radius",
    "max_health", "radar_range", "transmission_range", "extraction_radius", "extraction_amount",
    "extractor_capacity", "transfer_reach", "transporter_capacity", "facility_queue_len",
    "research_cost", "known_technologies", "pendrive_blocks", "gc_interval_ticks", "queues",
    "scheduler", "engine"]

/-- The settings of an arena. -/
def decode? (value : Json) : Option Settings := do
  let d : Settings := {}
  let f ← value.fields? names
  let tickRate ← f.optional "tick_hz" d.tickRate (toNat? maxWord)
  let driveSpeed ← f.optional "drive_speed" d.driveSpeed toBinary32?
  let driveTurnRate ← f.optional "drive_turn_rate" d.driveTurnRate toBinary32?
  let turretTurnRate ← f.optional "turret_turn_rate" d.turretTurnRate toBinary32?
  let turretCooldown ← f.optional "turret_cooldown_ticks" d.turretCooldown decodeWord?
  let projectileSpeed ← f.optional "projectile_speed" d.projectileSpeed toBinary32?
  let projectileLifetime ← f.optional "projectile_lifetime_ticks" d.projectileLifetime decodeWord?
  let projectileDamage ← f.optional "projectile_damage" d.projectileDamage decodeSigned?
  let hitRadius ← f.optional "hit_radius" d.hitRadius toBinary32?
  let maxHealth ← f.optional "max_health" d.maxHealth decodeSigned?
  let radarRange ← f.optional "radar_range" d.radarRange toBinary32?
  let transmissionRange ← f.optional "transmission_range" d.transmissionRange toBinary32?
  let extractionRadius ← f.optional "extraction_radius" d.extractionRadius toBinary32?
  let extractionAmount ← f.optional "extraction_amount" d.extractionAmount decodeWord?
  let extractorCapacity ← f.optional "extractor_capacity" d.extractorCapacity decodeWord?
  let transferReach ← f.optional "transfer_reach" d.transferReach toBinary32?
  let transporterCapacity ← f.optional "transporter_capacity" d.transporterCapacity decodeWord?
  let facilityQueueLength ← f.optional "facility_queue_len" d.facilityQueueLength decodeLong?
  let researchCost ← f.optional "research_cost" d.researchCost decodeWord?
  let knownTechnologies ← f.optional "known_technologies" d.knownTechnologies toTexts?
  let pendriveBlocks ← f.optional "pendrive_blocks" d.pendriveBlocks decodeLong?
  let collectionInterval ← f.optional "gc_interval_ticks" d.collectionInterval decodeLong?
  let queues ← f.optional "queues" d.queues QueueCapacities.decode?
  let scheduler ← f.optional "scheduler" d.scheduler SchedulerSettings.decode?
  let engine ← f.optional "engine" d.engine EngineSettings.decode?
  return {
    tickRate, driveSpeed, driveTurnRate, turretTurnRate, turretCooldown, projectileSpeed,
    projectileLifetime, projectileDamage, hitRadius, maxHealth, radarRange, transmissionRange,
    extractionRadius, extractionAmount, extractorCapacity, transferReach, transporterCapacity,
    facilityQueueLength, researchCost, knownTechnologies, pendriveBlocks, collectionInterval,
    queues, scheduler, engine }

end Settings

end RobotArena
