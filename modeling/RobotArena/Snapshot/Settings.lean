import RobotArena.Settings.Basic
import RobotArena.Snapshot.Basic

/-!
# Snapshots of settings
-/

namespace RobotArena

/-- The capacities of queues. -/
def QueueCapacities.snapshot (c : QueueCapacities) : Json :=
  .record [("inbound", .nat c.inbound), ("outbound", .nat c.outbound),
    ("commands", .nat c.commands), ("stdin", .nat c.stdin), ("ui_events", .nat c.uiEvents)]

/-- The settings of a scheduler. -/
def SchedulerSettings.snapshot (s : SchedulerSettings) : Json :=
  .record [("retry_backoff", .nat s.retryBackoff), ("sync_interval", .nat s.syncInterval)]

/-- The settings of an engine. -/
def EngineSettings.snapshot (s : EngineSettings) : Json :=
  .record [("instruction_budget", .nat s.instructionBudget),
    ("trace_enabled", .bool s.traceEnabled), ("trace_capacity", .nat s.traceCapacity)]

/-- All settings, and what is computed from them. -/
def Settings.snapshot (s : Settings) : Json :=
  .record [("tick_hz", .nat s.tickRate), ("drive_speed", s.driveSpeed.snapshot),
    ("drive_turn_rate", s.driveTurnRate.snapshot),
    ("turret_turn_rate", s.turretTurnRate.snapshot),
    ("turret_cooldown_ticks", Snapshot.word s.turretCooldown),
    ("projectile_speed", s.projectileSpeed.snapshot),
    ("projectile_lifetime_ticks", Snapshot.word s.projectileLifetime),
    ("projectile_damage", .int s.projectileDamage.toInt),
    ("hit_radius", s.hitRadius.snapshot), ("max_health", .int s.maxHealth.toInt),
    ("radar_range", s.radarRange.snapshot),
    ("transmission_range", s.transmissionRange.snapshot),
    ("extraction_radius", s.extractionRadius.snapshot),
    ("extraction_amount", Snapshot.word s.extractionAmount),
    ("extractor_capacity", Snapshot.word s.extractorCapacity),
    ("transfer_reach", s.transferReach.snapshot),
    ("transporter_capacity", Snapshot.word s.transporterCapacity),
    ("facility_queue_len", .nat s.facilityQueueLength),
    ("research_cost", Snapshot.word s.researchCost),
    ("known_technologies", .list .text s.knownTechnologies),
    ("pendrive_blocks", .nat s.pendriveBlocks),
    ("gc_interval_ticks", .nat s.collectionInterval), ("queues", s.queues.snapshot),
    ("scheduler", s.scheduler.snapshot), ("engine", s.engine.snapshot),
    ("tick_duration_us", .nat s.tickLength),
    ("technology_hashes", .list (fun h : TechHash => .text h.render) s.technologies)]

end RobotArena
