import Mathlib.Logic.Function.Iterate
import RobotArena.Compilation.Notice
import RobotArena.Proofs.Compilation.Yard

/-!
# A scheduler at work

A plant is a scheduler together with the jobs that it has handed out. Its runs are all sequences of
what hosts and workers can do: sources change, records are asked for, uploads are announced, programs
published, unused records dropped, owners told, errands run, and ticks made with any plan for the
jobs that are handed out meanwhile.
-/

namespace RobotArena

/-- The compile that a record last took over: what it had read, and whether the library already held
another text for some of it when the result was taken over. -/
structure Takeover where
  reading : SourceTexts
  late : Bool

/-- Whether a library holds the texts that were read. -/
def Library.Holds (l : Library) (reading : SourceTexts) : Prop :=
  ∀ x ∈ reading, l.text? x.1 = some x.2

instance (l : Library) (reading : SourceTexts) : Decidable (l.Holds reading) :=
  inferInstanceAs (Decidable (∀ x ∈ reading, l.text? x.1 = some x.2))

/-- Changes what is known of a source; nothing is known of it any more without a new state. -/
def Library.put (l : Library) (source : SourceId) : Option Availability → Library
  | some a => l.set source a
  | none => l.remove source

/-- A scheduler, the jobs that are out, and what each record last took over. -/
structure Plant where
  scheduler : Scheduler := {}
  yard : Yard := {}
  taken : SourceId → Option Takeover := fun _ => none

namespace Plant

/-- A plant in which nothing has happened yet. -/
def new (settings : SchedulerSettings) (externals : List Signature) : Plant :=
  { scheduler := { settings }, yard := { externals } }

/-- The record of a source. -/
def record? (p : Plant) (source : SourceId) : Option CompilationRecord :=
  p.scheduler.registry.find? source

/-- Changes what is known of a source, unnoticed. -/
def supply (p : Plant) (source : SourceId) (state : Option Availability) : Plant :=
  { p with yard := { p.yard with library := p.yard.library.put source state } }

/-- The records that an upload of a source concerns. -/
def concerned (p : Plant) (source : SourceId) : List SourceId :=
  (p.scheduler.targets source).filter fun t => (p.record? t).isSome

/-- Announces an upload of a source, whether or not the scheduler knows it. -/
def invalidate (p : Plant) (source : SourceId) (now : Nat) : Plant :=
  { p with
    scheduler :=
      match p.scheduler.invalidate source now with
      | .ok (_, s) => s
      | .error _ => p.scheduler
    yard := p.yard.mark (p.concerned source).contains Fate.touch }

/-- Publishes a program. -/
def publish (p : Plant) (source : SourceId) (program : Program) (now : Nat) : Plant :=
  { p with
    scheduler :=
      { p.scheduler with registry := p.scheduler.registry.publish source program now }
    yard := p.yard.mark (· = source) Fate.touch }

/-- Drops the records that nobody uses. -/
def collect (p : Plant) (inUse : SourceId → Bool) : Plant :=
  let (gone, scheduler) := p.scheduler.collect inUse
  { scheduler
    yard := p.yard.mark gone.contains Fate.orphan
    taken := fun source => if gone.contains source then none else p.taken source }

/-- Runs errands outside of a tick. -/
def work (p : Plant) (errands : List Errand) : Plant :=
  let (results, yard) := p.yard.performAll errands
  { p with scheduler := p.scheduler.receive results, yard }

/-! ### The stages of a tick -/

/-- Hands out a job for a source if one is due. -/
def offer (plan : Plan) (now : Nat) (p : Plant) (source : SourceId) : Plant :=
  let (scheduler, yard, _) :=
    Scheduler.dispatch (Yard.dispatcher plan) now (p.scheduler, p.yard, 0) source
  { p with scheduler, yard }

/-- The state of a tick in which all jobs have been handed out. -/
def handOut (plan : Plan) (now : Nat) (p : Plant) : Plant :=
  let (scheduler, yard, _) := p.scheduler.demanded.foldl
    (Scheduler.dispatch (Yard.dispatcher plan) now) (p.scheduler, p.yard, 0)
  { p with scheduler, yard }

/-- Whether a report brings a finished compile that answers the latest request for its source. -/
def Answers (p : Plant) (r : Report) : Prop :=
  (p.record? r.job.source).map (·.generation) = some r.job.generation ∧
    r.outcome.dependencies?.isSome

instance (p : Plant) (r : Report) : Decidable (p.Answers r) :=
  inferInstanceAs (Decidable (_ ∧ _))

/-- Takes over the oldest report that was sent. -/
def takeOver (now : Nat) (p : Plant) : Plant :=
  match p.yard.sent with
  | [] => p
  | r :: rest =>
    { scheduler := (p.scheduler.commit now r.result).1
      yard := { p.yard with sent := rest }.mark (· = r.job.source) Fate.overtake
      taken := fun source =>
        if source = r.job.source ∧ p.Answers r then
          some ⟨r.reading, !decide (p.yard.library.Holds r.reading)⟩
        else p.taken source }

/-- Ends the compile of a source that has just finished. -/
def finalize (p : Plant) (source : SourceId) : Plant :=
  { p with scheduler := (Scheduler.finalize (p.scheduler, 0) source).1 }

/-- Changes what the scheduler holds for its next tick. -/
def rearrange (p : Plant) (inbox : List JobResult) (demanded : List SourceId) : Plant :=
  { p with scheduler := { p.scheduler with inbox, demanded } }

/-- The state of a tick in which all jobs have been handed out and nothing is taken over yet. -/
def opened (plan : Plan) (now : Nat) (p : Plant) : Plant :=
  let q := p.handOut plan now
  q.rearrange [] q.scheduler.demanded

/-- A tick of the scheduler. The jobs that are out, and what records have taken over, follow from
taking over all reports that have been sent when the jobs are handed out. -/
def tick (plan : Plan) (now : Nat) (p : Plant) : Plant :=
  let q := p.opened plan now
  { (takeOver now)^[q.yard.sent.length] q with
    scheduler := (p.scheduler.tick (Yard.dispatcher plan) p.yard now).2.1 }

/-- What can happen. An upload changes a source and is announced at once. -/
inductive Event where
  | supply (source : SourceId) (state : Option Availability)
  | upload (source : SourceId) (state : Option Availability) (now : Nat)
  | ensure (source : SourceId) (now : Nat)
  | request (source : SourceId) (now : Nat)
  | invalidate (source : SourceId) (now : Nat)
  | publish (source : SourceId) (program : Program) (now : Nat)
  | collect (inUse : SourceId → Bool)
  | sync (now interval : Nat)
  | work (errands : List Errand)
  | tick (plan : Plan) (now : Nat)

/-- What happens next. -/
def step (p : Plant) : Event → Plant
  | .supply source state => p.supply source state
  | .upload source state now => (p.supply source state).invalidate source now
  | .ensure source now =>
    { p with scheduler := { p.scheduler with registry := p.scheduler.registry.ensure source now } }
  | .request source now => { p with scheduler := p.scheduler.request source now }
  | .invalidate source now => p.invalidate source now
  | .publish source program now => p.publish source program now
  | .collect inUse => p.collect inUse
  | .sync now interval =>
    { p with
      scheduler :=
        { p.scheduler with registry := (p.scheduler.registry.sync now interval).2 } }
  | .work errands => p.work errands
  | .tick plan now => p.tick plan now

/-- A run from a state. -/
def run (p : Plant) (events : List Event) : Plant :=
  events.foldl step p

/-- A run in which each event keeps to a rule. -/
def Follows (rule : Plant → Event → Prop) (p : Plant) : List Event → Prop
  | [] => True
  | event :: rest => rule p event ∧ Follows rule (p.step event) rest

theorem follows_any (p : Plant) (events : List Event) : Follows (fun _ _ => True) p events := by
  induction events generalizing p with
  | nil => trivial
  | cons event rest ih => exact ⟨trivial, ih _⟩

theorem follows_of_forall {rule : Plant → Event → Prop} {events : List Event}
    (each : ∀ event ∈ events, ∀ p, rule p event) (p : Plant) : Follows rule p events := by
  induction events generalizing p with
  | nil => trivial
  | cons event rest ih =>
    exact ⟨each event List.mem_cons_self p,
      ih (fun later member => each later (List.mem_cons_of_mem _ member)) _⟩

theorem follows_and {rule rule' : Plant → Event → Prop} {p : Plant} {events : List Event}
    (first : Follows rule p events) (second : Follows rule' p events) :
    Follows (fun p event => rule p event ∧ rule' p event) p events := by
  induction events generalizing p with
  | nil => trivial
  | cons event rest ih => exact ⟨⟨first.1, second.1⟩, ih first.2 second.2⟩

/-- A state that is kept by each event that keeps to a rule is kept by runs. -/
theorem run_keeps {P : Plant → Prop} {rule : Plant → Event → Prop}
    (step : ∀ p event, P p → rule p event → P (p.step event)) {p : Plant} {events : List Event}
    (start : P p) (follows : Follows rule p events) : P (p.run events) := by
  induction events generalizing p with
  | nil => exact start
  | cons event rest ih => exact ih (step p event start follows.1) follows.2

end Plant

end RobotArena
