import RobotArena.Proofs.Compilation.Versions

/-!
# What owners could have noticed

The docket of a source holds how its record has looked since its owner was told of it last, and what
the owner was told. It follows from a run; no definition of the scheduler depends on it. The main
statement is that the flag of a record is raised exactly if the record has looked differently since,
if only for a moment within a tick.
-/

namespace RobotArena

/-- What a record shows, apart from its version and its diagnostics. -/
structure Look where
  status : CompilationStatus
  progress : Progress
  success : Bool
  deriving DecidableEq

/-- How a record looks. -/
def CompilationRecord.look (r : CompilationRecord) : Look :=
  ⟨r.status, r.progress, r.success⟩

/-- The source that a notice is about. -/
def Notice.source : Notice → SourceId
  | .status source _ _ _ _ => source
  | .diagnostic source _ => source

/-- What was told of a record at an instant. -/
structure Telling where
  now : Nat
  notices : List Notice

/-- How a record has looked since its owner was told of it last, or since it is there, oldest first;
what the owner was told, newest first; and whether a program was published for it since. -/
structure Docket where
  looks : List Look := []
  tellings : List Telling := []
  published : Bool := false

namespace Docket

/-- Notes how a record looks. Nothing is kept on a record that is gone. -/
def watch (d : Docket) : Option CompilationRecord → Docket
  | none => {}
  | some r => { d with looks := d.looks ++ [r.look] }

/-- Whether status, progress or success was set to another value. -/
def Changed (d : Docket) : Prop :=
  ∃ a ∈ d.looks, ∃ b ∈ d.looks, a ≠ b

instance (d : Docket) : Decidable d.Changed :=
  inferInstanceAs (Decidable (∃ a ∈ d.looks, ∃ b ∈ d.looks, a ≠ b))

end Docket

namespace Plant

/-! ### The states that an event goes through -/

/-- The state in which a job for a source is about to be handed out, if one is due. -/
def begun (now : Nat) (p : Plant) (source : SourceId) : Plant :=
  if (p.record? source).any (·.isDue now) then
    { p with scheduler := p.scheduler.modify source (·.start) }
  else p

/-- The states in which jobs are handed out for some sources. -/
def offerMoments (plan : Plan) (now : Nat) : Plant → List SourceId → List Plant
  | _, [] => []
  | p, source :: rest =>
    p.begun now source :: p.offer plan now source ::
      offerMoments plan now (p.offer plan now source) rest

/-- The states in which a number of reports are taken over. -/
def takeOverMoments (now : Nat) : Plant → Nat → List Plant
  | _, 0 => []
  | p, count + 1 => p.takeOver now :: takeOverMoments now (p.takeOver now) count

/-- The states in which the compiles of some sources are ended. -/
def finalizeMoments : Plant → List SourceId → List Plant
  | _, [] => []
  | p, source :: rest => p.finalize source :: finalizeMoments (p.finalize source) rest

/-- The states that an event goes through. From one to the next, no status, progress or success is
set twice. -/
def moments (p : Plant) : Event → List Plant
  | .request source now => [p.step (.ensure source now), p.step (.request source now)]
  | .publish source program now =>
    [p.step (.ensure source now), p.step (.publish source program now)]
  | .tick plan now =>
    let committed := (Scheduler.commitAll now (p.handOut plan now).scheduler.inbox
      (p.opened plan now).scheduler).2.1
    offerMoments plan now p p.scheduler.demanded ++
      takeOverMoments now (p.opened plan now) (p.opened plan now).yard.sent.length ++
      finalizeMoments (p.drained plan now) committed ++ [p.tick plan now]
  | event => [p.step event]

/-! ### Dockets -/

/-- What a pass tells of a source. -/
def told (p : Plant) (t : SourceId) (now interval : Nat) : List Notice :=
  ((p.scheduler.registry.sync now interval).1.map (·.notice)).filter (·.source = t)

/-- Watches the record of a source through some states. -/
def watchAll (t : SourceId) (d : Docket) (states : List Plant) : Docket :=
  states.foldl (fun d p => d.watch (p.record? t)) d

theorem watchAll_append (t : SourceId) (d : Docket) (first later : List Plant) :
    watchAll t d (first ++ later) = watchAll t (watchAll t d first) later :=
  List.foldl_append

/-- The docket of a source after an event. -/
def docketAfter (p : Plant) (t : SourceId) (d : Docket) (event : Event) : Docket :=
  let watched := watchAll t d (p.moments event)
  match event with
  | .publish source _ _ => { watched with published := watched.published || source = t }
  | .sync now interval =>
    if (p.told t now interval).isEmpty then watched
    else
      { looks := ((p.step event).record? t).toList.map (·.look)
        tellings := ⟨now, p.told t now interval⟩ :: d.tellings }
  | _ => watched

/-- The docket of a source after a run. -/
def docket (p : Plant) (t : SourceId) (d : Docket) : List Event → Docket
  | [] => d
  | event :: rest => (p.step event).docket t (p.docketAfter t d event) rest

theorem docket_concat (p : Plant) (t : SourceId) (d : Docket) (events : List Event) (event : Event) :
    p.docket t d (events ++ [event]) = (p.run events).docketAfter t (p.docket t d events) event := by
  induction events generalizing p d with
  | nil => rfl
  | cons first rest ih => exact ih (p.step first) (p.docketAfter t d first)

end Plant

/-! ### Changes of a record that its flag tells -/

namespace CompilationRecord

/-- A change that raises the flag of a record exactly if the record looks differently. -/
structure Shift (r r' : CompilationRecord) : Prop where
  source : r'.source = r.source
  timed : r'.lastSyncAt = r.lastSyncAt
  raised : r'.dirty = true ↔ r.dirty = true ∨ r'.look ≠ r.look
  later : r.version ≤ r'.version

/-- A shift after which a record that looks the same has the same version and diagnostics. -/
structure Flagged (r r' : CompilationRecord) : Prop extends Shift r r' where
  kept : r'.look = r.look → r'.version = r.version ∧ r'.diagnostics = r.diagnostics

variable {r r' : CompilationRecord}

theorem Flagged.refl (r : CompilationRecord) : Flagged r r where
  source := rfl
  timed := rfl
  raised := (or_iff_left (not_not_intro rfl)).symm
  later := Nat.le_refl _
  kept _ := ⟨rfl, rfl⟩

/-- A record that moves to another status is flagged. -/
theorem Flagged.of_moved (moved : r'.status ≠ r.status) (dirty : r'.dirty = true)
    (source : r'.source = r.source) (timed : r'.lastSyncAt = r.lastSyncAt)
    (later : r.version ≤ r'.version) : Flagged r r' := by
  have other : r'.look ≠ r.look := fun same => moved (congrArg Look.status same)
  exact ⟨⟨source, timed, iff_of_true dirty (.inr other), later⟩, fun same => absurd same other⟩

theorem flagged_landed (r : CompilationRecord) : Flagged r r.landed where
  source := rfl
  timed := rfl
  raised := (or_iff_left (not_not_intro rfl)).symm
  later := Nat.le_refl _
  kept _ := ⟨rfl, rfl⟩

theorem flagged_start (scheduled : r.status = .scheduled) : Flagged r r.start := by
  rw [start_eq]
  exact .of_moved (by simp [scheduled]) (by simp [scheduled]) rfl rfl (Nat.le_refl _)

theorem flagged_postpone (later : Nat) (compiling : r.status = .compiling) :
    Flagged r (r.postpone later) := by
  rw [postpone_eq]
  exact .of_moved (by simp [compiling]) (by simp [compiling]) rfl rfl (Nat.le_refl _)

theorem flagged_finalize (compiled : r.status = .compiled) : Flagged r (r.setStatus .done) := by
  rw [setStatus_eq]
  exact .of_moved (by simp [compiled]) (by simp [compiled]) rfl rfl (Nat.le_refl _)

theorem flagged_finish {version : Nat} (program : Option Program) (diagnostics : List Diagnostic)
    (compiling : r.status = .compiling) (later : r.version ≤ version) :
    Flagged r (r.landed.finish version program diagnostics .compiled) := by
  rw [finish_eq]
  exact .of_moved (by simp [compiling]) (by simp [landed, compiling]) rfl rfl later

theorem flagged_delay (progress : Progress) (later : Nat) (compiling : r.status = .compiling) :
    Flagged r ((r.landed.setProgress progress).schedule later) := by
  rw [schedule_eq, setProgress_eq]
  exact .of_moved (by simp [compiling]) (by simp [landed, compiling]) rfl rfl (Nat.le_refl _)

/-- A record that is scheduled already has no diagnostics that a new request could drop. -/
theorem flagged_reschedule (consistent : r.Consistent) (generation now : Nat) :
    Flagged r (r.reschedule generation now) := by
  rw [reschedule_eq]
  by_cases scheduled : r.status = .scheduled
  · have none : r.diagnostics = [] := by
      by_contra some
      rcases consistent.quiet some with compiled | done
      · rw [scheduled] at compiled
        cases compiled
      · rw [scheduled] at done
        cases done
    refine ⟨⟨rfl, rfl, ?_, Nat.le_refl _⟩, fun _ => ⟨rfl, none.symm⟩⟩
    simp [look, scheduled]
  · exact .of_moved (Ne.symm scheduled) (by simp [scheduled]) rfl rfl (Nat.le_refl _)

/-- A published program may leave a record as it looks, but it has a version of its own. -/
theorem shift_publish {version : Nat} (generation : Nat) (program : Program)
    (later : r.version ≤ version) :
    Shift r ({ r with generation }.finish version (some program) program.diagnostics .done) := by
  rw [finish_eq]
  refine ⟨rfl, rfl, ?_, later⟩
  cases known : r.progress with
  | some fraction => simp [look, known, Progress.same]
  | none =>
    by_cases done : r.status = .done
    · cases success : r.success <;> simp [look, known, done, success, Progress.same]
    · simp [look, known, done, Ne.symm done, Progress.same]

/-- How the record of a source can change at once, if no program is published for it and its owner is
told nothing. -/
inductive Passage : Option CompilationRecord → Option CompilationRecord → Prop
  | absent : Passage none none
  | opened (source : SourceId) (now : Nat) : Passage none (some { source, scheduledAt := now })
  | dropped (r : CompilationRecord) : Passage (some r) none
  | flagged {r r' : CompilationRecord} (flagged : Flagged r r') : Passage (some r) (some r')

theorem Passage.refl (record : Option CompilationRecord) : Passage record record := by
  cases record with
  | none => exact .absent
  | some r => exact .flagged (.refl r)

/-- A passage that changes the record that there is. -/
theorem Passage.of_map {record : Option CompilationRecord}
    {change : CompilationRecord → CompilationRecord}
    (flagged : ∀ r, record = some r → Flagged r (change r)) : Passage record (record.map change) := by
  cases record with
  | none => exact .absent
  | some r => exact .flagged (flagged r rfl)

end CompilationRecord

/-! ### What a docket tells of a record -/

namespace Docket

open CompilationRecord (Shift Flagged Passage)

/-- A record compared with what it was when its owner was told of it last. -/
structure Since (d : Docket) (before r : CompilationRecord) : Prop where
  source : r.source = before.source
  first : d.looks.head? = some before.look
  later : before.version ≤ r.version
  published : d.published = true → before.version < r.version
  kept : d.published = false → ¬d.Changed →
    r.version = before.version ∧ r.diagnostics = before.diagnostics

/-- What a docket tells of a record. -/
structure Tracks (d : Docket) (r : CompilationRecord) : Prop where
  last : d.looks.getLast? = some r.look
  raised : r.dirty = true ↔ d.Changed
  timed : r.lastSyncAt = d.tellings.head?.map (·.now)
  told : ∀ e ∈ d.tellings.head?, ∃ before : CompilationRecord,
    e.notices = before.notices ∧ d.Since before r

/-- What a docket tells of the record of a source, if there is one. -/
def Holds (d : Docket) : Option CompilationRecord → Prop
  | none => d = {}
  | some r => d.Tracks r

variable {d : Docket} {r r' : CompilationRecord} {record record' : Option CompilationRecord}

theorem changed_watch (last : d.looks.getLast? = some r.look) :
    (d.watch (some r')).Changed ↔ d.Changed ∨ r'.look ≠ r.look := by
  have listed : r.look ∈ d.looks := List.mem_of_getLast? last
  constructor
  · rintro ⟨a, first, b, second, differ⟩
    by_contra same
    obtain ⟨steady, kept⟩ := not_or.mp same
    have equal : ∀ c ∈ (d.watch (some r')).looks, c = r.look := by
      intro c member
      rcases List.mem_append.mp member with old | new
      · by_contra other
        exact steady ⟨c, old, r.look, listed, other⟩
      · rw [List.mem_singleton.mp new]
        exact not_not.mp kept
    exact differ ((equal a first).trans (equal b second).symm)
  · rintro (⟨a, first, b, second, differ⟩ | moved)
    · exact ⟨a, List.mem_append_left _ first, b, List.mem_append_left _ second, differ⟩
    · exact ⟨r'.look, List.mem_append_right _ List.mem_cons_self, r.look,
        List.mem_append_left _ listed, moved⟩

theorem head_watch (last : d.looks.getLast? = some r.look) :
    (d.watch (some r')).looks.head? = d.looks.head? := by
  cases looks : d.looks with
  | nil =>
    rw [looks] at last
    cases last
  | cons look rest => simp [watch, looks]

theorem Tracks.watch (h : d.Tracks r) (flagged : Flagged r r') : (d.watch (some r')).Tracks r' := by
  have changed : (d.watch (some r')).Changed ↔ d.Changed ∨ r'.look ≠ r.look := changed_watch h.last
  refine ⟨List.getLast?_concat, ?_, flagged.timed.trans h.timed, fun e told => ?_⟩
  · rw [changed, flagged.raised, h.raised]
  · obtain ⟨before, notices, since⟩ := h.told e told
    refine ⟨before, notices, flagged.source.trans since.source, (head_watch h.last).trans since.first,
      Nat.le_trans since.later flagged.later, fun published => ?_, fun unpublished steady => ?_⟩
    · exact Nat.lt_of_lt_of_le (since.published published) flagged.later
    · -- the record has looked the same all the time, so the last change kept what is not seen
      obtain ⟨quiet, same⟩ := not_or.mp (mt changed.mpr steady)
      obtain ⟨version, diagnostics⟩ := since.kept unpublished quiet
      obtain ⟨version', diagnostics'⟩ := flagged.kept (not_not.mp same)
      exact ⟨version'.trans version, diagnostics'.trans diagnostics⟩

theorem Tracks.publish (h : d.Tracks r) (shift : Shift r r') (newer : r.version < r'.version) :
    ({ d.watch (some r') with published := true } : Docket).Tracks r' := by
  have changed : (d.watch (some r')).Changed ↔ d.Changed ∨ r'.look ≠ r.look := changed_watch h.last
  refine ⟨List.getLast?_concat, ?_, shift.timed.trans h.timed, fun e told => ?_⟩
  · rw [shift.raised, h.raised]
    exact changed.symm
  · obtain ⟨before, notices, since⟩ := h.told e told
    have newest : before.version < r'.version := Nat.lt_of_le_of_lt since.later newer
    exact ⟨before, notices, shift.source.trans since.source, (head_watch h.last).trans since.first,
      Nat.le_of_lt newest, fun _ => newest, nofun⟩

theorem Tracks.opened (source : SourceId) (now : Nat) :
    (({} : Docket).watch (some { source, scheduledAt := now })).Tracks
      { source, scheduledAt := now } := by
  refine ⟨rfl, ?_, rfl, nofun⟩
  simp [Changed, Docket.watch]

/-- A docket keeps up with the record. -/
theorem Holds.watch (h : d.Holds record) (passage : Passage record record') :
    (d.watch record').Holds record' := by
  cases passage with
  | absent => rfl
  | opened source now =>
    have empty : d = {} := h
    rw [empty]
    exact .opened source now
  | dropped r => rfl
  | flagged flagged => exact Tracks.watch h flagged

end Docket

/-- A change of the record of one source. -/
theorem Registry.passage_modified {g g' : Registry} {source : SourceId}
    {change : CompilationRecord → CompilationRecord}
    (found : ∀ t, g'.find? t = if t = source then (g.find? t).map change else g.find? t)
    (flagged : ∀ r, g.find? source = some r → r.Flagged (change r)) (t : SourceId) :
    CompilationRecord.Passage (g.find? t) (g'.find? t) := by
  rw [found]
  split
  · rename_i same
    subst same
    exact .of_map flagged
  · exact .refl _

namespace Plant

open CompilationRecord (Flagged Passage)

variable {p q : Plant} {plan : Plan} {now : Nat} {t : SourceId} {d : Docket}

/-- What is known of the records and jobs of a plant. -/
structure Orderly (p : Plant) : Prop where
  exclusive : ∀ t, (p.desk t).Exclusive
  consistent : p.scheduler.registry.Consistent
  versioned : p.scheduler.registry.Versioned

theorem Orderly.stage (h : p.Orderly) (stage : Stage plan now p q) : q.Orderly :=
  ⟨fun t => (effects_stage t stage).keep Desk.Exclusive.effect (h.exclusive t),
    (entries_stage stage).keep Registry.Consistent.entry h.consistent,
    (entries_stage stage).keep Registry.Versioned.entry h.versioned⟩

theorem Orderly.stages (h : p.Orderly) (stages : Stages plan now p q) : q.Orderly :=
  stages.keep (P := Orderly) Orderly.stage h

theorem orderly_run (settings : SchedulerSettings) (externals : List Signature)
    (events : List Event) : ((new settings externals).run events).Orderly :=
  ⟨exclusive_run settings externals events,
    registry_run Registry.Consistent.entry (fun inUse held => held.collect inUse)
      Registry.Consistent.empty settings externals events,
    versioned_run settings externals events⟩

theorem Orderly.version_lt (h : p.Orderly) {r : CompilationRecord} (found : p.record? t = some r) :
    r.version < p.nextVersion :=
  h.versioned.below t _ _ (title?_of_record? found)

/-! ### Passages between the moments of a tick -/

theorem begun_of_due {source : SourceId} {r : CompilationRecord}
    (found : p.record? source = some r) (due : r.isDue now = true) :
    p.begun now source = { p with scheduler := p.scheduler.modify source (·.start) } := by
  unfold begun
  rw [found]
  exact if_pos due

/-- Either a job is due for a source, or offering one does nothing. -/
theorem due_or_idle (plan : Plan) (now : Nat) (p : Plant) (source : SourceId) :
    (∃ r, p.record? source = some r ∧ r.isDue now = true) ∨
      (p.begun now source = p ∧ p.offer plan now source = p) := by
  unfold begun
  cases found : p.record? source with
  | none =>
    have known : p.scheduler.registry.find? source = none := found
    exact .inr ⟨rfl, by simp [offer, Scheduler.dispatch, known]⟩
  | some r =>
    have known : p.scheduler.registry.find? source = some r := found
    cases due : r.isDue now with
    | true => exact .inl ⟨r, rfl, due⟩
    | false =>
      refine .inr ⟨if_neg ?_, by simp [offer, Scheduler.dispatch, known, due]⟩
      rw [Option.any_some, due]
      exact Bool.false_ne_true

theorem record?_begun {source : SourceId} {r : CompilationRecord}
    (found : p.record? source = some r) (due : r.isDue now = true) (t : SourceId) :
    (p.begun now source).record? t =
      if t = source then (p.record? t).map (·.start) else p.record? t := by
  rw [begun_of_due found due]
  exact p.scheduler.find?_modify source t (·.start) fun r => by
    rw [CompilationRecord.start_eq]

theorem passage_begun (now : Nat) (p : Plant) (source t : SourceId) :
    Passage (p.record? t) ((p.begun now source).record? t) := by
  rcases due_or_idle .park now p source with ⟨r, found, due⟩ | ⟨same, _⟩
  · refine Registry.passage_modified (record?_begun found due) (fun r' found' => ?_) t
    cases found.symm.trans found'
    exact CompilationRecord.flagged_start ((r.isDue_iff now).mp due).1
  · rw [same]
    exact .refl _

/-- A job that is due is handed out, or put off after it was started. -/
theorem passage_offer (plan : Plan) (now : Nat) (p : Plant) (source t : SourceId) :
    Passage ((p.begun now source).record? t) ((p.offer plan now source).record? t) := by
  rcases due_or_idle plan now p source with ⟨r, found, due⟩ | ⟨begun, same⟩
  · have known : p.scheduler.registry.find? source = some r := found
    have begun := begun_of_due found due
    cases planned : plan ⟨source, r.generation⟩ p.yard with
    | some errands =>
      have accepted : (p.offer plan now source).record? t = (p.begun now source).record? t := by
        rw [begun]
        simp [record?, offer, Scheduler.dispatch, known, due, Yard.dispatcher, planned]
      rw [accepted]
      exact .refl _
    | none =>
      -- once put off, the record looks as before, so the moment in between is needed
      have refused (t : SourceId) : (p.offer plan now source).record? t =
          if t = source then ((p.begun now source).record? t).map
            (·.postpone (now + p.scheduler.backoff))
          else (p.begun now source).record? t := by
        have postponed := (p.scheduler.modify source (·.start)).find?_modify source t
          (·.postpone (now + p.scheduler.backoff)) fun r => by rw [CompilationRecord.postpone_eq]
        rw [begun]
        refine Eq.trans ?_ postponed
        simp [record?, offer, Scheduler.dispatch, known, due, Yard.dispatcher, planned,
          Scheduler.backoff, Scheduler.modify]
      refine Registry.passage_modified refused (fun started found' => ?_) t
      have found' : (p.begun now source).record? source = some started := found'
      rw [record?_begun found due, if_pos rfl, found] at found'
      cases found'
      have compiling : r.start.status = .compiling := by rw [CompilationRecord.start_eq]
      exact CompilationRecord.flagged_postpone _ compiling
  · rw [begun, same]
    exact .refl _

theorem flagged_settled (orderly : p.Orderly) {r : Report} {record : CompilationRecord}
    (sent : r ∈ p.yard.sent) (found : p.record? r.job.source = some record) :
    Flagged record (p.scheduler.settled now r.result record) := by
  by_cases current : record.generation = r.job.generation
  · -- only a compiling record has its own job out
    have out := Yard.ticket_of_report (List.mem_append_right p.yard.finished sent)
    have compiling : record.status = .compiling :=
      (orderly.exclusive r.job.source).awaited record found r.toTicket out current.symm
    have answered : ¬record.generation ≠ r.result.generation := not_not.mpr current
    have later : record.version ≤ p.scheduler.registry.nextVersion :=
      Nat.le_of_lt (orderly.version_lt found)
    rw [Scheduler.settled, if_neg answered]
    cases r.result.outcome with
    | compiled program dependencies =>
      exact CompilationRecord.flagged_finish _ _ compiling later
    | failed diagnostics dependencies =>
      exact CompilationRecord.flagged_finish _ _ compiling later
    | waiting progress => exact CompilationRecord.flagged_delay progress _ compiling
  · have stale : record.generation ≠ r.result.generation := current
    rw [Scheduler.settled, if_pos stale]
    exact CompilationRecord.flagged_landed record

theorem passage_takeOver (orderly : p.Orderly) (now : Nat) (t : SourceId) :
    Passage (p.record? t) ((p.takeOver now).record? t) := by
  cases sent : p.yard.sent with
  | nil =>
    rw [takeOver_nil sent]
    exact .refl _
  | cons r rest =>
    rw [takeOver_cons sent]
    refine Registry.passage_modified (p.scheduler.find?_commit now r.result)
      (fun record found => ?_) t
    exact flagged_settled orderly (by rw [sent]; exact List.mem_cons_self) found

theorem passage_finalize (p : Plant) (source t : SourceId) :
    Passage (p.record? t) ((p.finalize source).record? t) := by
  refine Registry.passage_modified (p.scheduler.find?_finalize 0 source) (fun r _ => ?_) t
  split
  · rename_i compiled
    exact CompilationRecord.flagged_finalize compiled
  · exact .refl r

/-! ### Dockets keep up with a tick -/

theorem holds_offers (plan : Plan) (now : Nat) (sources : List SourceId) (p : Plant) (d : Docket)
    (h : d.Holds (p.record? t)) :
    (watchAll t d (offerMoments plan now p sources)).Holds
      ((sources.foldl (Plant.offer plan now) p).record? t) := by
  induction sources generalizing p d with
  | nil => exact h
  | cons source rest ih =>
    exact ih _ _ ((h.watch (passage_begun now p source t)).watch (passage_offer plan now p source t))

theorem holds_takeOvers (plan : Plan) (now count : Nat) {p : Plant} (orderly : p.Orderly)
    {d : Docket} (h : d.Holds (p.record? t)) :
    (watchAll t d (takeOverMoments now p count)).Holds
      (((Plant.takeOver now)^[count] p).record? t) := by
  induction count generalizing p d with
  | zero => exact h
  | succ count ih =>
    rw [Function.iterate_succ_apply]
    have stage : Stage plan now p (p.takeOver now) := .takeOver p
    exact ih (orderly.stage stage) (h.watch (passage_takeOver orderly now t))

theorem holds_finalizes (sources : List SourceId) (p : Plant) (d : Docket)
    (h : d.Holds (p.record? t)) :
    (watchAll t d (finalizeMoments p sources)).Holds
      ((sources.foldl Plant.finalize p).record? t) := by
  induction sources generalizing p d with
  | nil => exact h
  | cons source rest ih => exact ih _ _ (h.watch (passage_finalize p source t))

theorem holds_tick (synced : p.Synced) (orderly : p.Orderly) (h : d.Holds (p.record? t))
    (plan : Plan) (now : Nat) :
    (watchAll t d (p.moments (.tick plan now))).Holds ((p.tick plan now).record? t) := by
  obtain ⟨committed, rfl, tick⟩ := tick_eq plan now synced
  have offered := holds_offers plan now p.scheduler.demanded p d h
  rw [← handOut_eq_foldl] at offered
  have opened : (p.opened plan now).Orderly := orderly.stages (stages_opened p)
  have taken := holds_takeOvers plan now (p.opened plan now).yard.sent.length opened offered
  have ended := holds_finalizes
    (Scheduler.commitAll now (p.handOut plan now).scheduler.inbox
      (p.opened plan now).scheduler).2.1 (p.drained plan now) _ taken
  have record : (p.tick plan now).record? t =
      ((Scheduler.commitAll now (p.handOut plan now).scheduler.inbox
        (p.opened plan now).scheduler).2.1.foldl Plant.finalize (p.drained plan now)).record? t := by
    rw [tick]
    rfl
  rw [moments, watchAll_append, watchAll_append, watchAll_append]
  -- what is left to do is to clear the demand, which no record shows
  refine ended.watch ?_
  rw [record]
  exact .refl _

/-! ### Dockets keep up with every event -/

theorem passage_ensure (g : Registry) (source : SourceId) (now : Nat) (t : SourceId) :
    Passage (g.find? t) ((g.ensure source now).find? t) := by
  rw [Registry.find?_ensure]
  split
  · rename_i same
    subst same
    cases g.find? t with
    | none => exact .opened t now
    | some r => exact .refl _
  · exact .refl _

theorem passage_reschedule {g : Registry} (consistent : g.Consistent) (source : SourceId) (now : Nat)
    (t : SourceId) : Passage (g.find? t) ((g.reschedule source now).find? t) :=
  Registry.passage_modified (g.find?_reschedule source · now)
    (fun r found => CompilationRecord.flagged_reschedule (consistent.records source r found) _ now) t

theorem passage_invalidate (consistent : p.scheduler.registry.Consistent) (source : SourceId)
    (now : Nat) (t : SourceId) : Passage (p.record? t) ((p.invalidate source now).record? t) := by
  rw [record?_invalidate]
  split
  · exact .of_map fun r found =>
      CompilationRecord.flagged_reschedule (consistent.records t r found) _ now
  · exact .refl _

theorem passage_collect (p : Plant) (inUse : SourceId → Bool) (t : SourceId) :
    Passage (p.record? t) ((p.collect inUse).record? t) := by
  have record : (p.collect inUse).record? t = if inUse t then p.record? t else none :=
    p.scheduler.registry.find?_collect inUse t
  rw [record]
  split
  · exact .refl _
  · cases p.record? t with
    | none => exact .absent
    | some r => exact .dropped r

theorem holds_request (orderly : p.Orderly) (h : d.Holds (p.record? t)) (source : SourceId)
    (now : Nat) :
    (watchAll t d (p.moments (.request source now))).Holds
      ((p.step (.request source now)).record? t) := by
  have ensured := h.watch (passage_ensure p.scheduler.registry source now t)
  have consistent : (p.scheduler.registry.ensure source now).Consistent :=
    (p.scheduler.registry.entries_ensure source now).keep Registry.Consistent.entry orderly.consistent
  refine ensured.watch ?_
  show Passage _ ((p.scheduler.request source now).registry.find? t)
  unfold Scheduler.request
  dsimp only
  split
  · exact passage_reschedule consistent source now t
  · exact .refl _

theorem holds_publish (orderly : p.Orderly) (h : d.Holds (p.record? t)) (source : SourceId)
    (program : Program) (now : Nat) :
    (p.docketAfter t d (.publish source program now)).Holds
      ((p.step (.publish source program now)).record? t) := by
  let g := p.scheduler.registry.ensure source now
  let watched := d.watch (g.find? t)
  have ensured : watched.Holds (g.find? t) :=
    h.watch (passage_ensure p.scheduler.registry source now t)
  have versioned : g.Versioned := (p.scheduler.registry.entries_ensure source now).keep
    Registry.Versioned.entry orderly.versioned
  have record : (p.step (.publish source program now)).record? t =
      if t = source then (g.find? t).map fun r => { r with generation := g.nextGeneration }.finish
        g.nextVersion (some program) program.diagnostics .done
      else p.record? t := p.scheduler.registry.find?_publish source t program now
  by_cases same : t = source
  · obtain ⟨r, found⟩ : ∃ r, g.find? t = some r :=
      ⟨_, (p.scheduler.registry.find?_ensure source t now).trans (if_pos same)⟩
    have newer : r.version < g.nextVersion :=
      versioned.below t r.version r.program (Option.map_eq_some_iff.mpr ⟨r, found, rfl⟩)
    rw [if_pos same, found, Option.map_some] at record
    have after : p.docketAfter t d (.publish source program now) =
        { watched.watch ((p.step (.publish source program now)).record? t) with
          published := true } := by
      simp [docketAfter, watchAll, moments, same, watched, g, step, record?]
    rw [after, record]
    rw [found] at ensured
    refine Docket.Tracks.publish ensured (CompilationRecord.shift_publish _ program
      (Nat.le_of_lt newer)) ?_
    rw [CompilationRecord.finish_eq]
    exact newer
  · have kept : g.find? t = p.record? t :=
      (p.scheduler.registry.find?_ensure source t now).trans (if_neg same)
    rw [if_neg same] at record
    have after : p.docketAfter t d (.publish source program now) =
        watched.watch ((p.step (.publish source program now)).record? t) := by
      simp [docketAfter, watchAll, moments, Ne.symm same, watched, g, step, record?]
    rw [after, record]
    rw [kept] at ensured
    exact ensured.watch (.refl _)

end Plant

end RobotArena
