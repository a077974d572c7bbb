import RobotArena.Proofs.Compilation.Spared
import RobotArena.Proofs.Compilation.Tallies
import RobotArena.Proofs.Compilation.Tellings

/-!
# Waiting after a failed attempt

An attempt to compile a source fails if the dispatcher refuses the job, or if the result says that
the job has to wait. The record then rests: no job for it is due before the backoff has passed,
unless an upload concerns the source. A record that is done rests for as long.
-/

namespace RobotArena

/-- Whether no job for a record will be due before an instant. -/
def CompilationRecord.Rests (r : CompilationRecord) (due : Nat) : Prop :=
  r.status = .done ∨ (r.status = .scheduled ∧ due ≤ r.scheduledAt)

namespace CompilationRecord.Rests

variable {r r' : CompilationRecord} {due now : Nat}

theorem not_due (rests : r.Rests due) (early : now < due) : ¬r.isDue now = true := by
  rw [isDue_iff]
  rintro ⟨waiting, _, ready⟩
  rcases rests with done | ⟨_, later⟩
  · rw [done] at waiting
    cases waiting
  · omega

theorem settled (rests : r.Rests due) :
    r.status ≠ .none ∧ r.status ≠ .compiling ∧ r.status ≠ .compiled := by
  rcases rests with done | ⟨scheduled, _⟩
  · simp [done]
  · simp [scheduled]

theorem congr (rests : r.Rests due) (status : r'.status = r.status)
    (scheduledAt : r'.scheduledAt = r.scheduledAt) : r'.Rests due := by
  rwa [Rests, status, scheduledAt]

end CompilationRecord.Rests

namespace Scheduler

variable {s : Scheduler} {now : Nat}

/-! ### Settings stay -/

theorem settings_commit (s : Scheduler) (now : Nat) (result : JobResult) :
    (s.commit now result).1.settings = s.settings := by
  unfold commit
  split
  · rfl
  · dsimp only
    split
    · rfl
    · split <;> rfl

theorem settings_commitAll (now : Nat) (results : List JobResult) (s : Scheduler) :
    (commitAll now results s).1.settings = s.settings := by
  induction results generalizing s with
  | nil => rfl
  | cons result rest ih => rw [commitAll_cons, ih, settings_commit]

theorem settings_dispatches {σ : Type} (dispatcher : Dispatcher σ) (now : Nat)
    (sources : List SourceId) (state : Scheduler × σ × Nat) :
    (sources.foldl (dispatch dispatcher now) state).1.settings = state.1.settings := by
  induction sources generalizing state with
  | nil => rfl
  | cons source rest ih =>
    exact (ih _).trans (settings_dispatch dispatcher now state.1 state.2.1 state.2.2 source)

theorem settings_tick {σ : Type} (s : Scheduler) (dispatcher : Dispatcher σ) (env : σ) (now : Nat) :
    (s.tick dispatcher env now).2.1.settings = s.settings := by
  let handed := s.handedOut dispatcher env now
  let drained := commitAll now handed.inbox { handed with inbox := [] }
  have handed : handed.settings = s.settings := settings_dispatches dispatcher now s.demanded _
  show (finalizeAll drained.2.1 drained.1).settings = s.settings
  rw [finalizeAll_eq]
  exact (settings_commitAll now _ _).trans handed

/-! ### A result that says that its job has to wait -/

theorem settled_delayed (s : Scheduler) (now : Nat) {result : JobResult} {r : CompilationRecord}
    (current : r.generation = result.generation) (waits : result.outcome.dependencies?.isNone) :
    ∃ progress, s.settled now result r =
      (r.landed.setProgress progress).schedule (now + s.backoff) := by
  have current : ¬r.generation ≠ result.generation := Decidable.not_not.mpr current
  rw [settled, if_neg current]
  cases outcome : result.outcome with
  | waiting progress => exact ⟨progress, rfl⟩
  | compiled program dependencies =>
    rw [outcome] at waits
    cases waits
  | failed diagnostics dependencies =>
    rw [outcome] at waits
    cases waits

/-- Such a result puts its record off, and no result after it changes that. -/
theorem delayed_commitAll (now : Nat) (before after : List JobResult) {result : JobResult}
    (distinct : JobResult.Distinct (result :: after)) (delays : s.Delays result) :
    ∃ r, (commitAll now (before ++ result :: after) s).1.registry.find? result.source = some r ∧
      r.status = .scheduled ∧ r.scheduledAt = now + s.backoff := by
  let earlier := (commitAll now before s).1
  have expected : earlier.Expects result := (expects_commitAll now before s result).mpr delays.1
  obtain ⟨r, found, generation⟩ := Option.map_eq_some_iff.mp expected
  have backoff : earlier.backoff = s.backoff := by
    rw [Scheduler.backoff, Scheduler.backoff, settings_commitAll]
  obtain ⟨progress, delayed⟩ := earlier.settled_delayed now generation delays.2
  have put := earlier.find?_commit now result result.source
  rw [if_pos rfl, found, Option.map_some, delayed, CompilationRecord.schedule_eq, backoff] at put
  have kept := (commitAll_unexpected now after (earlier.commit now result).1
    (unexpected_rest distinct expected)).1
  rw [put] at kept
  rw [commitAll_append, commitAll_cons]
  obtain ⟨r', found', same⟩ := Option.map_eq_some_iff.mp kept
  refine ⟨r', found', (congrArg (·.status) same).trans rfl, ?_⟩
  exact (congrArg (·.scheduledAt) same).trans rfl

end Scheduler

namespace Plant

variable {p q : Plant} {plan : Plan} {now due : Nat} {t : SourceId} {event : Event}

/-- Whether no job for a source will be due before an instant. -/
def Rests (p : Plant) (t : SourceId) (due : Nat) : Prop :=
  ∃ r, p.record? t = some r ∧ r.Rests due

/-- Whether an attempt to compile a source fails in a tick. -/
def Fails (p : Plant) (plan : Plan) (now : Nat) (t : SourceId) : Prop :=
  (∃ handing ∈ p.handed plan now, handing.job.source = t ∧ handing.taken = false) ∨
    ∃ result ∈ (p.handOut plan now).scheduler.inbox, result.source = t ∧
      (p.handOut plan now).scheduler.Delays result

theorem Rests.of_map {record : Option CompilationRecord} {change : CompilationRecord → CompilationRecord}
    (rests : ∃ r, record = some r ∧ r.Rests due)
    (kept : ∀ r, r.Rests due → record = some r → (change r).Rests due) :
    ∃ r, record.map change = some r ∧ r.Rests due := by
  obtain ⟨r, rfl, rests⟩ := rests
  exact ⟨change r, rfl, kept r rests rfl⟩

theorem Rests.stage (rests : p.Rests t due) (exclusive : (p.desk t).Exclusive) (early : now < due)
    (stage : Stage plan now p q) : q.Rests t due := by
  cases stage with
  | offer source =>
    by_cases same : t = source
    · subst same
      obtain ⟨r, found, rests⟩ := rests
      rcases p.offer_cases plan now t with idle | ⟨r', found', ready, _⟩
      · rw [idle]
        exact ⟨r, found, rests⟩
      · cases found.symm.trans found'
        exact absurd ready (rests.not_due early)
    · have kept : (p.offer plan now source).record? t = p.record? t :=
        Scheduler.find?_dispatch_other (Yard.dispatcher plan) now p.scheduler p.yard 0 same
      rw [Rests, kept]
      exact rests
  | rearrange inbox demanded => exact rests
  | takeOver =>
    cases sent : p.yard.sent with
    | nil => rwa [takeOver_nil sent]
    | cons r rest =>
      have record : (p.takenOver now r rest).record? t =
          if t = r.job.source then (p.record? t).map (p.scheduler.settled now r.result)
          else p.record? t := p.scheduler.find?_commit now r.result t
      rw [takeOver_cons sent, Rests, record]
      split
      · rename_i own
        subst own
        refine Rests.of_map rests fun before rests found => ?_
        -- only a record that is compiling expects the result
        have stale : before.generation ≠ r.result.generation := by
          intro current
          have member : r ∈ p.yard.sent := by
            rw [sent]
            exact List.mem_cons_self
          have out := Yard.ticket_of_report (List.mem_append_right p.yard.finished member)
          exact rests.settled.2.1 (exclusive.awaited before found r.toTicket out current.symm)
        rw [Scheduler.settled, if_pos stale]
        exact rests.congr rfl rfl
      · exact rests
  | finalize source =>
    have record : (p.finalize source).record? t = _ := p.scheduler.find?_finalize 0 source t
    rw [Rests, record]
    split
    · refine Rests.of_map rests fun r rests _ => ?_
      rwa [if_neg rests.settled.2.2]
    · exact rests

theorem Rests.stages (rests : p.Rests t due) (exclusive : (p.desk t).Exclusive) (early : now < due)
    (stages : Stages plan now p q) : q.Rests t due := by
  have kept {p q : Plant} (h : (p.desk t).Exclusive ∧ p.Rests t due) (stage : Stage plan now p q) :
      (q.desk t).Exclusive ∧ q.Rests t due :=
    ⟨(effects_stage t stage).keep Desk.Exclusive.effect h.1, h.2.stage h.1 early stage⟩
  exact (stages.keep (P := fun p => (p.desk t).Exclusive ∧ p.Rests t due) kept ⟨exclusive, rests⟩).2

theorem record?_request {r : CompilationRecord} (found : p.record? t = some r)
    (begun : r.status ≠ .none) (source : SourceId) (now : Nat) :
    (p.step (.request source now)).record? t = some r := by
  have held := Registry.find?_ensure_found found source now
  show (p.scheduler.request source now).registry.find? t = some r
  unfold Scheduler.request
  dsimp only
  split
  · rename_i fresh
    rw [Registry.find?_reschedule, held]
    split
    · rename_i same
      subst same
      rw [held, Option.any_some, decide_eq_true_eq] at fresh
      exact absurd fresh begun
    · rfl
  · exact held

/-- An event that spares a source lets it rest, unless it is a tick that comes late enough. -/
theorem Rests.step (rests : p.Rests t due) (synced : p.Synced) (exclusive : (p.desk t).Exclusive)
    (spared : p.Spares t event) (early : ∀ plan now, event = .tick plan now → now < due) :
    (p.step event).Rests t due := by
  cases event with
  | supply source state => exact rests
  | upload source state now =>
    have kept : (p.step (.upload source state now)).record? t = p.record? t :=
      record?_invalidate_other (p := p.supply source state) now spared
    rw [Rests, kept]
    exact rests
  | ensure source now =>
    obtain ⟨r, found, rests⟩ := rests
    exact ⟨r, Registry.find?_ensure_found found source now, rests⟩
  | request source now =>
    obtain ⟨r, found, rests⟩ := rests
    exact ⟨r, record?_request found rests.settled.1 source now, rests⟩
  | invalidate source now =>
    rw [Rests, Plant.step, record?_invalidate_other now spared]
    exact rests
  | publish source program now =>
    have published : (p.step (.publish source program now)).record? t = _ :=
      p.scheduler.registry.find?_publish source t program now
    rw [Rests, published]
    split
    · rename_i same
      subst same
      rw [Registry.find?_ensure, if_pos rfl, Option.map_some, CompilationRecord.finish_eq]
      exact ⟨_, rfl, .inl rfl⟩
    · exact rests
  | collect inUse =>
    have used : inUse t = true := spared
    have kept : (p.step (.collect inUse)).record? t = _ :=
      p.scheduler.registry.find?_collect inUse t
    rw [Rests, kept, if_pos used]
    exact rests
  | sync now interval =>
    have told : (p.step (.sync now interval)).record? t = _ :=
      p.scheduler.registry.find?_sync now interval t
    rw [Rests, told]
    refine Rests.of_map rests fun r rests _ => ?_
    split
    · exact rests.congr rfl rfl
    · exact rests
  | work errands => exact rests
  | tick plan now => exact rests.stages exclusive (early plan now rfl) (stages_tick synced)

/-- A source for which an attempt fails rests until the end of the backoff. -/
theorem rests_of_fails (synced : p.Synced) (exclusive : ∀ t, (p.desk t).Exclusive)
    (distinct : p.scheduler.demanded.Nodup) (fails : p.Fails plan now t)
    (positive : 0 < p.scheduler.backoff) :
    (p.tick plan now).Rests t (now + p.scheduler.backoff) := by
  have early : now < now + p.scheduler.backoff := Nat.lt_add_of_pos_right positive
  have opened (t : SourceId) : ((p.opened plan now).desk t).Exclusive :=
    (effects_stages t (stages_opened p)).keep Desk.Exclusive.effect (exclusive t)
  rcases fails with ⟨handing, member, rfl, refused⟩ | ⟨result, member, rfl, delays⟩
  · rw [handed, Scheduler.handed_eq] at member
    obtain ⟨r, found, scheduled, put⟩ := Scheduler.refused_handing distinct member refused
    have rests : (p.opened plan now).Rests handing.job.source (now + p.scheduler.backoff) :=
      ⟨r, found, .inr ⟨scheduled, Nat.le_of_eq put.symm⟩⟩
    exact rests.stages (opened _) early ((stages_drained p).trans (stages_closed synced))
  · have inbox : (p.handOut plan now).scheduler.inbox =
        (p.opened plan now).yard.sent.map Report.result := handOut_synced plan now synced
    have apart : JobResult.Distinct (p.handOut plan now).scheduler.inbox := by
      rw [inbox]
      exact distinct_sent opened
    have drained : (p.drained plan now).scheduler = _ := drained_scheduler synced
    obtain ⟨before, after, split⟩ := List.append_of_mem member
    rw [split] at apart drained
    have delays : (p.opened plan now).scheduler.Delays result := delays
    have settings : (p.opened plan now).scheduler.settings = p.scheduler.settings :=
      Scheduler.settings_dispatches (Yard.dispatcher plan) now _ (p.scheduler, p.yard, 0)
    obtain ⟨r, found, scheduled, put⟩ := Scheduler.delayed_commitAll now before after
      (List.pairwise_append.mp apart).2.1 delays
    rw [← drained] at found
    rw [Scheduler.backoff, settings] at put
    have rests : (p.drained plan now).Rests result.source (now + p.scheduler.backoff) :=
      ⟨r, found, .inr ⟨scheduled, Nat.le_of_eq put.symm⟩⟩
    have exclusive := (effects_stages result.source (stages_drained p)).keep Desk.Exclusive.effect
      (opened _)
    exact rests.stages exclusive early (stages_closed synced)

/-! ### Runs -/

theorem settings_step (p : Plant) (event : Event) :
    (p.step event).scheduler.settings = p.scheduler.settings := by
  cases event with
  | upload source state now =>
    rw [step, invalidate_scheduler]
    rfl
  | invalidate source now =>
    rw [step, invalidate_scheduler]
  | tick plan now => exact p.scheduler.settings_tick (Yard.dispatcher plan) p.yard now
  | _ => rfl

theorem settings_run (settings : SchedulerSettings) (externals : List Signature)
    (events : List Event) :
    ((new settings externals).run events).scheduler.settings = settings :=
  run_keeps (P := fun p => p.scheduler.settings = settings)
    (fun p event same _ => (p.settings_step event).trans same) rfl (follows_any _ events)

theorem rests_run (settings : SchedulerSettings) (externals : List Signature)
    {events later : List Event} (rests : ((new settings externals).run events).Rests t due)
    (spared : Follows (·.Spares t) ((new settings externals).run events) later)
    (early : ∀ plan now, Event.tick plan now ∈ later → now < due) :
    ((new settings externals).run (events ++ later)).Rests t due := by
  have early : Follows (fun _ event => ∀ plan now, event = .tick plan now → now < due)
      ((new settings externals).run events) later := by
    refine follows_of_forall (fun event member _ plan now same => early plan now ?_) _
    rwa [← same]
  refine reached_keeps (P := fun p => p.Rests t due) (fun past event rests rule => ?_) rests
    (follows_and spared early)
  exact rests.step (run_synced settings externals past) (exclusive_run settings externals past t)
    rule.1 rule.2

theorem not_handed_of_rests (settings : SchedulerSettings) (externals : List Signature)
    (events : List Event) (plan : Plan) {now : Nat} (early : now < due)
    (rests : ((new settings externals).run events).Rests t due) :
    t ∉ (((new settings externals).run events).handed plan now).map (·.job.source) := by
  rw [(due_jobs_are_handed_out settings externals events plan now).2]
  rintro ⟨_, r, found, ready⟩
  obtain ⟨r', found', rests⟩ := rests
  cases found.symm.trans found'
  exact rests.not_due early ready

theorem instant_le_last {events : List Event} {event last : Event} {now end' : Nat}
    (ordered : ((events ++ [last]).filterMap Event.instant?).Pairwise (· ≤ ·))
    (member : event ∈ events) (at' : event.instant? = some now) (final : last.instant? = some end') :
    now ≤ end' := by
  rw [List.filterMap_append] at ordered
  refine (List.pairwise_append.mp ordered).2.2 now ?_ end' ?_
  · exact List.mem_filterMap.mpr ⟨event, member, at'⟩
  · exact List.mem_filterMap.mpr ⟨last, List.mem_cons_self, final⟩

/-- In every run, a tick hands out jobs for different sources that were asked for since the last one.
After an attempt to compile a source has failed, none is handed out for it before the backoff has
passed, unless an upload concerns it or its record is dropped, and none after its compile is done. -/
theorem attempts_keep_their_distance (settings : SchedulerSettings) (externals : List Signature)
    (events : List Event) (plan : Plan) (now : Nat)
    (ordered : ((events ++ [Event.tick plan now]).filterMap Event.instant?).Pairwise (· ≤ ·)) :
    let start := new settings externals
    let sources := ((start.run events).handed plan now).map (·.job.source)
    sources.Nodup ∧
    (∀ t ∈ sources, Asked events t) ∧
    (∀ before plan' at' after t, events = before ++ Event.tick plan' at' :: after →
      (start.run before).Fails plan' at' t →
      Follows (·.Spares t) ((start.run before).step (.tick plan' at')) after →
      now < at' + settings.retryBackoff * 1000 → t ∉ sources) ∧
    ∀ before after t, events = before ++ after → (start.run before).status? t = some .done →
      Follows (·.Spares t) (start.run before) after → t ∉ sources := by
  intro start sources
  obtain ⟨distinct, handed⟩ := due_jobs_are_handed_out settings externals events plan now
  refine ⟨distinct, fun t member => ((handed t).mp member).1, ?_, ?_⟩
  · rintro before plan' at' after t rfl fails spared early
    have backoff : (start.run before).scheduler.backoff = settings.retryBackoff * 1000 :=
      congrArg (·.retryBackoff * 1000) (settings_run settings externals before)
    have past : at' ≤ now := instant_le_last ordered (List.mem_append_right _ List.mem_cons_self) rfl rfl
    have positive : 0 < (start.run before).scheduler.backoff := by
      rw [backoff]
      omega
    have rests := rests_of_fails (run_synced settings externals before)
      (exclusive_run settings externals before) (demanding_run settings externals before).distinct
      fails positive
    rw [backoff] at rests
    have next : start.run (before ++ [Event.tick plan' at']) =
        (start.run before).step (.tick plan' at') := run_append start before [Event.tick plan' at']
    have split : before ++ Event.tick plan' at' :: after = (before ++ [.tick plan' at']) ++ after := by
      simp
    refine not_handed_of_rests settings externals _ plan early ?_
    rw [split]
    refine rests_run settings externals ?_ ?_ fun plan'' now' member => ?_
    · show (start.run _).Rests t _
      rw [next]
      exact rests
    · show Follows _ (start.run _) after
      rw [next]
      exact spared
    · have ended : now' ≤ now := instant_le_last ordered
        (List.mem_append_right _ (List.mem_cons_of_mem _ member)) rfl rfl
      omega
  · rintro before after t rfl done spared
    have stays := done_stays settings externals done spared
    obtain ⟨r, found, status⟩ := status?_eq_some.mp stays
    exact not_handed_of_rests settings externals _ plan (Nat.lt_succ_self now)
      ⟨r, found, .inl status⟩

/-- A source that is missing is asked for again before the backoff has passed. -/
def retryRun : List Event :=
  [.request (.ofPath "main.asm") 0, .tick .inline 0, .request (.ofPath "main.asm") 4999999]

theorem missing_source_is_not_retried_early :
    let p := (new {} []).run retryRun
    ((retryRun ++ [Event.tick .inline 4999999]).filterMap Event.instant?).Pairwise (· ≤ ·) ∧
      ((new {} []).run [.request (.ofPath "main.asm") 0]).Fails .inline 0 (.ofPath "main.asm") ∧
      .ofPath "main.asm" ∉ (p.handed .inline 4999999).map (·.job.source) ∧
      .ofPath "main.asm" ∈ (p.handed .inline 5000000).map (·.job.source) := by
  intro p
  have ordered : ((retryRun ++ [Event.tick .inline 4999999]).filterMap Event.instant?).Pairwise (· ≤ ·) := by
    decide
  have fails : ((new {} []).run [.request (.ofPath "main.asm") 0]).Fails .inline 0
      (.ofPath "main.asm") := .inr (by decide +kernel)
  have later : .ofPath "main.asm" ∈ (p.handed .inline 5000000).map (·.job.source) := by
    decide +kernel
  have spaced := (attempts_keep_their_distance {} [] retryRun .inline 4999999 ordered).2.2.1
  exact ⟨ordered, fails, spaced [.request (.ofPath "main.asm") 0] .inline 0
    [.request (.ofPath "main.asm") 4999999] _ rfl fails ⟨trivial, trivial⟩ (by decide), later⟩

end Plant

end RobotArena
