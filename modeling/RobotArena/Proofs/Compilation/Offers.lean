import RobotArena.Proofs.Compilation.Versions

/-!
# The jobs that a tick hands out

A dispatcher can note the jobs that it is handed. The main statement is that a tick hands out one job
for each source that was asked for since the last tick and whose record is due, in the order in which
they were asked for, and no others.
-/

namespace RobotArena

/-- A job that a dispatcher is handed, and whether it takes it. -/
structure Handing where
  job : Job
  taken : Bool
  deriving DecidableEq, Repr

/-- Whether a job is taken. -/
def Acceptance.taken : Acceptance → Bool
  | .refused => false
  | .accepted _ => true

/-- A dispatcher that notes the jobs that it is handed. -/
def Dispatcher.noting {σ : Type} (dispatcher : Dispatcher σ) : Dispatcher (σ × List Handing) :=
  fun job env =>
    let (answer, after) := dispatcher job env.1
    (answer, after, env.2 ++ [⟨job, answer.taken⟩])

namespace Scheduler

variable {σ : Type} {dispatcher : Dispatcher σ} {now : Nat} {s : Scheduler} {env : σ} {count : Nat}
  {source t : SourceId}

/-- The job that is due for a source. -/
def dueJob? (s : Scheduler) (now : Nat) (source : SourceId) : Option Job :=
  (s.registry.find? source).bind fun r =>
    if r.isDue now then some ⟨source, r.generation⟩ else none

/-- The jobs that a tick hands to its dispatcher. -/
def handed (s : Scheduler) (dispatcher : Dispatcher σ) (env : σ) (now : Nat) : List Handing :=
  (s.tick dispatcher.noting (env, []) now).2.2.2

/-- The state of a tick in which all jobs have been handed out. -/
def handedOut (s : Scheduler) (dispatcher : Dispatcher σ) (env : σ) (now : Nat) : Scheduler :=
  (s.demanded.foldl (dispatch dispatcher now) (s, env, 0)).1

/-- The jobs that are handed out for some sources. -/
def handings (dispatcher : Dispatcher σ) (now : Nat) :
    Scheduler × σ × Nat → List SourceId → List Handing
  | _, [] => []
  | state, source :: rest =>
    (state.1.dueJob? now source).toList.map
        (fun job => ⟨job, (dispatcher job state.2.1).1.taken⟩) ++
      handings dispatcher now (dispatch dispatcher now state source) rest

theorem dueJob?_eq_some {job : Job} :
    s.dueJob? now source = some job ↔
      ∃ r, s.registry.find? source = some r ∧ r.isDue now = true ∧ job = ⟨source, r.generation⟩ := by
  unfold dueJob?
  constructor
  · intro job
    obtain ⟨r, found, due⟩ := Option.bind_eq_some_iff.mp job
    split at due
    · rename_i yes
      exact ⟨r, found, yes, (Option.some.inj due).symm⟩
    · cases due
  · rintro ⟨r, found, due, rfl⟩
    rw [found, Option.bind_some, if_pos due]

theorem dueJob?_congr {s' : Scheduler} (same : s'.registry.find? t = s.registry.find? t) :
    s'.dueJob? now t = s.dueJob? now t := by
  rw [dueJob?, dueJob?, same]

/-- Handing out a job does nothing, or the job is refused, or it is accepted. -/
theorem dispatch_cases (dispatcher : Dispatcher σ) (now : Nat) (s : Scheduler) (env : σ)
    (count : Nat) (source : SourceId) :
    (s.dueJob? now source = none ∧
      dispatch dispatcher now (s, env, count) source = (s, env, count)) ∨
    ∃ job, s.dueJob? now source = some job ∧
      ((∃ env', dispatcher job env = (.refused, env') ∧
        dispatch dispatcher now (s, env, count) source =
          ((s.modify source (·.start)).modify source (·.postpone (now + s.backoff)), env', count)) ∨
      ∃ results env', dispatcher job env = (.accepted results, env') ∧
        dispatch dispatcher now (s, env, count) source =
          ((s.modify source (·.start)).receive results, env', count + 1)) := by
  cases found : s.registry.find? source with
  | none => exact .inl (by simp [dueJob?, dispatch, found])
  | some r =>
    cases due : r.isDue now with
    | false => exact .inl (by simp [dueJob?, dispatch, found, due])
    | true =>
      refine .inr ⟨⟨source, r.generation⟩, by simp [dueJob?, found, due], ?_⟩
      rcases answer : dispatcher ⟨source, r.generation⟩ env with ⟨acceptance, env'⟩
      cases acceptance with
      | refused =>
        exact .inl ⟨env', rfl, by simp [dispatch, found, due, answer, backoff, modify]⟩
      | accepted results =>
        exact .inr ⟨results, env', rfl, by simp [dispatch, found, due, answer, receive, modify]⟩

theorem find?_started (s : Scheduler) (source t : SourceId) :
    (s.modify source (·.start)).registry.find? t =
      if t = source then (s.registry.find? t).map (·.start) else s.registry.find? t :=
  s.find?_modify source t _ fun r => by rw [CompilationRecord.start_eq]

theorem find?_dispatch_other (dispatcher : Dispatcher σ) (now : Nat) (s : Scheduler) (env : σ)
    (count : Nat) (other : t ≠ source) :
    (dispatch dispatcher now (s, env, count) source).1.registry.find? t = s.registry.find? t := by
  have started := s.find?_started source t
  rw [if_neg other] at started
  rcases dispatch_cases dispatcher now s env count source with
    ⟨_, idle⟩ | ⟨job, _, ⟨env', _, refused⟩ | ⟨results, env', _, accepted⟩⟩
  · rw [idle]
  · have postponed := (s.modify source (·.start)).find?_modify source t
      (·.postpone (now + s.backoff)) fun r => by rw [CompilationRecord.postpone_eq]
    rw [if_neg other, started] at postponed
    rw [refused]
    exact postponed
  · rw [accepted]
    exact started

theorem find?_dispatches_other (dispatcher : Dispatcher σ) (now : Nat) (sources : List SourceId)
    (state : Scheduler × σ × Nat) (other : t ∉ sources) :
    (sources.foldl (dispatch dispatcher now) state).1.registry.find? t =
      state.1.registry.find? t := by
  induction sources generalizing state with
  | nil => rfl
  | cons source rest ih =>
    obtain ⟨first, later⟩ := not_or.mp (mt List.mem_cons.mpr other)
    exact (ih _ later).trans (find?_dispatch_other dispatcher now state.1 state.2.1 state.2.2 first)

/-! ### Noting jobs changes nothing else -/

theorem dispatch_noting (dispatcher : Dispatcher σ) (now : Nat) (s : Scheduler) (env : σ)
    (notes : List Handing) (count : Nat) (source : SourceId) :
    let after := dispatch dispatcher now (s, env, count) source
    dispatch dispatcher.noting now (s, (env, notes), count) source =
      (after.1, (after.2.1, notes ++ (s.dueJob? now source).toList.map
        fun job => ⟨job, (dispatcher job env).1.taken⟩), after.2.2) := by
  cases found : s.registry.find? source with
  | none => simp [dispatch, dueJob?, found]
  | some r =>
    cases due : r.isDue now with
    | false => simp [dispatch, dueJob?, found, due]
    | true =>
      rcases answer : dispatcher ⟨source, r.generation⟩ env with ⟨acceptance, env'⟩
      cases acceptance <;>
        simp [dispatch, dueJob?, found, due, answer, Dispatcher.noting, Acceptance.taken]

theorem dispatches_noting (dispatcher : Dispatcher σ) (now : Nat) (sources : List SourceId)
    (s : Scheduler) (env : σ) (notes : List Handing) (count : Nat) :
    let after := sources.foldl (dispatch dispatcher now) (s, env, count)
    sources.foldl (dispatch dispatcher.noting now) (s, (env, notes), count) =
      (after.1, (after.2.1, notes ++ handings dispatcher now (s, env, count) sources), after.2.2) := by
  induction sources generalizing s env notes count with
  | nil => simp [handings]
  | cons source rest ih =>
    simp only [List.foldl_cons, handings]
    rw [dispatch_noting, ih, List.append_assoc]

theorem handed_eq (s : Scheduler) (dispatcher : Dispatcher σ) (env : σ) (now : Nat) :
    s.handed dispatcher env now = handings dispatcher now (s, env, 0) s.demanded := by
  have noted := dispatches_noting dispatcher now s.demanded s env [] 0
  simp only [handed, tick, noted, List.nil_append]

/-- A dispatcher that notes the jobs that it is handed is as good as one that does not. -/
theorem tick_noting (s : Scheduler) (dispatcher : Dispatcher σ) (env : σ) (now : Nat) :
    let noted := s.tick dispatcher.noting (env, []) now
    let plain := s.tick dispatcher env now
    noted.1 = plain.1 ∧ noted.2.1 = plain.2.1 ∧ noted.2.2.1 = plain.2.2 := by
  have noted := dispatches_noting dispatcher now s.demanded s env [] 0
  simp only [tick, noted, and_self]

/-! ### Each due job is handed out once -/

theorem jobs_handings (dispatcher : Dispatcher σ) (now : Nat) {sources : List SourceId}
    (distinct : sources.Nodup) (s : Scheduler) (env : σ) (count : Nat) :
    (handings dispatcher now (s, env, count) sources).map (·.job) =
      sources.filterMap (s.dueJob? now) := by
  induction sources generalizing s env count with
  | nil => rfl
  | cons source rest ih =>
    obtain ⟨alone, distinct⟩ := List.nodup_cons.mp distinct
    have later : rest.filterMap ((dispatch dispatcher now (s, env, count) source).1.dueJob? now) =
        rest.filterMap (s.dueJob? now) := by
      refine List.filterMap_congr fun t member => dueJob?_congr ?_
      have other : t ≠ source := fun same => alone (same ▸ member)
      exact find?_dispatch_other dispatcher now s env count other
    rw [handings, List.map_append, ih distinct, later, List.map_map]
    cases due : s.dueJob? now source with
    | none => simp [due]
    | some job => simp [due]

theorem sources_dueJobs (s : Scheduler) (now : Nat) (sources : List SourceId) :
    (sources.filterMap (s.dueJob? now)).map (·.source) =
      sources.filter fun t => (s.dueJob? now t).isSome := by
  induction sources with
  | nil => rfl
  | cons source rest ih =>
    rw [List.filterMap_cons, List.filter_cons]
    cases due : s.dueJob? now source with
    | none => exact ih
    | some job =>
      obtain ⟨_, _, _, rfl⟩ := dueJob?_eq_some.mp due
      simp [ih]

theorem sources_handed (distinct : s.demanded.Nodup) (dispatcher : Dispatcher σ) (env : σ)
    (now : Nat) :
    (s.handed dispatcher env now).map (·.job.source) =
      s.demanded.filter fun t => (s.dueJob? now t).isSome := by
  have jobs := jobs_handings dispatcher now distinct s env 0
  rw [← sources_dueJobs, ← jobs, List.map_map, handed_eq]
  rfl

theorem settings_dispatch (dispatcher : Dispatcher σ) (now : Nat) (s : Scheduler) (env : σ)
    (count : Nat) (source : SourceId) :
    (dispatch dispatcher now (s, env, count) source).1.settings = s.settings := by
  rcases dispatch_cases dispatcher now s env count source with
    ⟨_, idle⟩ | ⟨job, _, ⟨env', _, refused⟩ | ⟨results, env', _, accepted⟩⟩
  · rw [idle]
  · rw [refused]
    rfl
  · rw [accepted]
    rfl

theorem refused_dispatch {job : Job} (due : s.dueJob? now source = some job)
    (refused : (dispatcher job env).1.taken = false) :
    ∃ r, (dispatch dispatcher now (s, env, count) source).1.registry.find? source = some r ∧
      r.status = .scheduled ∧ r.scheduledAt = now + s.backoff := by
  obtain ⟨r, found, _, _⟩ := dueJob?_eq_some.mp due
  rcases dispatch_cases dispatcher now s env count source with
    ⟨none, _⟩ | ⟨job', due', ⟨env', _, put⟩ | ⟨results, env', accepted, _⟩⟩
  · rw [due] at none
    cases none
  · have started := s.find?_started source source
    rw [if_pos rfl, found, Option.map_some] at started
    have postponed := (s.modify source (·.start)).find?_modify source source
      (·.postpone (now + s.backoff)) fun r => by rw [CompilationRecord.postpone_eq]
    rw [if_pos rfl, started, Option.map_some] at postponed
    rw [put]
    refine ⟨_, postponed, ?_, ?_⟩
    · rw [CompilationRecord.postpone_eq]
    · rw [CompilationRecord.postpone_eq]
  · cases due.symm.trans due'
    rw [accepted] at refused
    cases refused

/-- A job that is refused is put off until the end of the backoff. -/
theorem refused_handing {sources : List SourceId} (distinct : sources.Nodup) {handing : Handing}
    (member : handing ∈ handings dispatcher now (s, env, count) sources)
    (refused : handing.taken = false) :
    ∃ r, (sources.foldl (dispatch dispatcher now) (s, env, count)).1.registry.find?
        handing.job.source = some r ∧ r.status = .scheduled ∧ r.scheduledAt = now + s.backoff := by
  induction sources generalizing s env count with
  | nil => cases member
  | cons source rest ih =>
    obtain ⟨alone, distinct⟩ := List.nodup_cons.mp distinct
    rw [List.foldl_cons]
    rcases List.mem_append.mp member with here | later
    · obtain ⟨job, listed, rfl⟩ := List.mem_map.mp here
      have due : s.dueJob? now source = some job := Option.mem_toList.mp listed
      obtain ⟨_, _, _, rfl⟩ := dueJob?_eq_some.mp due
      rw [find?_dispatches_other dispatcher now rest _ alone]
      exact refused_dispatch due refused
    · have kept := settings_dispatch dispatcher now s env count source
      generalize dispatch dispatcher now (s, env, count) source = next at later kept ⊢
      obtain ⟨s', env', count'⟩ := next
      have same : s'.settings = s.settings := kept
      rw [backoff, ← same]
      exact ih distinct later

end Scheduler

/-! ### Which sources are asked for -/

/-- Whether an event leaves a source that was asked for so: it is no tick, and it does not drop the
record. -/
def Plant.Event.KeepsAsked (t : SourceId) : Plant.Event → Prop
  | .tick _ _ => False
  | .collect inUse => inUse t = true
  | _ => True

theorem Effect.present {d d' : Desk} (effect : Effect d d') (present : d.record.isSome) :
    d'.record.isSome := by
  cases effect with
  | quiet later same => exact present
  | created source now => rfl
  | dropped => exact present
  | _ => rfl

namespace Plant

variable {p : Plant} {t : SourceId}

/-- Whether a source was asked for since the last tick, and its record has been kept since. -/
def Asked (events : List Event) (t : SourceId) : Prop :=
  ∃ before now after, events = before ++ .request t now :: after ∧
    ∀ event ∈ after, event.KeepsAsked t

theorem asked_concat (events : List Event) (event : Event) (t : SourceId) :
    Asked (events ++ [event]) t ↔
      (∃ now, event = .request t now) ∨ (Asked events t ∧ event.KeepsAsked t) := by
  constructor
  · rintro ⟨before, now, after, split, kept⟩
    rcases List.eq_nil_or_concat after with rfl | ⟨after, last, rfl⟩
    · obtain ⟨_, same⟩ := List.append_inj' split rfl
      exact .inl ⟨now, (List.cons.inj same).1⟩
    · rw [List.concat_eq_append] at split kept
      rw [← List.cons_append, ← List.append_assoc] at split
      obtain ⟨rfl, same⟩ := List.append_inj' split rfl
      cases same
      refine .inr ⟨⟨before, now, after, rfl, fun event member => ?_⟩, ?_⟩
      · exact kept event (List.mem_append_left _ member)
      · exact kept _ (List.mem_append_right _ List.mem_cons_self)
  · rintro (⟨now, rfl⟩ | ⟨⟨before, now, after, rfl, kept⟩, keeps⟩)
    · exact ⟨events, now, [], rfl, List.forall_mem_nil _⟩
    · refine ⟨before, now, after ++ [event], by simp, fun other member => ?_⟩
      rcases List.mem_append.mp member with old | new
      · exact kept other old
      · rw [List.mem_singleton.mp new]
        exact keeps

/-- What is asked for is asked for once, and has a record. -/
structure Demanding (p : Plant) : Prop where
  distinct : p.scheduler.demanded.Nodup
  known : ∀ t ∈ p.scheduler.demanded, (p.record? t).isSome

/-- The sources that are asked for after an event. -/
def demandedAfter (p : Plant) : Event → List SourceId
  | .request source _ =>
    if p.scheduler.demanded.contains source then p.scheduler.demanded
    else p.scheduler.demanded ++ [source]
  | .collect inUse =>
    p.scheduler.demanded.filter (!(p.scheduler.registry.unused inUse).contains ·)
  | .tick _ _ => []
  | _ => p.scheduler.demanded

theorem demanded_step (p : Plant) (event : Event) :
    (p.step event).scheduler.demanded = p.demandedAfter event := by
  cases event with
  | upload source state now =>
    rw [step, invalidate_scheduler]
    rfl
  | invalidate source now =>
    rw [step, invalidate_scheduler]
    rfl
  | _ => rfl

theorem mem_demandedAfter (known : ∀ t ∈ p.scheduler.demanded, (p.record? t).isSome)
    (event : Event) (t : SourceId) :
    t ∈ p.demandedAfter event ↔
      (∃ now, event = .request t now) ∨ (t ∈ p.scheduler.demanded ∧ event.KeepsAsked t) := by
  cases event with
  | request source now =>
    have asked : t ∈ p.demandedAfter (.request source now) ↔
        t = source ∨ t ∈ p.scheduler.demanded := by
      rw [demandedAfter]
      split
      · rename_i listed
        have member : source ∈ p.scheduler.demanded := List.contains_iff_mem.mp listed
        exact ⟨.inr, fun either => either.elim (fun same => same ▸ member) id⟩
      · rw [List.mem_append, List.mem_singleton, or_comm]
    rw [asked]
    simp [Event.KeepsAsked, eq_comm]
  | collect inUse =>
    rw [demandedAfter, List.mem_filter, Bool.not_eq_true', ← Bool.not_eq_true, List.contains_iff_mem,
      Registry.mem_unused]
    constructor
    · rintro ⟨member, kept⟩
      refine .inr ⟨member, ?_⟩
      by_contra unused
      exact kept ⟨known t member, Bool.not_eq_true _ ▸ unused⟩
    · rintro (⟨now, other⟩ | ⟨member, used⟩)
      · cases other
      · refine ⟨member, fun gone => ?_⟩
        have used : inUse t = true := used
        rw [gone.2] at used
        cases used
  | _ => simp [demandedAfter, Event.KeepsAsked]

theorem nodup_demandedAfter (distinct : p.scheduler.demanded.Nodup) (event : Event) :
    (p.demandedAfter event).Nodup := by
  cases event with
  | request source now =>
    rw [demandedAfter]
    split
    · exact distinct
    · rename_i fresh
      have absent : source ∉ p.scheduler.demanded := mt List.contains_iff_mem.mpr fresh
      refine List.nodup_append.mpr ⟨distinct, List.nodup_singleton _, fun t member u last => ?_⟩
      rw [List.mem_singleton.mp last]
      exact fun same => absent (same ▸ member)
  | collect inUse => exact distinct.filter _
  | tick plan now => exact List.nodup_nil
  | _ => exact distinct

theorem present_step (synced : p.Synced) (event : Event) (present : (p.record? t).isSome) :
    ((p.step event).record? t).isSome ∨ ∃ inUse, event = .collect inUse ∧ inUse t = false := by
  rcases effects_step synced event t with effects | ⟨inUse, same, unused, _⟩
  · exact .inl (effects.keep (P := fun d => d.record.isSome) (fun kept effect => effect.present kept) present)
  · exact .inr ⟨inUse, same, unused⟩

theorem present_request (p : Plant) (t : SourceId) (now : Nat) :
    ((p.step (.request t now)).record? t).isSome := by
  have status := p.status?_request t now t
  rw [← Option.isSome_map, ← status?, status]
  split
  · rfl
  · rename_i other
    rw [Option.isSome_iff_ne_none]
    exact fun none => other ⟨rfl, .inl none⟩

theorem demanding_step (synced : p.Synced) (h : p.Demanding) (event : Event) :
    (p.step event).Demanding := by
  refine ⟨?_, fun t member => ?_⟩
  · rw [demanded_step]
    exact nodup_demandedAfter h.distinct event
  · rw [demanded_step, mem_demandedAfter h.known] at member
    rcases member with ⟨now, rfl⟩ | ⟨old, keeps⟩
    · exact present_request p t now
    · rcases present_step synced event (h.known t old) with present | ⟨inUse, rfl, unused⟩
      · exact present
      · have used : inUse t = true := keeps
        rw [unused] at used
        cases used

theorem demanding_run (settings : SchedulerSettings) (externals : List Signature)
    (events : List Event) : ((new settings externals).run events).Demanding := by
  have start : (new settings externals).Synced ∧ (new settings externals).Demanding :=
    ⟨rfl, List.nodup_nil, List.forall_mem_nil _⟩
  exact (run_keeps (P := fun p => p.Synced ∧ p.Demanding)
    (fun _ event kept _ => ⟨step_synced event kept.1, demanding_step kept.1 kept.2 event⟩) start
    (follows_any _ events)).2

/-- In every run, the sources that a tick may hand out jobs for are those that were asked for since
the last one. -/
theorem mem_demanded_iff (settings : SchedulerSettings) (externals : List Signature)
    (events : List Event) (t : SourceId) :
    t ∈ ((new settings externals).run events).scheduler.demanded ↔ Asked events t := by
  induction events using List.reverseRecOn with
  | nil =>
    refine ⟨fun member => (List.not_mem_nil member).elim, ?_⟩
    rintro ⟨before, now, after, split, _⟩
    exact absurd split (by simp)
  | append_singleton events event ih =>
    have known := (demanding_run settings externals events).known
    rw [run_append, asked_concat, ← ih, ← mem_demandedAfter known, ← demanded_step]
    rfl

/-- The jobs that a tick hands to its dispatcher. -/
def handed (plan : Plan) (now : Nat) (p : Plant) : List Handing :=
  p.scheduler.handed (Yard.dispatcher plan) p.yard now

/-- In every run, a tick hands out jobs for different sources, and these are the ones that were asked
for since the last tick and whose record is due. -/
theorem due_jobs_are_handed_out (settings : SchedulerSettings) (externals : List Signature)
    (events : List Event) (plan : Plan) (now : Nat) :
    let p := (new settings externals).run events
    let sources := (p.handed plan now).map (·.job.source)
    sources.Nodup ∧
      ∀ t, t ∈ sources ↔ Asked events t ∧ ∃ r, p.record? t = some r ∧ r.isDue now = true := by
  intro p sources
  have distinct : p.scheduler.demanded.Nodup := (demanding_run settings externals events).distinct
  have asked := mem_demanded_iff settings externals events
  have same : sources = _ := Scheduler.sources_handed distinct (Yard.dispatcher plan) p.yard now
  rw [same]
  refine ⟨distinct.filter _, fun t => ?_⟩
  rw [List.mem_filter, asked]
  refine and_congr_right fun _ => ⟨fun due => ?_, fun ⟨r, found, due⟩ => ?_⟩
  · obtain ⟨job, due⟩ := Option.isSome_iff_exists.mp due
    obtain ⟨r, found, due, _⟩ := Scheduler.dueJob?_eq_some.mp due
    exact ⟨r, found, due⟩
  · exact Option.isSome_iff_exists.mpr ⟨_, Scheduler.dueJob?_eq_some.mpr ⟨r, found, due, rfl⟩⟩

end Plant

end RobotArena
