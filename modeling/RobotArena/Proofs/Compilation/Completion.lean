import RobotArena.Proofs.Compilation.Generations

/-!
# Compiles come to an end

A record whose compile is under way waits for a job that is out and that carries its generation, so
that the result will not be discarded as outdated; and a record that notes a job in flight has one
out for its source. A finished compile is ended by the tick that takes it over. The main statement is
that a record with no job out is at rest: it was never asked for, is scheduled, or is done.
-/

namespace RobotArena

/-- A record that waits for a job has one out. -/
def Desk.Served (d : Desk) : Prop :=
  ∀ r, d.record = some r →
    (r.status = .compiling → ∃ t ∈ d.tickets, t.job.generation = r.generation) ∧
      (r.inFlight = true → d.tickets ≠ [])

namespace Desk.Served

variable {n n' : Nat} {record : Option CompilationRecord} {r r' : CompilationRecord}
  {out out' : List Ticket}

theorem of_absent : Served ⟨n, none, out⟩ := by
  intro r found
  cases found

theorem of_idle (waits : r'.status ≠ .compiling) (landed : r'.inFlight = false) :
    Served ⟨n', some r', out'⟩ := by
  rintro _ ⟨⟩
  exact ⟨fun compiling => absurd compiling waits, fun flight => by simp [landed] at flight⟩

/-- A record that stops to wait may still have a job in flight. -/
theorem of_stopped (h : Served ⟨n, some r, out⟩) (waits : r'.status ≠ .compiling)
    (same : r'.inFlight = r.inFlight) (count : out'.length = out.length) :
    Served ⟨n', some r', out'⟩ := by
  rintro _ ⟨⟩
  refine ⟨fun compiling => absurd compiling waits, fun flight none => ?_⟩
  have some : out ≠ [] := (h r rfl).2 (same ▸ flight)
  have none : out' = [] := none
  rw [none] at count
  exact some (List.length_eq_zero_iff.mp count.symm)

theorem effect {d d' : Desk} (h : d.Served) (effect : Effect d d') : d'.Served := by
  cases effect with
  | @quiet n n' record out out' later same =>
    intro r found
    obtain ⟨waits, flight⟩ := h r found
    refine ⟨fun compiling => ?_, fun flying none => ?_⟩
    · obtain ⟨t, member, current⟩ := waits compiling
      exact ⟨t, same.mem_iff.mp member, current⟩
    · have none : out' = [] := none
      exact flight flying (List.perm_nil.mp (none ▸ same))
  | @told n r out now =>
    rintro _ ⟨⟩
    exact h r rfl
  | created source now => exact of_idle (by simp) rfl
  | rescheduled now marks =>
    refine h.of_stopped (by simp [CompilationRecord.reschedule_eq])
      (by rw [CompilationRecord.reschedule_eq]) ?_
    rcases marks with rfl | rfl
    · rfl
    · exact List.length_map _
  | published version program =>
    exact h.of_stopped (by simp [CompilationRecord.finish_eq]) (by rw [CompilationRecord.finish_eq])
      (List.length_map _)
  | @accepted n r out now source due =>
    rintro _ ⟨⟩
    refine ⟨fun _ => ⟨_, List.mem_cons_self, ?_⟩, fun _ => List.cons_ne_nil _ _⟩
    rw [CompilationRecord.start_eq]
  | refused later due =>
    exact of_idle (by simp [CompilationRecord.postpone_eq]) (by rw [CompilationRecord.postpone_eq])
  | dropped => exact of_absent
  | @discarded n r t out stale =>
    rintro _ ⟨⟩
    refine ⟨fun compiling => ?_, nofun⟩
    -- the job that the record waits for is another one
    obtain ⟨s, member, current⟩ := (h r rfl).1 compiling
    rcases List.mem_cons.mp member with rfl | later
    · exact absurd current.symm stale
    · exact ⟨_, List.mem_map_of_mem later, current⟩
  | committed current version program diagnostics =>
    exact of_idle (by simp [CompilationRecord.finish_eq]) (by rw [CompilationRecord.finish_eq])
  | delayed current progress later =>
    exact of_idle (by simp [CompilationRecord.schedule_eq])
      (by rw [CompilationRecord.schedule_eq, CompilationRecord.setProgress_eq])
  | finalized compiled =>
    exact h.of_stopped (by simp [CompilationRecord.setStatus_eq])
      (by rw [CompilationRecord.setStatus_eq]) rfl

theorem drop {d : Desk} : d.drop.Served :=
  of_absent

end Desk.Served

/-- Whether a record holds the outcome of a finished compile. -/
def CompilationRecord.Finished (r : CompilationRecord) : Prop :=
  r.status = .compiled ∨ r.status = .done

/-! ### What happens between ticks ends no compile -/

namespace Registry

variable {g : Registry} {t : SourceId} {r : CompilationRecord}

theorem finished_ensure {source : SourceId} {now : Nat}
    (found : (g.ensure source now).find? t = some r) (finished : r.Finished) : g.find? t = some r := by
  rw [find?_ensure] at found
  by_cases same : t = source
  · subst same
    cases known : g.find? t with
    | none =>
      rw [if_pos rfl, known] at found
      cases Option.some.inj found
      simp [CompilationRecord.Finished] at finished
    | some before =>
      rw [if_pos rfl, known] at found
      exact found
  · rwa [if_neg same] at found

theorem finished_rescheduleAll (now : Nat) (sources : List SourceId) (g : Registry)
    (found : (g.rescheduleAll sources now).find? t = some r) (finished : r.Finished) :
    t ∉ sources ∧ g.find? t = some r := by
  induction sources generalizing g with
  | nil => exact ⟨List.not_mem_nil, found⟩
  | cons source rest ih =>
    obtain ⟨later, first⟩ := ih _ found
    rw [find?_reschedule] at first
    by_cases same : t = source
    · rw [if_pos same] at first
      obtain ⟨before, _, rfl⟩ := Option.map_eq_some_iff.mp first
      simp [CompilationRecord.Finished, CompilationRecord.reschedule_eq] at finished
    · rw [if_neg same] at first
      refine ⟨fun member => ?_, first⟩
      rcases List.mem_cons.mp member with here | there
      · exact same here
      · exact later there

end Registry

namespace Plant

variable {p : Plant} {t : SourceId} {r : CompilationRecord}

theorem finished_request {source : SourceId} {now : Nat}
    (found : (p.step (.request source now)).record? t = some r) (finished : r.Finished) :
    p.record? t = some r := by
  have found : (p.scheduler.request source now).registry.find? t = some r := found
  unfold Scheduler.request at found
  dsimp only at found
  split at found
  · have ensured := (Registry.finished_rescheduleAll now [source] _ found finished).2
    exact Registry.finished_ensure ensured finished
  · exact Registry.finished_ensure found finished

/-- An upload leaves only finished compiles alone that it does not concern. -/
theorem finished_invalidate {source : SourceId} {now : Nat}
    (found : (p.invalidate source now).record? t = some r) (finished : r.Finished) :
    p.record? t = some r ∧ t ∉ p.concerned source := by
  rw [record?, invalidate_scheduler] at found
  obtain ⟨spared, before⟩ := Registry.finished_rescheduleAll now _ _ found finished
  exact ⟨before, spared⟩

theorem record?_collect {inUse : SourceId → Bool} (found : (p.collect inUse).record? t = some r) :
    p.record? t = some r ∧ inUse t = true := by
  have record : (p.collect inUse).record? t = if inUse t then p.record? t else none :=
    p.scheduler.registry.find?_collect inUse t
  rw [record] at found
  split at found
  · rename_i used
    exact ⟨found, used⟩
  · cases found

theorem status_sync {now interval : Nat}
    (found : (p.step (.sync now interval)).record? t = some r) :
    ∃ before, p.record? t = some before ∧ before.status = r.status := by
  have found : (p.scheduler.registry.sync now interval).2.find? t = some r := found
  rw [Registry.find?_sync] at found
  obtain ⟨before, was, rfl⟩ := Option.map_eq_some_iff.mp found
  refine ⟨before, was, ?_⟩
  split <;> rfl

/-- A job that is handed out ends no compile either. -/
theorem finished_offer {plan : Plan} {now : Nat} {source : SourceId}
    (found : (p.offer plan now source).record? t = some r) (finished : r.Finished) :
    p.record? t = some r := by
  have started := p.scheduler.find?_modify source t (·.start) fun r => by
    rw [CompilationRecord.start_eq]
  rcases p.offer_cases plan now source with same | ⟨_, _, _, refused | ⟨errands, accepted⟩⟩
  · rwa [same] at found
  · have postponed := (p.scheduler.modify source (·.start)).find?_modify source t
      (·.postpone (now + p.scheduler.backoff)) fun r => by rw [CompilationRecord.postpone_eq]
    rw [refused, record?, postponed] at found
    by_cases same : t = source
    · rw [if_pos same] at found
      obtain ⟨before, _, rfl⟩ := Option.map_eq_some_iff.mp found
      simp [CompilationRecord.Finished, CompilationRecord.postpone_eq] at finished
    · rwa [if_neg same, started, if_neg same] at found
  · rw [accepted] at found
    have found : (p.scheduler.modify source (·.start)).registry.find? t = some r := found
    rw [started] at found
    by_cases same : t = source
    · rw [if_pos same] at found
      obtain ⟨before, _, rfl⟩ := Option.map_eq_some_iff.mp found
      simp [CompilationRecord.Finished, CompilationRecord.start_eq] at finished
    · rwa [if_neg same] at found

theorem finished_opened {plan : Plan} {now : Nat}
    (found : (p.opened plan now).record? t = some r) (finished : r.Finished) :
    p.record? t = some r := by
  have offered (sources : List SourceId) (p : Plant)
      (found : (sources.foldl (Plant.offer plan now) p).record? t = some r) : p.record? t = some r := by
    induction sources generalizing p with
    | nil => exact found
    | cons source rest ih => exact finished_offer (ih _ found) finished
  have found : (p.handOut plan now).record? t = some r := found
  rw [handOut_eq_foldl] at found
  exact offered _ p found

end Plant

/-! ### A tick ends the compiles that finish in it -/

namespace Scheduler

variable {t : SourceId} {r : CompilationRecord}

/-- A record whose result is not committed keeps its status if it is finished afterwards. -/
theorem finished_settled {s : Scheduler} {now : Nat} {result : JobResult}
    (found : s.registry.find? result.source = some r)
    (finished : (s.settled now result r).Finished) :
    (s.commit now result).2 = .committed ∨ (s.settled now result r).status = r.status := by
  unfold settled at finished ⊢
  split at finished
  · rename_i stale
    rw [if_pos stale]
    exact .inr rfl
  · rename_i current
    have expected : s.Expects result := by
      rw [Expects, found]
      exact congrArg some (Decidable.not_not.mp current)
    cases outcome : result.outcome with
    | compiled program dependencies =>
      exact .inl ((s.committed_iff now result).mpr ⟨expected, by rw [outcome]; rfl⟩)
    | failed diagnostics dependencies =>
      exact .inl ((s.committed_iff now result).mpr ⟨expected, by rw [outcome]; rfl⟩)
    | waiting progress =>
      rw [outcome] at finished
      simp [CompilationRecord.Finished, CompilationRecord.schedule_eq] at finished

theorem compiled_commit {s : Scheduler} {now : Nat} {result : JobResult}
    (found : (s.commit now result).1.registry.find? t = some r) (compiled : r.status = .compiled) :
    (t = result.source ∧ (s.commit now result).2 = .committed) ∨
      ∃ before, s.registry.find? t = some before ∧ before.status = .compiled := by
  rw [find?_commit] at found
  by_cases same : t = result.source
  · rw [if_pos same] at found
    obtain ⟨before, was, rfl⟩ := Option.map_eq_some_iff.mp found
    rcases finished_settled (same ▸ was) (.inl compiled) with committed | kept
    · exact .inl ⟨same, committed⟩
    · exact .inr ⟨before, was, kept ▸ compiled⟩
  · rw [if_neg same] at found
    exact .inr ⟨r, found, compiled⟩

theorem compiled_commitAll (now : Nat) (results : List JobResult) (s : Scheduler)
    (found : (commitAll now results s).1.registry.find? t = some r)
    (compiled : r.status = .compiled) :
    t ∈ (commitAll now results s).2.1 ∨
      ∃ before, s.registry.find? t = some before ∧ before.status = .compiled := by
  induction results generalizing s with
  | nil => exact .inr ⟨r, found, compiled⟩
  | cons result rest ih =>
    rw [commitAll_cons] at found
    rw [mem_commitAll_cons]
    rcases ih _ found with later | ⟨middle, was, compiled⟩
    · exact .inl (.inr later)
    · rcases compiled_commit was compiled with here | before
      · exact .inl (.inl here)
      · exact .inr before

theorem compiled_finalizeAll (sources : List SourceId) (s : Scheduler)
    (found : (finalizeAll sources s).registry.find? t = some r) (compiled : r.status = .compiled) :
    t ∉ sources ∧ s.registry.find? t = some r := by
  induction sources generalizing s with
  | nil => exact ⟨List.not_mem_nil, found⟩
  | cons source rest ih =>
    rw [finalizeAll_cons] at found
    obtain ⟨later, first⟩ := ih _ found
    rw [find?_finalize] at first
    by_cases same : t = source
    · rw [if_pos same] at first
      obtain ⟨before, _, rfl⟩ := Option.map_eq_some_iff.mp first
      split at compiled
      · simp [CompilationRecord.setStatus_eq] at compiled
      · contradiction
    · rw [if_neg same] at first
      refine ⟨fun member => ?_, first⟩
      rcases List.mem_cons.mp member with here | there
      · exact same here
      · exact later there

end Scheduler

namespace Plant

/-- No compile has finished without being ended. -/
def Ended (p : Plant) : Prop :=
  ∀ t r, p.record? t = some r → r.status ≠ .compiled

theorem ended_tick {p : Plant} {plan : Plan} {now : Nat} (synced : p.Synced) (ended : p.Ended) :
    (p.tick plan now).Ended := by
  intro t r found compiled
  obtain ⟨sources, rfl, tick⟩ := tick_eq plan now synced
  rw [tick, foldl_finalize] at found
  obtain ⟨spared, found⟩ := Scheduler.compiled_finalizeAll _ _ found compiled
  rw [drained_scheduler synced] at found
  rcases Scheduler.compiled_commitAll now _ _ found compiled with committed | ⟨before, was, compiled⟩
  · exact spared committed
  · exact ended t before (finished_opened was (.inl compiled)) compiled

theorem ended_step {p : Plant} (synced : p.Synced) (ended : p.Ended) (event : Event) :
    (p.step event).Ended := by
  intro t r found compiled
  cases event with
  | supply source state => exact ended t r found compiled
  | upload source state now =>
    exact ended t r (finished_invalidate found (.inl compiled)).1 compiled
  | ensure source now =>
    exact ended t r (Registry.finished_ensure found (.inl compiled)) compiled
  | request source now => exact ended t r (finished_request found (.inl compiled)) compiled
  | invalidate source now =>
    exact ended t r (finished_invalidate found (.inl compiled)).1 compiled
  | publish source program now =>
    have published : (p.scheduler.registry.publish source program now).find? t = some r := found
    rw [Registry.find?_publish] at published
    by_cases same : t = source
    · rw [if_pos same] at published
      obtain ⟨before, _, rfl⟩ := Option.map_eq_some_iff.mp published
      simp [CompilationRecord.finish_eq] at compiled
    · rw [if_neg same] at published
      exact ended t r published compiled
  | collect inUse => exact ended t r (record?_collect found).1 compiled
  | sync now interval =>
    obtain ⟨before, was, same⟩ := status_sync found
    exact ended t before was (same.trans compiled)
  | work errands => exact ended t r found compiled
  | tick plan now => exact ended_tick synced ended t r found compiled

/-- A record that waits for a job has one out, with its own generation; and a record without jobs
out for its source was never asked for, is scheduled and can be handed out, or is done. -/
theorem no_record_stuck (settings : SchedulerSettings) (externals : List Signature)
    (events : List Event) (source : SourceId) :
    let p := (new settings externals).run events
    ∀ r, p.record? source = some r →
      (r.status = .compiling → ∃ t ∈ p.yard.tickets source, t.job.generation = r.generation) ∧
      (r.inFlight = true → p.yard.tickets source ≠ []) ∧
      (p.yard.tickets source = [] →
        r.status = .none ∨ (r.status = .scheduled ∧ r.inFlight = false) ∨ r.status = .done) := by
  intro p r found
  have served : (p.desk source).Served :=
    desk_run Desk.Served.effect (fun _ => Desk.Served.drop) Desk.Served.of_absent settings externals
      events source
  have start : (new settings externals).Synced ∧ (new settings externals).Ended :=
    ⟨rfl, fun _ _ found => by cases found⟩
  have ended := (run_keeps (P := fun p => p.Synced ∧ p.Ended)
    (fun _ event kept _ => ⟨step_synced event kept.1, ended_step kept.1 kept.2 event⟩) start
    (follows_any _ events)).2 source r found
  obtain ⟨waits, flight⟩ := served r found
  refine ⟨waits, flight, fun none => ?_⟩
  cases status : r.status with
  | none => exact .inl rfl
  | scheduled => exact .inr (.inl ⟨rfl, Bool.eq_false_iff.mpr fun flying => flight flying none⟩)
  | compiling =>
    obtain ⟨t, member, _⟩ := waits status
    rw [show (p.desk source).tickets = [] from none] at member
    cases member
  | compiled => exact absurd status ended
  | done => exact .inr (.inr rfl)

/-- A job finds no text yet and reports that it has to wait. -/
def waitingRun : List Event :=
  [.request (.ofPath "main.asm") 0, .tick .park 0, .work [.run 0, .send 0], .tick .refuse 1]

theorem waiting_record_is_at_rest :
    ∃ r, ((new {} []).run waitingRun).record? (.ofPath "main.asm") = some r ∧ r.generation = 1 ∧
      (r.status = .none ∨ (r.status = .scheduled ∧ r.inFlight = false) ∨ r.status = .done) := by
  have drained : ((new {} []).run waitingRun).yard.tickets (.ofPath "main.asm") = [] := by
    decide +kernel
  have answered : (((new {} []).run waitingRun).record? (.ofPath "main.asm")).map (·.generation) =
      some 1 := by
    decide +kernel
  obtain ⟨r, found, generation⟩ := Option.map_eq_some_iff.mp answered
  exact ⟨r, found, generation,
    (no_record_stuck {} [] waitingRun (.ofPath "main.asm") r found).2.2 drained⟩

end Plant

end RobotArena
