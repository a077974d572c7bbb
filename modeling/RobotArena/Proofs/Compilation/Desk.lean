import RobotArena.Proofs.Compilation.Tick

/-!
# What a run does to one source

The desk of a source holds its record and the jobs that are out for it. `Effect` lists all that can
happen on a desk, except that the record is dropped; the main statement is that every event changes
every desk by effects only, or drops its record. What holds of each source in every run is then shown
effect by effect.
-/

namespace RobotArena

/-- Changes the fate of a job. -/
def Ticket.change (change : Fate → Fate) (t : Ticket) : Ticket :=
  { t with fate := change t.fate }

/-- The next generation to hand out, the record of a source and the jobs that are out for it. -/
structure Desk where
  next : Nat
  record : Option CompilationRecord
  tickets : List Ticket

/-- A desk whose record is dropped. -/
def Desk.drop (d : Desk) : Desk :=
  ⟨d.next, none, d.tickets.map (.change .orphan)⟩

/-- A change on a desk. -/
inductive Effect : Desk → Desk → Prop where
  | quiet {n n' : Nat} {record : Option CompilationRecord} {out out' : List Ticket}
      (later : n ≤ n') (same : out.Perm out') : Effect ⟨n, record, out⟩ ⟨n', record, out'⟩
  | told {n : Nat} {r : CompilationRecord} {out : List Ticket} (now : Nat) :
      Effect ⟨n, some r, out⟩ ⟨n, some (r.markSynced now), out⟩
  | created {n : Nat} {out : List Ticket} (source : SourceId) (now : Nat) :
      Effect ⟨n, none, out⟩ ⟨n, some { source, scheduledAt := now }, out⟩
  | rescheduled {n : Nat} {r : CompilationRecord} {out out' : List Ticket} (now : Nat)
      (marks : out' = out ∨ out' = out.map (.change .touch)) :
      Effect ⟨n, some r, out⟩ ⟨n + 1, some (r.reschedule n now), out'⟩
  | published {n : Nat} {r : CompilationRecord} {out : List Ticket} (version : Nat)
      (program : Program) :
      Effect ⟨n, some r, out⟩
        ⟨n + 1, some ({ r with generation := n }.finish version (some program)
          program.diagnostics .done), out.map (.change .touch)⟩
  | accepted {n : Nat} {r : CompilationRecord} {out : List Ticket} {now : Nat} (source : SourceId)
      (due : r.isDue now = true) :
      Effect ⟨n, some r, out⟩ ⟨n, some r.start, { job := ⟨source, r.generation⟩ } :: out⟩
  | refused {n : Nat} {r : CompilationRecord} {out : List Ticket} {now : Nat} (later : Nat)
      (due : r.isDue now = true) :
      Effect ⟨n, some r, out⟩ ⟨n, some (r.start.postpone later), out⟩
  | dropped {n : Nat} {t : Ticket} {out : List Ticket} :
      Effect ⟨n, none, t :: out⟩ ⟨n, none, out.map (.change .overtake)⟩
  | discarded {n : Nat} {r : CompilationRecord} {t : Ticket} {out : List Ticket}
      (stale : r.generation ≠ t.job.generation) :
      Effect ⟨n, some r, t :: out⟩
        ⟨n, some { r with inFlight := false }, out.map (.change .overtake)⟩
  | committed {n : Nat} {r : CompilationRecord} {t : Ticket} {out : List Ticket}
      (current : r.generation = t.job.generation) (version : Nat) (program : Option Program)
      (diagnostics : List Diagnostic) :
      Effect ⟨n, some r, t :: out⟩
        ⟨n, some ({ r with inFlight := false }.finish version program diagnostics .compiled),
          out.map (.change .overtake)⟩
  | delayed {n : Nat} {r : CompilationRecord} {t : Ticket} {out : List Ticket}
      (current : r.generation = t.job.generation) (progress : Progress) (later : Nat) :
      Effect ⟨n, some r, t :: out⟩
        ⟨n, some (({ r with inFlight := false }.setProgress progress).schedule later),
          out.map (.change .overtake)⟩
  | finalized {n : Nat} {r : CompilationRecord} {out : List Ticket} (compiled : r.status = .compiled) :
      Effect ⟨n, some r, out⟩ ⟨n, some (r.setStatus .done), out⟩

/-- Changes on a desk, one after the other. -/
abbrev Effects : Desk → Desk → Prop := Relation.ReflTransGen Effect

theorem Effects.keep {P : Desk → Prop} (effect : ∀ {d d' : Desk}, P d → Effect d d' → P d')
    {d d' : Desk} (effects : Effects d d') (start : P d) : P d' := by
  induction effects with
  | refl => exact start
  | tail _ last ih => exact effect ih last

/-- The desk of a source. -/
def Plant.desk (p : Plant) (source : SourceId) : Desk :=
  ⟨p.scheduler.registry.nextGeneration, p.record? source, p.yard.tickets source⟩

namespace Yard

theorem tickets_mark_concerned {y : Yard} {concerned : SourceId → Bool} {source : SourceId}
    (change : Fate → Fate) (yes : concerned source = true) :
    (y.mark concerned change).tickets source = (y.tickets source).map (.change change) := by
  rw [tickets_mark]
  refine List.map_congr_left fun t member => ?_
  rw [Ticket.mark, (mem_tickets.mp member).2, if_pos yes]
  rfl

theorem tickets_mark_other {y : Yard} {concerned : SourceId → Bool} {source : SourceId}
    (change : Fate → Fate) (no : concerned source = false) :
    (y.mark concerned change).tickets source = y.tickets source := by
  rw [tickets_mark]
  refine (List.map_congr_left fun t member => ?_).trans (List.map_id _)
  rw [Ticket.mark, (mem_tickets.mp member).2, no]
  rfl

theorem tickets_performAll (y : Yard) (errands : List Errand) (source : SourceId) :
    ((y.performAll errands).2.tickets source).Perm (y.tickets source) :=
  (y.outstanding_performAll errands).filter _

theorem tickets_accept (y : Yard) (job : Job) (source : SourceId) :
    ((y.accept job).tickets source).Perm
      (if job.source = source then { job } :: y.tickets source else y.tickets source) := by
  have front : (y.accept job).outstanding.Perm ({ job } :: y.outstanding) := by
    simp only [outstanding, accept, List.append_assoc, List.singleton_append]
    exact List.perm_middle
  refine (front.filter _).trans ?_
  by_cases same : job.source = source
  · simp [same, tickets]
  · simp [same, tickets]

end Yard

namespace Registry

/-- The desk of a source, given its jobs that are out. -/
def desk (g : Registry) (source : SourceId) (out : List Ticket) : Desk :=
  ⟨g.nextGeneration, g.find? source, out⟩

theorem nextGeneration_ensure (g : Registry) (source : SourceId) (now : Nat) :
    (g.ensure source now).nextGeneration = g.nextGeneration := by
  unfold ensure
  split <;> rfl

theorem effects_ensure (g : Registry) (source t : SourceId) (now : Nat) (out : List Ticket) :
    Effects (g.desk t out) ((g.ensure source now).desk t out) := by
  rw [desk, desk, nextGeneration_ensure, find?_ensure]
  by_cases same : t = source
  · subst same
    rw [if_pos rfl]
    cases found : g.find? t with
    | none => exact .single (.created t now)
    | some r => exact .refl
  · rw [if_neg same]

theorem effects_reschedule {g : Registry} {source : SourceId} {r : CompilationRecord}
    (found : g.find? source = some r) (now : Nat) {out out' : List Ticket}
    (marks : out' = out ∨ out' = out.map (.change .touch)) :
    Effects (g.desk source out) ((g.reschedule source now).desk source out') := by
  rw [desk, desk, find?_reschedule, if_pos rfl, found]
  exact .single (.rescheduled now marks)

theorem effects_reschedule_other (g : Registry) {source t : SourceId} (other : t ≠ source)
    (now : Nat) (out : List Ticket) :
    Effects (g.desk t out) ((g.reschedule source now).desk t out) := by
  rw [desk, desk, find?_reschedule, if_neg other]
  exact .single (.quiet (Nat.le_succ _) (.refl _))

theorem change_touch_idem (out : List Ticket) :
    (out.map (Ticket.change .touch)).map (Ticket.change .touch) = out.map (Ticket.change .touch) := by
  rw [List.map_map]
  rfl

/-- Rescheduling the records of several sources touches the jobs of those sources. -/
theorem effects_rescheduleAll (now : Nat) (t : SourceId) (sources : List SourceId) (g : Registry)
    (out : List Ticket) (present : ∀ source ∈ sources, (g.find? source).isSome) :
    Effects (g.desk t out) ((g.rescheduleAll sources now).desk t
      (if t ∈ sources then out.map (.change .touch) else out)) := by
  induction sources generalizing g out with
  | nil => exact .refl
  | cons source rest ih =>
    have remain : ∀ s ∈ rest, ((g.reschedule source now).find? s).isSome := by
      intro s member
      rw [find?_reschedule]
      have before := present s (List.mem_cons_of_mem _ member)
      split
      · rwa [Option.isSome_map]
      · exact before
    change Effects _ (((g.reschedule source now).rescheduleAll rest now).desk t _)
    by_cases same : t = source
    · subst same
      obtain ⟨r, found⟩ := Option.isSome_iff_exists.mp (present t List.mem_cons_self)
      have head := effects_reschedule found now (.inr rfl : out.map (.change .touch) = out ∨ _)
      refine head.trans ?_
      rw [if_pos List.mem_cons_self]
      have tail := ih _ (out.map (.change .touch)) remain
      rwa [change_touch_idem, ite_self] at tail
    · have head := g.effects_reschedule_other same now out
      have tail := ih _ out remain
      simp only [List.mem_cons, same, false_or]
      exact head.trans tail

theorem effects_publish (g : Registry) (source t : SourceId) (program : Program) (now : Nat)
    (out : List Ticket) :
    Effects (g.desk t out) ((g.publish source program now).desk t
      (if t = source then out.map (.change .touch) else out)) := by
  have next : (g.publish source program now).nextGeneration = g.nextGeneration + 1 := by
    rw [← g.nextGeneration_ensure source now]
    rfl
  rw [desk, desk, next, find?_publish]
  by_cases same : t = source
  · subst same
    have first := g.effects_ensure t t now out
    rw [if_pos rfl, if_pos rfl]
    refine first.trans ?_
    rw [desk, nextGeneration_ensure, find?_ensure, if_pos rfl]
    exact .single (.published _ _)
  · rw [if_neg same, if_neg same]
    exact .single (.quiet (Nat.le_succ _) (.refl _))

theorem mem_unused {g : Registry} {inUse : SourceId → Bool} {source : SourceId} :
    source ∈ g.unused inUse ↔ (g.find? source).isSome ∧ inUse source = false := by
  simp [unused, find?, List.find?_isSome]

theorem effects_sync (g : Registry) (now interval : Nat) (t : SourceId) (out : List Ticket) :
    Effects (g.desk t out) ((g.sync now interval).2.desk t out) := by
  rw [desk, desk, find?_sync]
  change Effects _ ⟨g.nextGeneration, _, _⟩
  cases found : g.find? t with
  | none => exact .refl
  | some r =>
    rw [Option.map_some]
    split
    · exact .single (.told now)
    · exact .refl

end Registry

namespace Plant

variable {plan : Plan} {now : Nat}

/-! ### What the stages of a tick do to a desk -/

theorem effects_offer (plan : Plan) (now : Nat) (p : Plant) (source t : SourceId) :
    Effects (p.desk t) ((p.offer plan now source).desk t) := by
  have started := fun t => p.scheduler.find?_modify source t (·.start) fun r => by
    rw [CompilationRecord.start_eq]
  rcases p.offer_cases plan now source with same | ⟨r, found, due, refused | ⟨errands, accepted⟩⟩
  · rw [same]
  · have record : (p.offer plan now source).record? t =
        if t = source then
          ((p.record? t).map (·.start)).map (·.postpone (now + p.scheduler.backoff))
        else p.record? t := by
      rw [refused]
      refine ((p.scheduler.modify source (·.start)).find?_modify source t _ fun r => ?_).trans ?_
      · rw [CompilationRecord.postpone_eq]
      · rw [started]
        split <;> rfl
    rw [desk, desk, record, refused]
    by_cases same : t = source
    · subst same
      rw [if_pos rfl, found]
      exact .single (.refused _ due)
    · rw [if_neg same]
      exact .refl
  · have record : (p.offer plan now source).record? t =
        if t = source then (p.record? t).map (·.start) else p.record? t := by
      rw [accepted]
      exact started t
    have tickets := ((p.yard.accept ⟨source, r.generation⟩).tickets_performAll errands t).trans
      (p.yard.tickets_accept ⟨source, r.generation⟩ t)
    rw [desk, desk, record, accepted]
    by_cases same : t = source
    · subst same
      rw [if_pos rfl, found]
      rw [if_pos rfl] at tickets
      exact (Relation.ReflTransGen.single (.accepted t due)).tail (.quiet (Nat.le_refl _) tickets.symm)
    · rw [if_neg same]
      rw [if_neg (Ne.symm same)] at tickets
      exact .single (.quiet (Nat.le_refl _) tickets.symm)

theorem effects_settled (s : Scheduler) (now : Nat) (result : JobResult) (n : Nat)
    (record : Option CompilationRecord) (t : Ticket) (out : List Ticket)
    (carried : t.job.generation = result.generation) :
    Effects ⟨n, record, t :: out⟩
      ⟨n, record.map (s.settled now result), out.map (.change .overtake)⟩ := by
  cases record with
  | none => exact .single .dropped
  | some r =>
    rw [Option.map_some, Scheduler.settled]
    split
    · rename_i stale
      exact .single (.discarded (carried ▸ stale))
    · rename_i current
      have current : r.generation = t.job.generation :=
        carried ▸ Decidable.not_not.mp current
      split
      · exact .single (.committed current _ _ _)
      · exact .single (.committed current _ _ _)
      · exact .single (.delayed current _ _)

theorem effects_takeOver (now : Nat) (p : Plant) (t : SourceId) :
    Effects (p.desk t) ((p.takeOver now).desk t) := by
  cases sent : p.yard.sent with
  | nil => rw [takeOver_nil sent]
  | cons r rest =>
    let left : Yard := { p.yard with sent := rest }
    have front : p.yard.outstanding.Perm (r.toTicket :: left.outstanding) := by
      simp only [Yard.outstanding, sent, left, List.map_cons]
      exact List.perm_middle
    have record : (p.takenOver now r rest).record? t =
        if t = r.job.source then (p.record? t).map (p.scheduler.settled now r.result)
        else p.record? t := p.scheduler.find?_commit now r.result t
    have next : (p.takenOver now r rest).scheduler.registry.nextGeneration =
        p.scheduler.registry.nextGeneration := p.scheduler.nextGeneration_commit now r.result
    have yard : (p.takenOver now r rest).yard =
        left.mark (· = r.job.source) Fate.overtake := rfl
    rw [takeOver_cons sent, desk, desk, next, record, yard]
    have tickets := front.filter (·.job.source = t)
    by_cases same : t = r.job.source
    · rw [if_pos same, Yard.tickets_mark_concerned _ (by simpa using same)]
      rw [List.filter_cons_of_pos (by simpa using same.symm)] at tickets
      exact (effects_settled _ _ _ _ _ r.toTicket _ rfl).head (.quiet (Nat.le_refl _) tickets)
    · rw [if_neg same, Yard.tickets_mark_other _ (by simpa using same)]
      rw [List.filter_cons_of_neg (by simpa using Ne.symm same)] at tickets
      exact .single (.quiet (Nat.le_refl _) tickets)

theorem effects_finalize (p : Plant) (source t : SourceId) :
    Effects (p.desk t) ((p.finalize source).desk t) := by
  have next : (Scheduler.finalize (p.scheduler, 0) source).1.registry.nextGeneration =
      p.scheduler.registry.nextGeneration := by
    cases found : p.scheduler.registry.find? source with
    | none => simp [Scheduler.finalize, found]
    | some r =>
      simp only [Scheduler.finalize, found]
      split <;> rfl
  have after : (p.finalize source).desk t =
      ⟨p.scheduler.registry.nextGeneration,
        (Scheduler.finalize (p.scheduler, 0) source).1.registry.find? t, p.yard.tickets t⟩ := by
    simp only [desk, record?, finalize, next]
  rw [after, Scheduler.find?_finalize]
  by_cases same : t = source
  · rw [if_pos same, desk]
    change Effects ⟨_, p.record? t, _⟩ ⟨_, (p.record? t).map _, _⟩
    cases found : p.record? t with
    | none => exact .refl
    | some r =>
      rw [Option.map_some]
      split
      · rename_i compiled
        exact .single (.finalized compiled)
      · exact .refl
  · rw [if_neg same]
    exact .refl

theorem effects_stage {p q : Plant} (t : SourceId) (stage : Stage plan now p q) :
    Effects (p.desk t) (q.desk t) := by
  cases stage with
  | offer source => exact effects_offer plan now p source t
  | rearrange inbox demanded => exact .refl
  | takeOver => exact effects_takeOver now p t
  | finalize source => exact effects_finalize p source t

theorem effects_stages {p q : Plant} (t : SourceId) (stages : Stages plan now p q) :
    Effects (p.desk t) (q.desk t) := by
  induction stages with
  | refl => exact .refl
  | tail _ last ih => exact ih.trans (effects_stage t last)

/-! ### What events do to a desk -/

theorem mem_concerned {p : Plant} {source t : SourceId} :
    t ∈ p.concerned source ↔
      (t = source ∨ t ∈ p.scheduler.graph.dependents source) ∧ (p.record? t).isSome := by
  simp [concerned, Scheduler.targets]

theorem effects_invalidate (p : Plant) (source : SourceId) (now : Nat) (t : SourceId) :
    Effects (p.desk t) ((p.invalidate source now).desk t) := by
  have present : ∀ s ∈ p.concerned source, (p.scheduler.registry.find? s).isSome :=
    fun s member => (mem_concerned.mp member).2
  have effects := Registry.effects_rescheduleAll now t (p.concerned source) p.scheduler.registry
    (p.yard.tickets t) present
  rw [desk, desk, record?, record?, invalidate_scheduler]
  by_cases member : t ∈ p.concerned source
  · rw [if_pos member] at effects
    refine effects.trans ?_
    rw [invalidate, Yard.tickets_mark_concerned _ (List.contains_iff_mem.mpr member)]
    exact .refl
  · rw [if_neg member] at effects
    refine effects.trans ?_
    rw [invalidate, Yard.tickets_mark_other _ (by simpa using member)]
    exact .refl

theorem effects_publish (p : Plant) (source : SourceId) (program : Program) (now : Nat)
    (t : SourceId) : Effects (p.desk t) ((p.publish source program now).desk t) := by
  refine (p.scheduler.registry.effects_publish source t program now (p.yard.tickets t)).trans ?_
  by_cases same : t = source
  · rw [if_pos same, desk, publish, Yard.tickets_mark_concerned _ (by simpa using same)]
    exact .refl
  · rw [if_neg same, desk, publish, Yard.tickets_mark_other _ (by simpa using same)]
    exact .refl

theorem desk_collect (p : Plant) (inUse : SourceId → Bool) (t : SourceId) :
    (p.collect inUse).desk t =
      if (p.record? t).isSome ∧ inUse t = false then (p.desk t).drop else p.desk t := by
  have unused : t ∈ p.scheduler.registry.unused inUse ↔ (p.record? t).isSome ∧ inUse t = false :=
    Registry.mem_unused
  have record : (p.collect inUse).record? t = if inUse t then p.record? t else none :=
    p.scheduler.registry.find?_collect inUse t
  rw [desk, record]
  by_cases gone : t ∈ p.scheduler.registry.unused inUse
  · rw [if_pos (unused.mp gone), (unused.mp gone).2, collect]
    dsimp only [Scheduler.collect]
    rw [Yard.tickets_mark_concerned _ (List.contains_iff_mem.mpr gone)]
    rfl
  · have kept : (if inUse t then p.record? t else none) = p.record? t := by
      cases used : inUse t with
      | true => rfl
      | false =>
        have absent : ¬(p.record? t).isSome := fun present => gone (unused.mpr ⟨present, used⟩)
        rw [Option.not_isSome_iff_eq_none.mp absent]
        rfl
    rw [if_neg (mt unused.mpr gone), kept, collect]
    dsimp only [Scheduler.collect]
    rw [Yard.tickets_mark_other _ (by simpa using gone)]
    rfl

theorem effects_request (p : Plant) (source : SourceId) (now : Nat) (t : SourceId) :
    Effects (p.desk t) ((p.step (.request source now)).desk t) := by
  have ensured := p.scheduler.registry.effects_ensure source t now (p.yard.tickets t)
  refine ensured.trans ?_
  rw [step, desk, record?, Scheduler.request]
  dsimp only
  split
  · by_cases same : t = source
    · subst same
      obtain ⟨r, found⟩ : ∃ r, (p.scheduler.registry.ensure t now).find? t = some r := by
        rw [Registry.find?_ensure, if_pos rfl]
        exact ⟨_, rfl⟩
      exact Registry.effects_reschedule found now (Or.inl rfl)
    · exact Registry.effects_reschedule_other _ same now _
  · exact .refl

/-- An event changes the desk of each source by effects, unless it drops the record. -/
theorem effects_step {p : Plant} (synced : p.Synced) (event : Event) (t : SourceId) :
    Effects (p.desk t) ((p.step event).desk t) ∨
      ∃ inUse, event = .collect inUse ∧ inUse t = false ∧ (p.step event).desk t = (p.desk t).drop := by
  cases event with
  | supply source state => exact .inl .refl
  | upload source state now =>
    exact .inl (effects_invalidate (p.supply source state) source now t)
  | ensure source now =>
    exact .inl (p.scheduler.registry.effects_ensure source t now (p.yard.tickets t))
  | request source now => exact .inl (effects_request p source now t)
  | invalidate source now => exact .inl (effects_invalidate p source now t)
  | publish source program now => exact .inl (effects_publish p source program now t)
  | collect inUse =>
    have collected := p.desk_collect inUse t
    split at collected
    · rename_i gone
      exact .inr ⟨inUse, rfl, gone.2, collected⟩
    · exact .inl (by rw [step, collected])
  | sync now interval =>
    exact .inl (p.scheduler.registry.effects_sync now interval t (p.yard.tickets t))
  | work errands =>
    exact .inl (.single (.quiet (Nat.le_refl _) (p.yard.tickets_performAll errands t).symm))
  | tick plan now => exact .inl (effects_stages t (stages_tick synced))

/-- What every effect keeps of the empty desk, and dropping a record too, holds on each desk in
every run. -/
theorem desk_run {P : Desk → Prop} (effect : ∀ {d d' : Desk}, P d → Effect d d' → P d')
    (drop : ∀ {d : Desk}, P d → P d.drop) (empty : P ⟨1, none, []⟩) (settings : SchedulerSettings)
    (externals : List Signature) (events : List Event) (t : SourceId) :
    P (((new settings externals).run events).desk t) := by
  have kept : ∀ (p : Plant) (event : Event), p.Synced ∧ P (p.desk t) → True →
      (p.step event).Synced ∧ P ((p.step event).desk t) := by
    intro p event ⟨synced, start⟩ _
    refine ⟨step_synced event synced, ?_⟩
    rcases effects_step synced event t with effects | ⟨_, _, _, dropped⟩
    · exact effects.keep effect start
    · rw [dropped]
      exact drop start
  have start : (new settings externals).Synced ∧ P ((new settings externals).desk t) := ⟨rfl, empty⟩
  exact (run_keeps (P := fun p => p.Synced ∧ P (p.desk t)) kept start (follows_any _ events)).2

end Plant

end RobotArena
