import RobotArena.Proofs.Compilation.Freshness
import RobotArena.Proofs.Compilation.Versions

/-!
# What an upload does

An upload reschedules the records of the source and of everything that depends on it, each with a
generation that nothing has had before, and leaves everything else alone. It is refused exactly if
there is no such record and no compile has read the source or anything for it.
-/

namespace RobotArena

namespace Plant

variable {p : Plant} {source t : SourceId} {now : Nat}

/-- Whether no record and no job has had a generation at any point of a run. -/
def Unused (p : Plant) (events : List Event) (generation : Nat) : Prop :=
  ∀ earlier, earlier <+: events →
    (∀ t r, (p.run earlier).record? t = some r → r.generation ≠ generation) ∧
      ∀ ticket ∈ (p.run earlier).yard.outstanding, ticket.job.generation ≠ generation

theorem nextGeneration_le_step (synced : p.Synced) (event : Event) :
    p.scheduler.registry.nextGeneration ≤ (p.step event).scheduler.registry.nextGeneration := by
  -- the desks of all sources share the next generation, so any one will do
  rcases effects_step synced event (.ofPath "") with effects | ⟨_, _, _, dropped⟩
  · exact effects.next_le
  · exact Nat.le_of_eq (congrArg Desk.next dropped).symm

theorem nextGeneration_le_run (synced : p.Synced) (events : List Event) :
    p.scheduler.registry.nextGeneration ≤ (p.run events).scheduler.registry.nextGeneration := by
  induction events generalizing p with
  | nil => exact Nat.le_refl _
  | cons event rest ih =>
    exact Nat.le_trans (nextGeneration_le_step synced event) (ih (step_synced event synced))

/-- A generation that is still to be handed out was not in use at any point of the run. -/
theorem unused_of_next_le (settings : SchedulerSettings) (externals : List Signature)
    (events : List Event) {generation : Nat}
    (later : ((new settings externals).run events).scheduler.registry.nextGeneration ≤ generation) :
    (new settings externals).Unused events generation := by
  intro earlier past
  obtain ⟨rest, rfl⟩ := past
  have numbered := numbered_run settings externals earlier
  have grown := nextGeneration_le_run (run_synced settings externals earlier) rest
  rw [run_append] at later
  refine ⟨fun t r found same => ?_, fun ticket out same => ?_⟩
  · have below := ((numbered t).held r found).1
    simp only [desk] at below
    omega
  · have below := ((numbered ticket.job.source).given ticket (Yard.mem_tickets.mpr ⟨out, rfl⟩)).2
    simp only [desk] at below
    omega

/-! ### The answer -/

/-- An upload answers how many records it concerns, or that there is nothing it could concern. -/
theorem invalidate_answer (p : Plant) (source : SourceId) (now : Nat) :
    p.scheduler.invalidate source now =
      if p.concerned source = [] ∧ p.scheduler.graph.contains source = false then .error ⟨source⟩
      else .ok ((p.concerned source).length, (p.invalidate source now).scheduler) := by
  have unknown : ((p.concerned source).isEmpty && !p.scheduler.graph.contains source) = true ↔
      p.concerned source = [] ∧ p.scheduler.graph.contains source = false := by
    simp
  rw [invalidate_scheduler]
  split
  · rename_i none
    exact if_pos (unknown.mpr none)
  · rename_i some
    exact if_neg (mt unknown.mp some)

theorem invalidate_unconcerned (none : p.concerned source = []) :
    (p.invalidate source now).scheduler = p.scheduler := by
  rw [invalidate_scheduler, none]
  rfl

/-! ### Records -/

theorem record?_rescheduled {r : CompilationRecord} (concerns : p.Concerns source t)
    (found : p.record? t = some r) (now : Nat) :
    (p.invalidate source now).record? t = some (r.reschedule
      (p.scheduler.registry.nextGeneration + (p.concerned source).idxOf t) now) := by
  have member : t ∈ p.concerned source := mem_concerned_iff.mpr ⟨concerns, by simp [found]⟩
  rw [record?_invalidate, if_pos member, found, Option.map_some]

theorem distinct_rescheduled {t' : SourceId} {r r' : CompilationRecord} (other : t ≠ t')
    (concerns : p.Concerns source t) (concerns' : p.Concerns source t')
    (found : (p.invalidate source now).record? t = some r)
    (found' : (p.invalidate source now).record? t' = some r') : r.generation ≠ r'.generation := by
  have rescheduled {u : SourceId} {q : CompilationRecord} (concerns : p.Concerns source u)
      (found : (p.invalidate source now).record? u = some q) : u ∈ p.concerned source ∧
        q.generation = p.scheduler.registry.nextGeneration + (p.concerned source).idxOf u := by
    have after := record?_invalidate p source now u
    cases known : p.record? u with
    | none => simp [known, found] at after
    | some before =>
      rw [record?_rescheduled concerns known] at found
      cases found
      rw [CompilationRecord.reschedule_eq]
      exact ⟨mem_concerned_iff.mpr ⟨concerns, by simp [known]⟩, rfl⟩
  obtain ⟨member, generation⟩ := rescheduled concerns found
  obtain ⟨_, generation'⟩ := rescheduled concerns' found'
  intro same
  apply other
  apply (List.idxOf_inj member).mp
  omega

/-- In every run, an upload reschedules exactly the records that it concerns, each with a generation
of its own that nothing has had so far, and answers how many they are. It is refused exactly if there
are none and the graph does not know the source, and then changes nothing. -/
theorem uploads_reschedule_what_they_concern (settings : SchedulerSettings)
    (externals : List Signature) (events : List Event) (source : SourceId) (now : Nat) :
    let start := new settings externals
    let p := start.run events
    let q := p.step (.invalidate source now)
    (∃ targets : List SourceId, targets.Nodup ∧
      (∀ t, t ∈ targets ↔ p.Concerns source t ∧ (p.record? t).isSome) ∧
      p.scheduler.invalidate source now =
        if targets = [] ∧ p.scheduler.graph.contains source = false then .error ⟨source⟩
        else .ok (targets.length, q.scheduler)) ∧
    (p.scheduler.invalidate source now = .error ⟨source⟩ → q.scheduler = p.scheduler) ∧
    (∀ t r, p.Concerns source t → p.record? t = some r →
      ∃ generation, start.Unused events generation ∧
        q.record? t = some { r with
          status := .scheduled, scheduledAt := now, diagnostics := [], generation
          dirty := r.dirty || r.status ≠ .scheduled }) ∧
    (∀ t t' r r', t ≠ t' → p.Concerns source t → p.Concerns source t' →
      q.record? t = some r → q.record? t' = some r' → r.generation ≠ r'.generation) ∧
    (∀ t, ¬p.Concerns source t ∨ p.record? t = none → q.record? t = p.record? t) ∧
    q.scheduler = { p.scheduler with registry := q.scheduler.registry } ∧
    q.nextVersion = p.nextVersion ∧ q.scheduler.sources = p.scheduler.sources := by
  intro start p q
  have answer := p.invalidate_answer source now
  refine ⟨⟨p.concerned source, p.nodup_concerned source, fun t => mem_concerned_iff, answer⟩,
    fun refused => ?_, fun t r concerns found => ?_, ?_, fun t spared => ?_, ?_, ?_, ?_⟩
  · rw [refused] at answer
    split at answer
    · rename_i none
      exact invalidate_unconcerned none.1
    · cases answer
  · have rescheduled := record?_rescheduled concerns found now
    rw [CompilationRecord.reschedule_eq] at rescheduled
    exact ⟨_, unused_of_next_le settings externals events (Nat.le_add_right _ _), rescheduled⟩
  · intro t t' r r' other concerns concerns' found found'
    exact distinct_rescheduled other concerns concerns' found found'
  · rcases spared with spared | absent
    · exact record?_invalidate_other now spared
    · show (p.invalidate source now).record? t = p.record? t
      rw [record?_invalidate, absent, Option.map_none, ite_self]
  · have rescheduled := p.invalidate_scheduler source now
    show (p.invalidate source now).scheduler =
      { p.scheduler with registry := (p.invalidate source now).scheduler.registry }
    rw [rescheduled]
  · exact (turned_invalidate p source now).next
  · show (p.invalidate source now).scheduler.sources = _
    rw [invalidate_scheduler]
    exact Registry.sources_foldl_reschedule _ _ now

theorem upload_of_an_included_source_reschedules :
    let p := (new {} []).run includingRun
    p.Concerns (.ofPath "lib.asm") (.ofPath "main.asm") ∧
      ∃ r generation, p.record? (.ofPath "main.asm") = some r ∧ r.status = .done ∧
        (new {} []).Unused includingRun generation ∧
        (p.step (.invalidate (.ofPath "lib.asm") 2)).record? (.ofPath "main.asm") =
          some { r with
            status := .scheduled, scheduledAt := 2, diagnostics := [], generation
            dirty := r.dirty || r.status ≠ .scheduled } := by
  intro p
  have reads : (SourceId.ofPath "main.asm", SourceId.ofPath "lib.asm") ∈ p.scheduler.graph.pairs := by
    decide +kernel
  have concerns : p.Concerns (.ofPath "lib.asm") (.ofPath "main.asm") := .inr (.single reads)
  have done : (p.record? (.ofPath "main.asm")).map (·.status) = some .done := by
    decide +kernel
  obtain ⟨r, found, status⟩ := Option.map_eq_some_iff.mp done
  obtain ⟨generation, unused, rescheduled⟩ :=
    (uploads_reschedule_what_they_concern {} [] includingRun (.ofPath "lib.asm") 2).2.2.1 _ r
      concerns found
  exact ⟨concerns, r, generation, found, status, unused, rescheduled⟩

end Plant

end RobotArena
