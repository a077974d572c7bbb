import Mathlib.Data.List.Nodup
import RobotArena.Compilation.Notice
import RobotArena.Compilation.Scheduler

/-!
# Which sources have records

A record comes with the first request for its source and goes when nobody uses it. A tick adds and
drops none, whoever runs the jobs, and no source ever has two.
-/

namespace RobotArena

namespace Registry

variable {g : Registry} {source t : SourceId} {r : CompilationRecord}

/-- The sources that have records. -/
def sources (g : Registry) : List SourceId :=
  g.records.map (·.source)

theorem mem_sources : t ∈ g.sources ↔ (g.find? t).isSome := by
  simp [sources, find?, List.find?_isSome]

theorem not_mem_sources : t ∉ g.sources ↔ g.find? t = none := by
  rw [mem_sources, Option.not_isSome_iff_eq_none]

/-- If no source has two records, the record of a source is the one that is found. -/
theorem find?_eq_some_iff (distinct : g.sources.Nodup) :
    g.find? t = some r ↔ r ∈ g.records ∧ r.source = t := by
  constructor
  · intro found
    exact ⟨List.mem_of_find?_eq_some found, by simpa using List.find?_some found⟩
  · rintro ⟨member, rfl⟩
    unfold sources at distinct
    unfold find?
    generalize g.records = records at distinct member
    induction records with
    | nil => cases member
    | cons first rest ih =>
      obtain ⟨alone, distinct⟩ := List.nodup_cons.mp distinct
      rcases List.mem_cons.mp member with rfl | later
      · simp
      · have other : first.source ≠ r.source := by
          intro same
          exact alone (List.mem_map.mpr ⟨r, later, same.symm⟩)
        rw [List.find?_cons_of_neg (by simpa using other)]
        exact ih distinct later

theorem sources_modify (g : Registry) (source : SourceId)
    {change : CompilationRecord → CompilationRecord} (keeps : ∀ r, (change r).source = r.source) :
    (g.modify source change).sources = g.sources := by
  unfold sources modify
  rw [List.map_map]
  refine List.map_congr_left fun r _ => ?_
  show (if r.source = source then change r else r).source = r.source
  split
  · exact keeps r
  · rfl

theorem sources_ensure (g : Registry) (source : SourceId) (now : Nat) :
    (g.ensure source now).sources =
      if source ∈ g.sources then g.sources else g.sources ++ [source] := by
  by_cases known : source ∈ g.sources
  · rw [if_pos known, ensure, if_pos (mem_sources.mp known)]
  · rw [if_neg known, ensure, if_neg (mt mem_sources.mpr known), sources, List.map_append]
    rfl

theorem find?_ensure_found {r : CompilationRecord} (found : g.find? t = some r) (source : SourceId)
    (now : Nat) : (g.ensure source now).find? t = some r := by
  rw [find?_ensure]
  split
  · rename_i same
    rw [← same, found, Option.getD_some]
  · exact found

theorem mem_sources_ensure (g : Registry) (source : SourceId) (now : Nat) (t : SourceId) :
    t ∈ (g.ensure source now).sources ↔ t = source ∨ t ∈ g.sources := by
  rw [sources_ensure]
  split
  · rename_i known
    constructor
    · exact .inr
    · rintro (rfl | member)
      · exact known
      · exact member
  · rw [List.mem_append, List.mem_singleton, or_comm]

theorem nodup_ensure (distinct : g.sources.Nodup) (source : SourceId) (now : Nat) :
    (g.ensure source now).sources.Nodup := by
  rw [sources_ensure]
  split
  · exact distinct
  · rename_i unknown
    rw [← List.concat_eq_append]
    exact distinct.concat unknown

theorem sources_reschedule (g : Registry) (source : SourceId) (now : Nat) :
    (g.reschedule source now).sources = g.sources := by
  refine g.sources_modify source fun r => ?_
  rw [CompilationRecord.reschedule_eq]

theorem sources_foldl_reschedule (targets : List SourceId) (g : Registry) (now : Nat) :
    (targets.foldl (fun g t => g.reschedule t now) g).sources = g.sources := by
  induction targets generalizing g with
  | nil => rfl
  | cons t rest ih => rw [List.foldl_cons, ih, sources_reschedule]

theorem sources_publish (g : Registry) (source : SourceId) (program : Program) (now : Nat) :
    (g.publish source program now).sources = (g.ensure source now).sources := by
  refine (g.ensure source now).sources_modify source fun r => ?_
  rw [CompilationRecord.finish_eq]

theorem sources_sync (g : Registry) (now interval : Nat) :
    (g.sync now interval).2.sources = g.sources := by
  unfold sources sync
  rw [List.map_map]
  refine List.map_congr_left fun r _ => ?_
  show (if r.isSyncDue now interval then r.markSynced now else r).source = r.source
  split <;> rfl

theorem sources_collect (g : Registry) (inUse : SourceId → Bool) :
    (g.collect inUse).sources = g.sources.filter inUse := by
  unfold sources collect
  rw [List.filter_map]
  rfl

end Registry

namespace Scheduler

/-- The sources that have records. -/
abbrev sources (s : Scheduler) : List SourceId :=
  s.registry.sources

theorem sources_request (s : Scheduler) (source : SourceId) (now : Nat) :
    (s.request source now).sources = (s.registry.ensure source now).sources := by
  unfold request
  dsimp only
  split
  · exact Registry.sources_reschedule _ _ _
  · rfl

theorem sources_invalidate {s s' : Scheduler} {source : SourceId} {now count : Nat}
    (done : s.invalidate source now = .ok (count, s')) : s'.sources = s.sources := by
  unfold invalidate at done
  dsimp only at done
  split at done
  · cases done
  · cases done
    exact Registry.sources_foldl_reschedule _ _ now

theorem sources_modify (s : Scheduler) (source : SourceId)
    {change : CompilationRecord → CompilationRecord} (keeps : ∀ r, (change r).source = r.source) :
    (s.modify source change).sources = s.sources :=
  s.registry.sources_modify source keeps

theorem sources_dispatch {σ : Type} (dispatcher : Dispatcher σ) (now : Nat) (s : Scheduler) (env : σ)
    (count : Nat) (source : SourceId) :
    (dispatch dispatcher now (s, env, count) source).1.sources = s.sources := by
  have started : (s.modify source (·.start)).sources = s.sources :=
    s.sources_modify source fun r => by rw [CompilationRecord.start_eq]
  cases found : s.registry.find? source with
  | none => simp only [dispatch, found]
  | some r =>
    cases due : r.isDue now with
    | false => simp [dispatch, found, due]
    | true =>
      rcases answer : dispatcher ⟨source, r.generation⟩ env with ⟨acceptance, env'⟩
      cases acceptance with
      | accepted results => simpa [dispatch, found, due, answer] using started
      | refused =>
        have postponed : (((s.modify source (·.start)).modify source
            (·.postpone (now + (s.modify source (·.start)).backoff))).sources) = s.sources := by
          refine Eq.trans (sources_modify _ source fun r => ?_) started
          rw [CompilationRecord.postpone_eq]
        simpa [dispatch, found, due, answer] using postponed

theorem sources_dispatches {σ : Type} (dispatcher : Dispatcher σ) (now : Nat)
    (demanded : List SourceId) (s : Scheduler) (env : σ) (count : Nat) :
    (demanded.foldl (dispatch dispatcher now) (s, env, count)).1.sources = s.sources := by
  induction demanded generalizing s env count with
  | nil => rfl
  | cons source rest ih =>
    rw [List.foldl_cons]
    exact (ih _ _ _).trans (s.sources_dispatch dispatcher now env count source)

theorem sources_commit (s : Scheduler) (now : Nat) (result : JobResult) :
    (s.commit now result).1.sources = s.sources := by
  let landed := s.modify result.source ({ · with inFlight := false })
  have kept : landed.sources = s.sources := s.sources_modify result.source fun _ => rfl
  have finished (program : Option Program) (diagnostics : List Diagnostic)
      (dependencies : List SourceId) :
      (landed.finish result.source program diagnostics dependencies).sources = s.sources := by
    refine Eq.trans (sources_modify landed result.source fun r => ?_) kept
    rw [CompilationRecord.finish_eq]
  unfold commit
  split
  · rfl
  · dsimp only
    split
    · exact kept
    · split
      · exact finished _ _ _
      · exact finished _ _ _
      · refine Eq.trans (sources_modify landed result.source fun r => ?_) kept
        rw [CompilationRecord.schedule_eq, CompilationRecord.setProgress_eq]

theorem sources_commitAll (now : Nat) (results : List JobResult) (s : Scheduler) :
    (commitAll now results s).1.sources = s.sources := by
  induction results generalizing s with
  | nil => rfl
  | cons result rest ih =>
    have first := s.sources_commit now result
    rw [commitAll]
    rcases taken : s.commit now result with ⟨s', what⟩
    rw [taken] at first
    cases what with
    | committed => exact (ih s').trans first
    | discarded => exact (ih s').trans first

theorem sources_finalize (sources : List SourceId) (s : Scheduler) (count : Nat) :
    (sources.foldl finalize (s, count)).1.sources = s.sources := by
  induction sources generalizing s count with
  | nil => rfl
  | cons source rest ih =>
    have first : (finalize (s, count) source).1.sources = s.sources := by
      cases found : s.registry.find? source with
      | none => simp only [finalize, found]
      | some r =>
        simp only [finalize, found]
        split
        · refine s.sources_modify source fun r => ?_
          rw [CompilationRecord.setStatus_eq]
        · rfl
    rw [List.foldl_cons]
    exact (ih _ _).trans first

/-- A tick adds no record and drops none. -/
theorem sources_tick {σ : Type} (s : Scheduler) (dispatcher : Dispatcher σ) (env : σ) (now : Nat) :
    (s.tick dispatcher env now).2.1.sources = s.sources := by
  have dispatched := sources_dispatches dispatcher now s.demanded s env 0
  let handed := (s.demanded.foldl (dispatch dispatcher now) (s, env, 0)).1
  have taken := sources_commitAll now handed.inbox { handed with inbox := [] }
  exact ((sources_finalize _ _ 0).trans taken).trans dispatched

end Scheduler

end RobotArena
