import RobotArena.Compilation.Record

/-!
# The registry of records

At most one record for each source, and the counters from which versions and generations are
handed out. A number is never handed out twice, not even after its record is gone.
-/

namespace RobotArena

/-- The records, and the next version and generation to hand out. -/
structure Registry where
  records : List CompilationRecord := []
  nextVersion : Nat := 1
  nextGeneration : Nat := 1

namespace Registry

/-- The record of a source. -/
def find? (g : Registry) (source : SourceId) : Option CompilationRecord :=
  g.records.find? (·.source = source)

/-- Changes the record of a source. -/
def modify (g : Registry) (source : SourceId)
    (change : CompilationRecord → CompilationRecord) : Registry :=
  { g with records := g.records.map fun r => if r.source = source then change r else r }

/-- Sees to it that a source has a record. -/
def ensure (g : Registry) (source : SourceId) (now : Nat) : Registry :=
  if (g.find? source).isSome then g
  else { g with records := g.records ++ [{ source, scheduledAt := now }] }

/-- Uses up a version. -/
def useVersion (g : Registry) : Registry :=
  { g with nextVersion := g.nextVersion + 1 }

/-- Uses up a generation. -/
def useGeneration (g : Registry) : Registry :=
  { g with nextGeneration := g.nextGeneration + 1 }

/-- Asks for a compile of a source that answers a new request. -/
def reschedule (g : Registry) (source : SourceId) (now : Nat) : Registry :=
  (g.modify source (·.reschedule g.nextGeneration now)).useGeneration

/-- Takes in a program that was compiled beforehand. Jobs under way for the source answer an
older request from now on. -/
def publish (g : Registry) (source : SourceId) (program : Program) (now : Nat) : Registry :=
  let g := g.ensure source now
  ((g.modify source fun r =>
    { r with generation := g.nextGeneration }.finish g.nextVersion (some program)
      program.diagnostics .done).useGeneration).useVersion

/-- The sources whose records nobody uses. -/
def unused (g : Registry) (inUse : SourceId → Bool) : List SourceId :=
  (g.records.map (·.source)).filter (!inUse ·)

/-- Drops the records that nobody uses. -/
def collect (g : Registry) (inUse : SourceId → Bool) : Registry :=
  { g with records := g.records.filter fun r => inUse r.source }

/-! ### What each operation does to the record of a source -/

theorem find?_modify (g : Registry) (s t : SourceId)
    (change : CompilationRecord → CompilationRecord)
    (keeps : ∀ r, (change r).source = r.source) :
    (g.modify s change).find? t = if t = s then (g.find? t).map change else g.find? t := by
  unfold modify find?
  induction g.records with
  | nil => simp
  | cons r rest ih =>
    rw [List.map_cons, List.find?_cons, List.find?_cons]
    by_cases hs : r.source = s
    · rw [if_pos hs, keeps]
      by_cases ht : r.source = t
      · simp [ht, hs ▸ ht]
      · simp [ht, ih]
    · rw [if_neg hs]
      by_cases ht : r.source = t
      · have : t ≠ s := ht ▸ hs
        simp [ht, this]
      · simp [ht, ih]

theorem find?_ensure (g : Registry) (s t : SourceId) (now : Nat) :
    (g.ensure s now).find? t =
      if t = s then some ((g.find? s).getD { source := s, scheduledAt := now })
      else g.find? t := by
  unfold ensure
  split
  · rename_i h
    obtain ⟨r, hr⟩ := Option.isSome_iff_exists.1 h
    by_cases e : t = s <;> simp [e, hr]
  · rename_i h
    have hn : g.find? s = none := by simpa using h
    unfold find? at hn ⊢
    rw [List.find?_append]
    by_cases e : t = s
    · simp [e, hn]
    · simp [e, Ne.symm e]

theorem find?_reschedule (g : Registry) (s t : SourceId) (now : Nat) :
    (g.reschedule s now).find? t =
      if t = s then (g.find? t).map (·.reschedule g.nextGeneration now) else g.find? t := by
  refine find?_modify g s t _ fun r => ?_
  rw [CompilationRecord.reschedule_eq]

theorem find?_publish (g : Registry) (s t : SourceId) (program : Program) (now : Nat) :
    (g.publish s program now).find? t =
      if t = s then
        ((g.ensure s now).find? t).map fun r =>
          { r with generation := (g.ensure s now).nextGeneration }.finish
            (g.ensure s now).nextVersion (some program) program.diagnostics .done
      else g.find? t := by
  have modified := find?_modify (g.ensure s now) s t
    (fun r => { r with generation := (g.ensure s now).nextGeneration }.finish
      (g.ensure s now).nextVersion (some program) program.diagnostics .done)
    (fun r => by rw [CompilationRecord.finish_eq])
  refine Eq.trans modified ?_
  split
  · rfl
  · rename_i other
    rw [find?_ensure, if_neg other]

theorem find?_collect (g : Registry) (inUse : SourceId → Bool) (t : SourceId) :
    (g.collect inUse).find? t = if inUse t then g.find? t else none := by
  unfold collect find?
  induction g.records with
  | nil => simp
  | cons r rest ih =>
    by_cases same : r.source = t
    · by_cases used : inUse t = true
      · simp [same, used]
      · simp [same, used, ih]
    · by_cases used : inUse r.source = true
      · simp [same, used, ih]
      · simp [same, used, ih]

end Registry

end RobotArena
