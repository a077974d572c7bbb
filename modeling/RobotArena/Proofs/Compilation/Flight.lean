import RobotArena.Proofs.Compilation.Desk

/-!
# One job for each record

A record notes that a job is out when it hands one out, and that none is when any result for its
source comes in. That result need not be from the job it waits for: it may come from a job of an
earlier record of the source, which was dropped meanwhile. The main statement says exactly when the
note is right, and that it is right in every run that drops no record with a job out.
-/

namespace RobotArena

/-- Whether the record of its source has handed out a job and no other result has come in since. -/
def Ticket.awaited (t : Ticket) : Bool :=
  !t.fate.orphaned && !t.fate.overtaken

/-- Jobs without a record are orphaned, and a record with a job in flight has one that is awaited. -/
structure Desk.Watched (d : Desk) : Prop where
  gone : d.record = none → ∀ t ∈ d.tickets, t.fate.orphaned = true
  noted : ∀ r, d.record = some r → (d.tickets.filter Ticket.awaited).length = r.inFlight.toNat

namespace Desk.Watched

variable {n n' : Nat} {record : Option CompilationRecord} {r r' : CompilationRecord}
  {out out' : List Ticket}

theorem empty : Watched ⟨1, none, []⟩ :=
  ⟨by simp, by simp⟩

theorem awaited_touched (out : List Ticket) :
    ((out.map (Ticket.change .touch)).filter Ticket.awaited).length =
      (out.filter Ticket.awaited).length := by
  rw [List.filter_map, List.length_map]
  rfl

theorem awaited_overtaken (out : List Ticket) :
    (out.map (Ticket.change .overtake)).filter Ticket.awaited = [] := by
  refine List.filter_eq_nil_iff.mpr fun t member => ?_
  obtain ⟨s, _, rfl⟩ := List.mem_map.mp member
  simp [Ticket.awaited, Ticket.change, Fate.overtake]

/-- A record that keeps its note is still watched. -/
theorem of_record (h : Watched ⟨n, some r, out⟩) (same : r'.inFlight = r.inFlight)
    (count : (out'.filter Ticket.awaited).length = (out.filter Ticket.awaited).length) :
    Watched ⟨n', some r', out'⟩ := by
  refine ⟨by simp, ?_⟩
  rintro _ ⟨⟩
  rw [same, count]
  exact h.noted r rfl

/-- When a result has come in, no job is awaited, and none is noted. -/
theorem of_landed (idle : r'.inFlight = false) :
    Watched ⟨n, some r', out.map (.change .overtake)⟩ := by
  refine ⟨by simp, ?_⟩
  rintro _ ⟨⟩
  rw [awaited_overtaken, idle]
  rfl

theorem effect {d d' : Desk} (h : d.Watched) (effect : Effect d d') : d'.Watched := by
  cases effect with
  | @quiet n n' record out out' later same =>
    refine ⟨fun none t member => h.gone none t (same.mem_iff.mpr member), fun r found => ?_⟩
    rw [← (same.filter Ticket.awaited).length_eq]
    exact h.noted r found
  | told now => exact h.of_record rfl rfl
  | @created n out source now =>
    refine ⟨by simp, ?_⟩
    rintro _ ⟨⟩
    have none : out.filter Ticket.awaited = [] := by
      refine List.filter_eq_nil_iff.mpr fun t member => ?_
      simp [Ticket.awaited, h.gone rfl t member]
    rw [none]
    rfl
  | rescheduled now marks =>
    refine h.of_record (by rw [CompilationRecord.reschedule_eq]) ?_
    rcases marks with rfl | rfl
    · rfl
    · exact awaited_touched _
  | published version program =>
    exact h.of_record (by rw [CompilationRecord.finish_eq]) (awaited_touched _)
  | @accepted n r out now source due =>
    have idle : r.inFlight = false := ((r.isDue_iff now).mp due).2.1
    have none : (out.filter Ticket.awaited).length = 0 := by
      rw [h.noted r rfl, idle]
      rfl
    refine ⟨by simp, ?_⟩
    rintro _ ⟨⟩
    rw [CompilationRecord.start_eq, List.filter_cons_of_pos rfl, List.length_cons, none]
    rfl
  | @refused n r out now later due =>
    have idle : r.inFlight = false := ((r.isDue_iff now).mp due).2.1
    exact h.of_record (by rw [CompilationRecord.postpone_eq, idle]) rfl
  | @dropped n t out =>
    refine ⟨fun _ s member => ?_, by simp⟩
    obtain ⟨s', before, rfl⟩ := List.mem_map.mp member
    exact h.gone rfl s' (List.mem_cons_of_mem _ before)
  | discarded stale => exact of_landed rfl
  | committed current version program diagnostics =>
    exact of_landed (by rw [CompilationRecord.finish_eq])
  | delayed current progress later =>
    exact of_landed (by rw [CompilationRecord.schedule_eq, CompilationRecord.setProgress_eq])
  | finalized compiled => exact h.of_record (by rw [CompilationRecord.setStatus_eq]) rfl

theorem drop {d : Desk} : d.drop.Watched := by
  refine ⟨fun _ t member => ?_, by simp [Desk.drop]⟩
  obtain ⟨s, _, rfl⟩ := List.mem_map.mp member
  rfl

end Desk.Watched

/-- No job has lost its record, and none has been overtaken. -/
def Desk.Settled (d : Desk) : Prop :=
  d.Watched ∧ ∀ t ∈ d.tickets, t.fate.orphaned = false ∧ t.fate.overtaken = false

namespace Desk.Settled

variable {n n' : Nat} {record record' : Option CompilationRecord} {t : Ticket}
  {out out' : List Ticket}

theorem empty : Settled ⟨1, none, []⟩ :=
  ⟨Watched.empty, by simp⟩

theorem all_awaited {d : Desk} (h : d.Settled) : d.tickets.filter Ticket.awaited = d.tickets := by
  refine List.filter_eq_self.mpr fun t member => ?_
  obtain ⟨own, first⟩ := h.2 t member
  simp [Ticket.awaited, own, first]

/-- Without a record there is no job, and with a record there is at most one. -/
theorem only (h : Settled ⟨n, record, t :: out⟩) : out = [] := by
  have all := h.all_awaited
  cases record with
  | none =>
    have orphaned := h.1.gone rfl t List.mem_cons_self
    rw [(h.2 t List.mem_cons_self).1] at orphaned
    cases orphaned
  | some r =>
    have count := h.1.noted r rfl
    rw [all] at count
    have bound := Bool.toNat_le r.inFlight
    rw [List.length_cons] at count
    exact List.length_eq_zero_iff.mp (by omega)

theorem of_touched (h : Settled ⟨n, record, out⟩) :
    ∀ t ∈ out.map (Ticket.change .touch), t.fate.orphaned = false ∧ t.fate.overtaken = false := by
  intro t member
  obtain ⟨s, before, rfl⟩ := List.mem_map.mp member
  exact h.2 s before

/-- The only job is taken over. -/
theorem of_taken (h : Settled ⟨n, record, t :: out⟩)
    (watched : Watched ⟨n', record', out.map (.change .overtake)⟩) :
    Settled ⟨n', record', out.map (.change .overtake)⟩ := by
  refine ⟨watched, fun s member => ?_⟩
  obtain ⟨_, before, _⟩ := List.mem_map.mp member
  rw [h.only] at before
  cases before

theorem effect {d d' : Desk} (h : d.Settled) (effect : Effect d d') : d'.Settled := by
  have watched : d'.Watched := h.1.effect effect
  cases effect with
  | quiet later same => exact ⟨watched, fun t member => h.2 t (same.mem_iff.mpr member)⟩
  | told now => exact ⟨watched, h.2⟩
  | created source now => exact ⟨watched, h.2⟩
  | rescheduled now marks =>
    refine ⟨watched, ?_⟩
    rcases marks with rfl | rfl
    · exact h.2
    · exact h.of_touched
  | published version program => exact ⟨watched, h.of_touched⟩
  | accepted source due =>
    refine ⟨watched, fun t member => ?_⟩
    rcases List.mem_cons.mp member with rfl | old
    · exact ⟨rfl, rfl⟩
    · exact h.2 t old
  | refused later due => exact ⟨watched, h.2⟩
  | dropped => exact h.of_taken watched
  | discarded stale => exact h.of_taken watched
  | committed current version program diagnostics => exact h.of_taken watched
  | delayed current progress later => exact h.of_taken watched
  | finalized compiled => exact ⟨watched, h.2⟩

theorem drop {d : Desk} (idle : d.tickets = []) : d.drop.Settled := by
  refine ⟨Watched.drop, fun t member => ?_⟩
  simp [Desk.drop, idle] at member

end Desk.Settled

namespace Plant

/-- The jobs that are out and that the record of a source has handed out itself. -/
def ownJobs (p : Plant) (source : SourceId) : List Ticket :=
  (p.yard.tickets source).filter fun t => !t.fate.orphaned

/-- A record notes that a job is in flight exactly when it has one out, and has no two out. -/
def OneJob (p : Plant) (source : SourceId) (r : CompilationRecord) : Prop :=
  (r.inFlight = true ↔ p.ownJobs source ≠ []) ∧ (p.ownJobs source).length ≤ 1

/-- Records with a job out are not dropped. -/
def Sparing (p : Plant) : Event → Prop
  | .collect inUse => ∀ source, (p.record? source).isSome → inUse source = false →
      p.yard.tickets source = []
  | _ => True

theorem watched_run (settings : SchedulerSettings) (externals : List Signature)
    (events : List Event) (t : SourceId) :
    (((new settings externals).run events).desk t).Watched :=
  desk_run Desk.Watched.effect (fun _ => Desk.Watched.drop) Desk.Watched.empty settings externals
    events t

theorem settled_step {p : Plant} {event : Event} (synced : p.Synced) (sparing : Sparing p event)
    (t : SourceId) (settled : (p.desk t).Settled) : ((p.step event).desk t).Settled := by
  rcases effects_step synced event t with effects | ⟨inUse, rfl, unused, dropped⟩
  · exact effects.keep Desk.Settled.effect settled
  · rw [dropped]
    refine Desk.Settled.drop ?_
    cases found : p.record? t with
    | some r => exact sparing t (by rw [found]; rfl) unused
    | none =>
      refine List.eq_nil_iff_forall_not_mem.mpr fun s member => ?_
      have orphaned := settled.1.gone found s member
      rw [(settled.2 s member).1] at orphaned
      cases orphaned

/-- A job is awaited if it is the record's own and was not overtaken. -/
theorem awaited_eq_own {p : Plant} {source : SourceId}
    (first : ∀ t ∈ p.ownJobs source, t.fate.overtaken = false) :
    (p.yard.tickets source).filter Ticket.awaited = p.ownJobs source := by
  refine List.filter_congr fun t member => ?_
  cases own : t.fate.orphaned with
  | true => simp [Ticket.awaited, own]
  | false =>
    have mine : t ∈ p.ownJobs source := List.mem_filter.mpr ⟨member, by simp [own]⟩
    simp [Ticket.awaited, own, first t mine]

theorem oneJob_of_count {p : Plant} {source : SourceId} {r : CompilationRecord}
    (count : (p.ownJobs source).length = r.inFlight.toNat) : p.OneJob source r := by
  cases flight : r.inFlight with
  | false =>
    rw [flight] at count
    have none : p.ownJobs source = [] := List.length_eq_zero_iff.mp count
    simp [OneJob, flight, none]
  | true =>
    rw [flight] at count
    refine ⟨⟨fun _ none => ?_, fun _ => flight⟩, Nat.le_of_eq count⟩
    rw [none] at count
    cases count

/-- At any time, the note of a record is right and it has at most one job out exactly if no result
of another job has come in while a job of its own was out. In a run that drops no record with a job
out, this is always so. -/
theorem oneJob_iff_none_overtaken (settings : SchedulerSettings) (externals : List Signature)
    (events : List Event) (source : SourceId) :
    let p := (new settings externals).run events
    ∀ r, p.record? source = some r →
      (p.OneJob source r ↔ ∀ t ∈ p.ownJobs source, t.fate.overtaken = false) ∧
      (Follows Sparing (new settings externals) events → p.OneJob source r) := by
  intro p r found
  have count := (watched_run settings externals events source).noted r found
  have enough (first : ∀ t ∈ p.ownJobs source, t.fate.overtaken = false) : p.OneJob source r :=
    oneJob_of_count (by rw [← awaited_eq_own first]; exact count)
  refine ⟨⟨fun one t own => ?_, enough⟩, fun sparing => enough fun t own => ?_⟩
  · have flight : r.inFlight = true := one.1.mpr (List.ne_nil_of_mem own)
    rw [flight] at count
    have some : 0 < ((p.desk source).tickets.filter Ticket.awaited).length := by
      rw [count]
      exact Nat.one_pos
    obtain ⟨s, awaited⟩ := List.exists_mem_of_length_pos some
    obtain ⟨member, good⟩ := List.mem_filter.mp awaited
    have both : s.fate.orphaned = false ∧ s.fate.overtaken = false := by
      simpa [Ticket.awaited] using good
    have mine : s ∈ p.ownJobs source := List.mem_filter.mpr ⟨member, by simp [both.1]⟩
    obtain ⟨u, single⟩ := List.length_eq_one_iff.mp
      (Nat.le_antisymm one.2 (List.length_pos_of_mem own))
    rw [single, List.mem_singleton] at own mine
    rw [own, ← mine]
    exact both.2
  · have start : (new settings externals).Synced ∧
        ∀ t, ((new settings externals).desk t).Settled :=
      ⟨rfl, fun _ => Desk.Settled.empty⟩
    have settled := run_keeps (P := fun p => p.Synced ∧ ∀ t, (p.desk t).Settled)
      (fun _ event kept rule =>
        ⟨step_synced event kept.1, fun t => settled_step kept.1 rule t (kept.2 t)⟩) start sparing
    exact ((settled.2 source).2 t (List.mem_filter.mp own).1).2

theorem parked_job_is_the_only_one :
    ∃ r, ((new {} []).run [.request (.ofPath "main.asm") 0, .tick .park 0]).record?
        (.ofPath "main.asm") = some r ∧
      ((new {} []).run [.request (.ofPath "main.asm") 0, .tick .park 0]).OneJob
        (.ofPath "main.asm") r := by
  let events : List Event := [.request (.ofPath "main.asm") 0, .tick .park 0]
  let r : CompilationRecord :=
    { source := .ofPath "main.asm", status := .compiling, scheduledAt := 0, dirty := true
      generation := 1, inFlight := true }
  have found : ((new {} []).run events).record? (.ofPath "main.asm") = some r := rfl
  have sparing : Follows Sparing (new {} []) events := ⟨trivial, trivial, trivial⟩
  exact ⟨r, found, (oneJob_iff_none_overtaken {} [] events (.ofPath "main.asm") r found).2 sparing⟩

/-- A record is dropped and asked for again while its first job is out. The result of that job comes
in, and the second record, rescheduled by an upload, hands out another job. -/
def overtakingRun : List Event :=
  [.request (.ofPath "main.asm") 0, .tick .park 0, .collect fun _ => false,
    .request (.ofPath "main.asm") 1, .tick .park 1, .work [.run 0, .send 0], .tick .park 2,
    .invalidate (.ofPath "main.asm") 3, .request (.ofPath "main.asm") 3, .tick .park 3]

theorem two_jobs_of_one_record :
    ¬∀ events source r, ((new {} []).run events).record? source = some r →
      ((new {} []).run events).OneJob source r := by
  intro claim
  have two : (((new {} []).run overtakingRun).ownJobs (.ofPath "main.asm")).length = 2 := rfl
  obtain ⟨r, found⟩ : ∃ r, ((new {} []).run overtakingRun).record? (.ofPath "main.asm") = some r :=
    ⟨_, rfl⟩
  have one := (claim overtakingRun (.ofPath "main.asm") r found).2
  rw [two] at one
  exact absurd one (by decide)

end Plant

end RobotArena
