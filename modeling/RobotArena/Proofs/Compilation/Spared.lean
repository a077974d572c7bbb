import RobotArena.Proofs.Compilation.Versions

/-!
# Sources that nothing concerns

While no upload concerns a source and its record is kept, the record stays done once it is, whatever
happens elsewhere and whatever reports still come in for it.
-/

namespace RobotArena

theorem CompilationStatus.moves_done {status : CompilationStatus} (moves : Moves .done status) :
    status = .done := by
  induction moves with
  | refl => rfl
  | tail _ move ih =>
    rw [ih] at move
    cases move

namespace Plant

variable {p q : Plant} {plan : Plan} {now : Nat} {t : SourceId}

/-- Whether an event keeps the record of a source and is no upload that concerns it. -/
def Spares (p : Plant) (t : SourceId) : Event → Prop
  | .upload source _ _ => ¬p.Concerns source t
  | .invalidate source _ => ¬p.Concerns source t
  | .collect inUse => inUse t = true
  | _ => True

/-- What each event that keeps to a rule keeps, at any point of a run, is kept to the end. -/
theorem reached_keeps {start : Plant} {P : Plant → Prop} {rule : Plant → Event → Prop}
    (step : ∀ earlier event, P (start.run earlier) → rule (start.run earlier) event →
      P ((start.run earlier).step event))
    {events later : List Event} (first : P (start.run events))
    (follows : Follows rule (start.run events) later) : P (start.run (events ++ later)) := by
  induction later generalizing events with
  | nil =>
    rw [List.append_nil]
    exact first
  | cons event rest ih =>
    have next : start.run (events ++ [event]) = (start.run events).step event :=
      run_append start events [event]
    have kept := step events event first follows.1
    rw [← next] at kept
    have remain : Follows rule (start.run (events ++ [event])) rest := by
      rw [next]
      exact follows.2
    rw [← List.singleton_append, ← List.append_assoc]
    exact ih kept remain

/-! ### What is done stays done -/

theorem status?_eq_some {status : CompilationStatus} :
    p.status? t = some status ↔ ∃ r, p.record? t = some r ∧ r.status = status :=
  Option.map_eq_some_iff

theorem done_stages (exclusive : (p.desk t).Exclusive) (stages : Stages plan now p q)
    (done : p.status? t = some .done) : q.status? t = some .done := by
  obtain ⟨r, found, status⟩ := status?_eq_some.mp done
  obtain ⟨r', found', moves⟩ :=
    (effects_stages t stages).moves exclusive (nextGeneration_stages stages) found
  rw [status] at moves
  exact status?_eq_some.mpr ⟨r', found', CompilationStatus.moves_done moves⟩

theorem done_spared (synced : p.Synced) (ended : p.Ended) (exclusive : (p.desk t).Exclusive)
    {event : Event} (done : p.status? t = some .done) (spared : p.Spares t event) :
    (p.step event).status? t = some .done := by
  rcases done_step synced ended exclusive event done with
    stays | ⟨inUse, rfl, unused, _⟩ | ⟨source, now, concerns, rfl | ⟨state, rfl⟩⟩
  · exact stays
  · have used : inUse t = true := spared
    rw [unused] at used
    cases used
  · exact absurd concerns spared
  · exact absurd concerns spared

/-- While a record is done, no result that comes in for it is expected. -/
theorem unexpected_of_done (exclusive : (p.desk t).Exclusive) (done : p.status? t = some .done)
    {r : Report} (sent : r ∈ (p.opened plan now).yard.sent) (own : r.job.source = t) :
    ¬(p.opened plan now).scheduler.Expects r.result := by
  intro expected
  subst own
  have stages : Stages plan now p (p.opened plan now) := stages_opened p
  have opened := (effects_stages r.job.source stages).keep Desk.Exclusive.effect exclusive
  obtain ⟨record, found, status⟩ := status?_eq_some.mp (done_stages exclusive stages done)
  obtain ⟨same, found', generation⟩ := Option.map_eq_some_iff.mp expected
  cases found.symm.trans found'
  have out := Yard.ticket_of_report (List.mem_append_right (p.opened plan now).yard.finished sent)
  have compiling := opened.awaited record found r.toTicket out generation.symm
  rw [status] at compiling
  cases compiling

theorem done_stays (settings : SchedulerSettings) (externals : List Signature)
    {events later : List Event} (done : ((new settings externals).run events).status? t = some .done)
    (spared : Follows (·.Spares t) ((new settings externals).run events) later) :
    ((new settings externals).run (events ++ later)).status? t = some .done := by
  refine reached_keeps (P := fun p => p.status? t = some .done) (fun earlier event done spared => ?_)
    done spared
  exact done_spared (run_synced settings externals earlier) (ended_run settings externals earlier)
    (exclusive_run settings externals earlier t) done spared

end Plant

end RobotArena
