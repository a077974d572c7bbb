import RobotArena.Proofs.Compilation.Offers

/-!
# What a tick counts

A result that a tick takes over ends a compile, or comes too late, or says that its job has to wait.
A tick's report counts the first kind as committed. As discarded it counts those that come too late,
but also those that say that a job has to wait, though their records do take note of them.
-/

namespace RobotArena

namespace Scheduler

variable {s : Scheduler} {result : JobResult}

instance (s : Scheduler) (result : JobResult) : Decidable (s.Expects result) :=
  inferInstanceAs (Decidable (_ = _))

/-- Whether a result ends the compile of its record. -/
def Ends (s : Scheduler) (result : JobResult) : Prop :=
  s.Expects result ∧ result.outcome.dependencies?.isSome

instance (s : Scheduler) (result : JobResult) : Decidable (s.Ends result) :=
  inferInstanceAs (Decidable (_ ∧ _))

/-- Whether a result puts off the compile of its record. -/
def Delays (s : Scheduler) (result : JobResult) : Prop :=
  s.Expects result ∧ result.outcome.dependencies?.isNone

instance (s : Scheduler) (result : JobResult) : Decidable (s.Delays result) :=
  inferInstanceAs (Decidable (_ ∧ _))

/-! ### The three kinds of results -/

theorem expects_commit (s : Scheduler) (now : Nat) (result other : JobResult) :
    (s.commit now result).1.Expects other ↔ s.Expects other := by
  rw [Expects, Expects, generation_commit]

theorem ends_commit (s : Scheduler) (now : Nat) (result other : JobResult) :
    (s.commit now result).1.Ends other ↔ s.Ends other := by
  rw [Ends, Ends, expects_commit]

theorem delays_commit (s : Scheduler) (now : Nat) (result other : JobResult) :
    (s.commit now result).1.Delays other ↔ s.Delays other := by
  rw [Delays, Delays, expects_commit]

/-- Taking over results makes no other result expected, and none unexpected. -/
theorem expects_commitAll (now : Nat) (results : List JobResult) (s : Scheduler)
    (other : JobResult) : (commitAll now results s).1.Expects other ↔ s.Expects other := by
  rw [Expects, Expects, generation_commitAll]

theorem discarded_iff (s : Scheduler) (now : Nat) (result : JobResult) :
    (s.commit now result).2 = .discarded ↔ ¬s.Ends result := by
  rw [Ends, ← s.committed_iff now result]
  cases (s.commit now result).2 <;> simp

theorem delays_iff : s.Delays result ↔ s.Expects result ∧ ¬s.Ends result := by
  unfold Delays Ends
  cases result.outcome.dependencies? <;> simp

/-- Each result is counted for what it was before any of them was taken over. -/
theorem commitAll_counts (now : Nat) (results : List JobResult) (s : Scheduler) :
    (commitAll now results s).2.1.length = results.countP (s.Ends ·) ∧
      (commitAll now results s).2.2 =
        results.countP (¬s.Expects ·) + results.countP (s.Delays ·) := by
  induction results generalizing s with
  | nil => exact ⟨rfl, rfl⟩
  | cons result rest ih =>
    obtain ⟨ended, discarded⟩ := ih (s.commit now result).1
    have ends : rest.countP ((s.commit now result).1.Ends ·) = rest.countP (s.Ends ·) :=
      List.countP_congr fun other _ => by simp only [decide_eq_true_eq, ends_commit]
    have late : rest.countP (¬(s.commit now result).1.Expects ·) = rest.countP (¬s.Expects ·) :=
      List.countP_congr fun other _ => by simp only [decide_eq_true_eq, expects_commit]
    have delays : rest.countP ((s.commit now result).1.Delays ·) = rest.countP (s.Delays ·) :=
      List.countP_congr fun other _ => by simp only [decide_eq_true_eq, delays_commit]
    rw [ends] at ended
    rw [late, delays] at discarded
    have waits : s.Delays result ↔ s.Expects result ∧ ¬s.Ends result := delays_iff
    simp only [List.countP_cons, decide_eq_true_eq, waits]
    cases what : (s.commit now result).2 with
    | committed =>
      have here : s.Ends result := (s.committed_iff now result).mp what
      simp only [commitAll, what, List.length_cons, ended, discarded, here, here.1]
      simp
    | discarded =>
      have other : ¬s.Ends result := (s.discarded_iff now result).mp what
      simp only [commitAll, what, ended, discarded, other]
      by_cases expected : s.Expects result
      · simp [expected]
        omega
      · simp [expected]
        omega

theorem inbox_tick {σ : Type} (s : Scheduler) (dispatcher : Dispatcher σ) (env : σ) (now : Nat) :
    (s.tick dispatcher env now).2.1.inbox = [] := by
  let drained := commitAll now (s.handedOut dispatcher env now).inbox
    { s.handedOut dispatcher env now with inbox := [] }
  have taken : drained.1.inbox = [] := inbox_commitAll _ _ _
  show (finalizeAll drained.2.1 drained.1).inbox = []
  rw [finalizeAll_eq]
  exact taken

/-- Every tick takes over all results that have come in, and whether one is expected does not depend
on those before it. Counted as committed are exactly those that end a compile, as discarded those
that come too late together with those that say that their job has to wait. So what is counted as
discarded has come too late exactly if no job had to wait. -/
theorem tallies_are_exact_iff {σ : Type} (s : Scheduler) (dispatcher : Dispatcher σ) (env : σ)
    (now : Nat) :
    let handed := s.handedOut dispatcher env now
    let report := (s.tick dispatcher env now).1
    (s.tick dispatcher env now).2.1.inbox = [] ∧
    (∀ before result after, handed.inbox = before ++ result :: after →
      ((commitAll now before { handed with inbox := [] }).1.Expects result ↔
        handed.Expects result)) ∧
    report.committed = handed.inbox.countP (handed.Ends ·) ∧
    report.discarded = handed.inbox.countP (¬handed.Expects ·) + handed.inbox.countP (handed.Delays ·) ∧
    (report.discarded = handed.inbox.countP (¬handed.Expects ·) ↔
      ∀ result ∈ handed.inbox, ¬handed.Delays result) := by
  intro handed report
  have counts := commitAll_counts now handed.inbox { handed with inbox := [] }
  have committed : report.committed = handed.inbox.countP (handed.Ends ·) := counts.1
  have discarded : report.discarded =
      handed.inbox.countP (¬handed.Expects ·) + handed.inbox.countP (handed.Delays ·) := counts.2
  refine ⟨s.inbox_tick dispatcher env now, ?_, committed, discarded, ?_⟩
  · intro before result after _
    exact expects_commitAll now before _ result
  · have none := List.countP_eq_zero (l := handed.inbox) (p := (handed.Delays ·))
    simp only [decide_eq_true_eq] at none
    rw [← none, discarded]
    omega

end Scheduler

namespace Plant

/-- Two jobs are out when an upload outdates one of them. -/
def outdatedRun : List Event :=
  [.upload (.ofPath "main.asm") (some (.available "halt\n".toUTF8.toList)) 0,
    .upload (.ofPath "lib.asm") (some (.available [])) 0, .request (.ofPath "main.asm") 0,
    .request (.ofPath "lib.asm") 0, .tick .park 0, .work [.run 0, .send 0, .run 0, .send 0],
    .invalidate (.ofPath "main.asm") 1]

theorem outdated_result_is_counted_as_discarded :
    let p := (new {} []).run outdatedRun
    let handed := p.scheduler.handedOut (Yard.dispatcher .park) p.yard 1
    let report := (p.scheduler.tick (Yard.dispatcher .park) p.yard 1).1
    report.committed = 1 ∧ report.discarded = 1 ∧ handed.inbox.countP (¬handed.Expects ·) = 1 := by
  intro p handed report
  obtain ⟨_, _, committed, _, late⟩ :=
    Scheduler.tallies_are_exact_iff p.scheduler (Yard.dispatcher .park) p.yard 1
  have ended : handed.inbox.countP (handed.Ends ·) = 1 := by
    decide +kernel
  have outdated : handed.inbox.countP (¬handed.Expects ·) = 1 := by
    decide +kernel
  have busy : ∀ result ∈ handed.inbox, ¬handed.Delays result := by
    decide +kernel
  exact ⟨committed.trans ended, (late.mpr busy).trans outdated, outdated⟩

/-- The job of a missing source has to wait, which its record takes note of. -/
theorem waiting_result_is_counted_as_discarded :
    ¬∀ (events : List Event) (plan : Plan) (now : Nat),
      let p := (new {} []).run events
      let handed := p.scheduler.handedOut (Yard.dispatcher plan) p.yard now
      (p.scheduler.tick (Yard.dispatcher plan) p.yard now).1.discarded =
        handed.inbox.countP (¬handed.Expects ·) := by
  intro claim
  have exact := claim [.request (.ofPath "main.asm") 0] .inline 0
  revert exact
  decide +kernel

end Plant

end RobotArena
