import Mathlib.Data.List.Perm.Basic
import RobotArena.Compilation.Scheduler
import RobotArena.Proofs.Assembly.Inclusion

/-!
# Jobs that are out

What can become of the jobs that a scheduler hands out. A job that is accepted waits to be run, its
report waits to be sent, and a report that was sent waits to be taken over; jobs are run and reports
sent in any order and at any time. Each job carries a fate, which tells what has happened to its
record since; no definition of the scheduler depends on it.
-/

namespace RobotArena

/-- What has happened since a job was handed out: the record that handed it out is gone, that record
was rescheduled by an upload or published, another result for the source was taken over. -/
structure Fate where
  orphaned : Bool := false
  touched : Bool := false
  overtaken : Bool := false
  deriving DecidableEq, Repr

namespace Fate

def orphan (f : Fate) : Fate := { f with orphaned := true }

def touch (f : Fate) : Fate := { f with touched := true }

def overtake (f : Fate) : Fate := { f with overtaken := true }

end Fate

/-- A job that was accepted. -/
structure Ticket where
  job : Job
  fate : Fate := {}
  deriving DecidableEq, Repr

/-- Sources with the texts that were read from them. -/
abbrev SourceTexts := List (SourceId × List UInt8)

/-- What a finished compile asked for; nothing if the compile has to wait. -/
def JobOutcome.dependencies? : JobOutcome → Option (List SourceId)
  | .compiled _ dependencies => some dependencies
  | .failed _ dependencies => some dependencies
  | .waiting _ => none

/-- The texts that a job reads: its root's, and those of the paths it asks for that are at hand. -/
def Job.reading (job : Job) (library : Library) : SourceTexts :=
  match library.text? job.source with
  | none => []
  | some text =>
    let texts := library.textsOf job.source.owner
    (job.source, text) ::
      (Assembly.expand texts job.source.path text).asked.filterMap fun path =>
        (texts.lookup path).map (job.source.sibling path, ·)

/-- A job that finishes has read its root and everything it asked for. -/
theorem Job.reading_covered (job : Job) (externals : List Signature) (library : Library)
    (dependencies : List SourceId)
    (finished : (job.outcome externals library).1.dependencies? = some dependencies) :
    (job.reading library).map Prod.fst = job.source :: dependencies := by
  unfold outcome at finished
  unfold reading
  cases root : library.text? job.source with
  | none =>
    rw [root] at finished
    cases finished
  | some text =>
    simp only [root, compile] at finished
    let texts := library.textsOf job.source.owner
    let e := Assembly.expand texts job.source.path text
    have ended : Assembly.Outcome.ofExpansion externals e ≠ .incomplete ∧
        e.asked.map job.source.sibling = dependencies := by
      split at finished
      · rename_i compiled
        exact ⟨by rw [compiled]; nofun, Option.some.inj finished⟩
      · rename_i failed
        exact ⟨by rw [failed]; nofun, Option.some.inj finished⟩
      · cases finished
    have found : ∀ path ∈ e.asked, (texts.lookup path).isSome :=
      Assembly.asked_at_hand texts job.source.path text (Assembly.complete_of_ofExpansion ended.1)
    rw [List.map_cons, ← ended.2]
    refine congrArg (job.source :: ·) ?_
    change (e.asked.filterMap fun path =>
      (texts.lookup path).map (job.source.sibling path, ·)).map Prod.fst = _
    generalize e.asked = asked at found
    induction asked with
    | nil => rfl
    | cons path rest ih =>
      obtain ⟨read, known⟩ := Option.isSome_iff_exists.mp (found path List.mem_cons_self)
      rw [List.filterMap_cons, known]
      exact congrArg _ (ih fun other member => found other (List.mem_cons_of_mem _ member))

/-- A job that was run: what it found and what it had read. -/
structure Report extends Ticket where
  outcome : JobOutcome
  reading : SourceTexts
  covered : ∀ dependencies, outcome.dependencies? = some dependencies →
    reading.map Prod.fst = job.source :: dependencies

/-- What the scheduler is sent of a report. -/
def Report.result (r : Report) : JobResult :=
  ⟨r.job.source, r.job.generation, r.outcome⟩

/-- Runs the job of a ticket. -/
def Ticket.run (t : Ticket) (externals : List Signature) (library : Library) : Report :=
  { t with
    outcome := (t.job.outcome externals library).1
    reading := t.job.reading library
    covered := t.job.reading_covered externals library }

theorem Ticket.result_run (t : Ticket) (externals : List Signature) (library : Library) :
    (t.run externals library).result = (t.job.run externals library).1 := rfl

/-- Changes the fates of the jobs for some sources. -/
def Ticket.mark (concerned : SourceId → Bool) (change : Fate → Fate) (t : Ticket) : Ticket :=
  { t with fate := if concerned t.job.source then change t.fate else t.fate }

/-- Changes the fates of the jobs for some sources. -/
def Report.mark (concerned : SourceId → Bool) (change : Fate → Fate) (r : Report) : Report :=
  { r with fate := if concerned r.job.source then change r.fate else r.fate }

/-- A library and the jobs that are out, oldest first: those not run yet, those whose report was not
sent yet, and those whose report was sent. -/
structure Yard where
  library : Library := {}
  externals : List Signature := []
  waiting : List Ticket := []
  finished : List Report := []
  sent : List Report := []

/-- Something to do in a yard: run a waiting job, or send a report that is there. -/
inductive Errand where
  | run (index : Nat)
  | send (index : Nat)
  deriving DecidableEq, Repr

/-- What a dispatcher makes of each job: it refuses it, or accepts it and runs some errands. -/
abbrev Plan := Job → Yard → Option (List Errand)

namespace Plan

/-- Refuses every job. -/
def refuse : Plan := fun _ _ => none

/-- Puts every job aside. -/
def park : Plan := fun _ _ => some []

/-- Runs every job and sends its report before anything else happens. -/
def inline : Plan := fun _ y => some [.run y.waiting.length, .send y.finished.length]

end Plan

namespace Yard

/-- Accepts a job. -/
def accept (y : Yard) (job : Job) : Yard :=
  { y with waiting := y.waiting ++ [{ job }] }

/-- Runs a waiting job. -/
def run (y : Yard) (index : Nat) : Yard :=
  match y.waiting[index]? with
  | none => y
  | some t =>
    { y with
      library := (t.job.outcome y.externals y.library).2
      waiting := y.waiting.eraseIdx index
      finished := y.finished ++ [t.run y.externals y.library] }

/-- Sends a report. -/
def send (y : Yard) (index : Nat) : List JobResult × Yard :=
  match y.finished[index]? with
  | none => ([], y)
  | some r =>
    ([r.result], { y with finished := y.finished.eraseIdx index, sent := y.sent ++ [r] })

/-- Runs an errand. Answers the results that were sent. -/
def perform (y : Yard) : Errand → List JobResult × Yard
  | .run index => ([], y.run index)
  | .send index => y.send index

/-- Runs errands in order. -/
def performAll : Yard → List Errand → List JobResult × Yard
  | y, [] => ([], y)
  | y, errand :: rest =>
    let (first, y) := y.perform errand
    let (later, y) := y.performAll rest
    (first ++ later, y)

/-- The dispatcher that follows a plan. -/
def dispatcher (plan : Plan) : Dispatcher Yard := fun job y =>
  match plan job y with
  | none => (.refused, y)
  | some errands =>
    let (results, y) := (y.accept job).performAll errands
    (.accepted results, y)

/-- A job that is run at once answers what running it answers. -/
theorem dispatcher_inline (job : Job) (y : Yard) :
    dispatcher .inline job y =
      (.accepted [(job.run y.externals y.library).1],
        { y with
          library := (job.run y.externals y.library).2
          sent := y.sent ++ [({ job } : Ticket).run y.externals y.library] }) := by
  have waiting : (y.accept job).waiting[y.waiting.length]? = some { job } := by
    simp [accept]
  have ran : (y.accept job).run y.waiting.length =
      { y with
        library := (job.outcome y.externals y.library).2
        finished := y.finished ++ [({ job } : Ticket).run y.externals y.library] } := by
    simp only [run, waiting]
    simp [accept, List.eraseIdx_append_of_length_le]
  simp only [dispatcher, Plan.inline, performAll, perform, ran]
  simp [send, List.eraseIdx_append_of_length_le, Ticket.result_run, Job.run]

/-- Changes the fates of the jobs for some sources. -/
def mark (y : Yard) (concerned : SourceId → Bool) (change : Fate → Fate) : Yard :=
  { y with
    waiting := y.waiting.map (.mark concerned change)
    finished := y.finished.map (.mark concerned change)
    sent := y.sent.map (.mark concerned change) }

/-- The jobs that are out: accepted, and their result not taken over. -/
def outstanding (y : Yard) : List Ticket :=
  y.waiting ++ y.finished.map (·.toTicket) ++ y.sent.map (·.toTicket)

/-- The jobs that are out for a source. -/
def tickets (y : Yard) (source : SourceId) : List Ticket :=
  y.outstanding.filter (·.job.source = source)

/-- The reports that have not been taken over. -/
def reports (y : Yard) : List Report :=
  y.finished ++ y.sent

theorem mem_tickets {y : Yard} {source : SourceId} {t : Ticket} :
    t ∈ y.tickets source ↔ t ∈ y.outstanding ∧ t.job.source = source := by
  simp [tickets]

theorem ticket_of_report {y : Yard} {r : Report} (member : r ∈ y.reports) :
    r.toTicket ∈ y.tickets r.job.source := by
  refine mem_tickets.mpr ⟨?_, rfl⟩
  rw [outstanding, List.append_assoc, ← List.map_append]
  exact List.mem_append_right _ (List.mem_map_of_mem member)

/-! ### Errands keep the jobs that are out -/

theorem outstanding_run (y : Yard) (index : Nat) :
    (y.run index).outstanding.Perm y.outstanding := by
  unfold run
  split
  · exact .refl _
  · rename_i t found
    obtain ⟨bound, rfl⟩ := List.getElem?_eq_some_iff.mp found
    have taken := List.getElem_cons_eraseIdx_perm bound
    simp only [outstanding, List.map_append, List.map_cons, List.map_nil, List.append_assoc]
    rw [List.singleton_append, ← List.append_assoc, ← List.append_assoc]
    refine List.perm_middle.trans ?_
    rw [← List.cons_append, ← List.cons_append]
    exact (taken.append_right _).append_right _

theorem outstanding_send (y : Yard) (index : Nat) :
    (y.send index).2.outstanding.Perm y.outstanding := by
  unfold send
  split
  · exact .refl _
  · rename_i r found
    obtain ⟨bound, rfl⟩ := List.getElem?_eq_some_iff.mp found
    have taken := (List.getElem_cons_eraseIdx_perm bound).map (·.toTicket)
    simp only [outstanding, List.map_append, List.map_cons, List.map_nil, List.append_assoc] at taken ⊢
    refine .append_left _ ?_
    rw [← List.append_assoc]
    refine List.perm_append_comm.trans ?_
    rw [List.singleton_append, ← List.cons_append]
    exact taken.append_right _

theorem outstanding_perform (y : Yard) (errand : Errand) :
    (y.perform errand).2.outstanding.Perm y.outstanding := by
  cases errand with
  | run index => exact y.outstanding_run index
  | send index => exact y.outstanding_send index

theorem outstanding_performAll (y : Yard) (errands : List Errand) :
    (y.performAll errands).2.outstanding.Perm y.outstanding := by
  induction errands generalizing y with
  | nil => exact .refl _
  | cons errand rest ih => exact (ih _).trans (y.outstanding_perform errand)

/-- The results that errands answer are those of the reports they send. -/
theorem sent_performAll (y : Yard) (errands : List Errand) :
    (y.performAll errands).2.sent.map Report.result =
      y.sent.map Report.result ++ (y.performAll errands).1 := by
  induction errands generalizing y with
  | nil => simp [performAll]
  | cons errand rest ih =>
    have first : (y.perform errand).2.sent.map Report.result =
        y.sent.map Report.result ++ (y.perform errand).1 := by
      cases errand with
      | run index =>
        simp only [perform, run, List.append_nil]
        split <;> rfl
      | send index =>
        simp only [perform, send]
        split <;> simp
    simp only [performAll]
    rw [ih, first, List.append_assoc]

/-! ### Marks keep the jobs -/

theorem outstanding_mark (y : Yard) (concerned : SourceId → Bool) (change : Fate → Fate) :
    (y.mark concerned change).outstanding = y.outstanding.map (.mark concerned change) := by
  simp only [outstanding, mark, List.map_append, List.map_map]
  rfl

theorem tickets_mark (y : Yard) (concerned : SourceId → Bool) (change : Fate → Fate)
    (source : SourceId) :
    (y.mark concerned change).tickets source = (y.tickets source).map (.mark concerned change) := by
  rw [tickets, outstanding_mark, List.filter_map]
  rfl

theorem results_mark (y : Yard) (concerned : SourceId → Bool) (change : Fate → Fate) :
    (y.mark concerned change).sent.map Report.result = y.sent.map Report.result := by
  simp only [mark, List.map_map]
  rfl

end Yard

end RobotArena
