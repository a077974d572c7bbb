import RobotArena.Proofs.External.Radio
import RobotArena.Proofs.Machine.Panel

/-!
# What programs do to the panel

Whatever a program calls, each element that is on the panel afterwards belongs to the robot that the program
runs for, or an element of the same robot and team was there before. Clicks are taken by one function only.
-/

namespace RobotArena

namespace Panel

/-- Each element is one that a robot has put up, or one of the same owner and team was there before. -/
def Edited (owner : EntityId) (team : TeamId) (p p' : Panel) : Prop :=
  ∀ x' ∈ p'.elements, (x'.2.owner = owner ∧ x'.2.team = team) ∨
    ∃ x ∈ p.elements, x.2.owner = x'.2.owner ∧ x.2.team = x'.2.team

variable {owner : EntityId} {team : TeamId} {p p' p'' : Panel}

theorem Edited.refl (p : Panel) : Edited owner team p p :=
  fun x member => .inr ⟨x, member, rfl, rfl⟩

theorem Edited.trans (first : Edited owner team p p') (second : Edited owner team p' p'') :
    Edited owner team p p'' := by
  intro x'' member
  rcases second x'' member with own | ⟨x', there, sameOwner, sameTeam⟩
  · exact .inl own
  · rw [← sameOwner, ← sameTeam]
    exact first x' there

theorem edited_create (p : Panel) (e : Element) : Edited e.owner e.team p (p.create e).2 := by
  intro x member
  rcases mem_place member with rfl | old
  · exact .inl ⟨rfl, rfl⟩
  · exact .inr ⟨x, old, rfl, rfl⟩

theorem edited_update {id : UInt32} {value : Binary32} {label : String} {asking : TeamId}
    (done : p.update asking id value label = .ok p') : Edited owner team p p' := by
  unfold update at done
  cases asked : p.owned asking id with
  | error e =>
    rw [asked] at done
    cases done
  | ok e =>
    rw [asked] at done
    cases done
    intro x member
    rcases mem_place member with rfl | old
    · exact .inr ⟨_, mem_of_find? (owned_eq_ok.mp asked).1, rfl, rfl⟩
    · exact .inr ⟨x, old, rfl, rfl⟩

theorem edited_destroy {id : UInt32} {e : Element} {asking : TeamId}
    (done : p.destroy asking id = .ok (e, p')) : Edited owner team p p' := by
  unfold destroy at done
  cases asked : p.owned asking id with
  | error e =>
    rw [asked] at done
    cases done
  | ok e =>
    rw [asked] at done
    cases done
    exact fun x member => .inr ⟨x, List.mem_of_mem_filter member, rfl, rfl⟩

end Panel

/-- The same robot, whose program has worked on the panel. -/
structure Host.Edited (h h' : Host) : Prop where
  entity : h'.entity = h.entity
  team : h'.team = h.team
  panel : Panel.Edited h.entity h.team h.panel h'.panel

theorem Host.Edited.refl (h : Host) : h.Edited h :=
  ⟨rfl, rfl, .refl _⟩

theorem Host.Edited.trans {h h' h'' : Host} (first : h.Edited h') (second : h'.Edited h'') : h.Edited h'' := by
  refine ⟨second.entity.trans first.entity, second.team.trans first.team, first.panel.trans ?_⟩
  have later := second.panel
  rwa [first.entity, first.team] at later

/-- No click has been taken, and the program still runs for the same robot and has worked on the panel. -/
structure Context.Edited (c c' : Context) : Prop where
  clicks : c'.queues.uiEvents = c.queues.uiEvents
  host : ∀ h', c'.host = some h' → ∃ h, c.host = some h ∧ h.Edited h'

namespace Call

variable {α β : Type} {c : Context}

theorem edited_setHost {h h' : Host} (known : ∃ c', c.Edited c' ∧ c'.host = some h) (edited : h.Edited h') :
    Preserves c.Edited (setHost h') := by
  obtain ⟨c', before, same⟩ := known
  intro c'' now
  refine ⟨now.clicks, fun h'' last => ?_⟩
  obtain ⟨h₀, own, first⟩ := before.host h same
  cases last
  exact ⟨h₀, own, first.trans edited⟩

theorem edited_modify {change : Context → Context}
    (same : ∀ c, (change c).queues.uiEvents = c.queues.uiEvents ∧ (change c).host = c.host) :
    Preserves c.Edited (modify change) := by
  intro c' now
  obtain ⟨clicks, host⟩ := same c'
  refine ⟨clicks.trans now.clicks, fun h' known => now.host h' ?_⟩
  rw [← host]
  exact known

theorem edited_write (address : UInt32) (data : List UInt8) : Preserves c.Edited (write address data) :=
  preserves_write (fun _ _ now => ⟨now.clicks, now.host⟩) address data

end Call

namespace External

open Call

/-- Whatever the arguments are, the function takes no click and only works on the panel. -/
def Edits (f : External) : Prop :=
  ∀ (c : Context) args size, Preserves c.Edited (f.body args size)

theorem edits_ofWords {id : UInt16} {name : String} {argSize retSize : UInt8}
    {f : Call.Args → Call (List UInt32)} (edits : ∀ (c : Context) args, Preserves c.Edited (f args)) :
    (ofWords id name argSize retSize f).Edits :=
  fun c _ _ => (edits c _).bind fun _ => preserves_pure _

theorem edits_mathematics : ∀ f ∈ mathematics, f.Edits := by
  have pure {id name argSize retSize f} : (ofPure id name argSize retSize f).Edits :=
    edits_ofWords fun _ _ => preserves_pure _
  simp only [mathematics, List.forall_mem_cons]
  exact ⟨pure, pure, pure, pure, pure, List.forall_mem_nil _⟩

theorem edits_console : ∀ f ∈ console, f.Edits := by
  simp only [console, List.forall_mem_cons]
  refine ⟨?_, ?_, ?_, List.forall_mem_nil _⟩
  · refine edits_ofWords fun c args => (steady_requireLength _ _).preserves.bind fun _ => ?_
    exact (steady_read _ _).preserves.bind fun data => (edited_modify fun _ => by exact ⟨rfl, rfl⟩).last _
  · refine edits_ofWords fun c args => (steady_read _ _).preserves.bind fun _ => ?_
    refine steady_get.preserves.bind fun now => ?_
    dsimp only
    split
    · exact (edited_modify fun _ => by exact ⟨rfl, rfl⟩).last _
    · refine (edited_modify fun _ => by exact ⟨rfl, rfl⟩).bind fun _ => ?_
      exact (edited_write _ _).last _
  · refine edits_ofWords fun c args => steady_host.preserves.bind fun _ => ?_
    refine steady_get.preserves.bind fun now => ?_
    cases now.queues.commands.front? with
    | none => exact preserves_pure _
    | some command =>
      refine (steady_requireLength _ _).preserves.bind fun _ => (edited_write _ _).bind fun _ => ?_
      exact (edited_modify fun _ => by exact ⟨rfl, rfl⟩).last _

theorem edited_send {c : Context} (address length : UInt32) (beam : Option Beam) :
    Preserves c.Edited (send address length beam) := by
  unfold send
  refine (steady_require _ _).preserves.bind fun _ => (steady_requireLength _ _).preserves.bind fun _ => ?_
  refine steady_host.preserves.bind fun h => (steady_read _ _).preserves.bind fun payload => ?_
  intro now edited
  simp only [bind_apply, get_apply]
  cases now.queues.outbound.push? ⟨h.entity, h.team, h.pose.position, payload, beam⟩ with
  | some outbound => exact ⟨edited.clicks, edited.host⟩
  | none => exact edited

theorem edits_radio : ∀ f ∈ radio, f.Edits := by
  simp only [radio, List.forall_mem_cons]
  refine ⟨?_, ?_, ?_, List.forall_mem_nil _⟩
  · exact edits_ofWords fun c args => (edited_send _ _ _).last _
  · refine edits_ofWords fun c args => (steady_require _ _).preserves.bind fun _ => ?_
    refine steady_host.preserves.bind fun h => ?_
    exact (edited_send _ _ _).last _
  · refine edits_ofWords fun c args => steady_host.preserves.bind fun _ => ?_
    refine steady_get.preserves.bind fun now => ?_
    cases now.queues.inbound.front? with
    | none => exact preserves_pure _
    | some message =>
      refine (steady_requireLength _ _).preserves.bind fun _ => (edited_write _ _).bind fun _ => ?_
      exact (edited_modify fun _ => by exact ⟨rfl, rfl⟩).last _

theorem edits_surroundings : ∀ f ∈ surroundings, f.Edits := by
  simp only [surroundings, List.forall_mem_cons]
  refine ⟨?_, ?_, ?_, ?_, ?_, List.forall_mem_nil _⟩
  · refine edits_ofWords fun c args => preserves_host fun h known => ?_
    refine (steady_require _ _).preserves.bind fun _ => ?_
    exact (edited_setHost known (by exact ⟨rfl, rfl, .refl _⟩)).last _
  · refine edits_ofWords fun c args => (steady_requireLength _ _).preserves.bind fun _ => ?_
    refine preserves_host fun h known => (steady_require _ _).preserves.bind fun _ => ?_
    refine (steady_read _ _).preserves.bind fun bytes => ?_
    exact (edited_setHost known (by exact ⟨rfl, rfl, .refl _⟩)).last _
  · exact edits_ofWords fun c args => steady_host.preserves.bind fun _ => preserves_pure _
  · exact edits_ofWords fun c args => steady_host.preserves.bind fun _ => preserves_pure _
  · exact edits_ofWords fun c args => steady_host.preserves.bind fun _ => preserves_pure _

theorem edits_guiCreate : guiCreate.Edits := by
  refine edits_ofWords fun c args => ?_
  cases ElementKind.ofCode? (args 0) with
  | none => exact (steady_throw _).preserves
  | some kind =>
    refine preserves_host fun h known => ?_
    exact (edited_setHost known (by exact ⟨rfl, rfl, h.panel.edited_create _⟩)).last _

theorem edits_guiUpdate : guiUpdate.Edits := by
  refine edits_ofWords fun c args => (steady_requireLength _ _).preserves.bind fun _ => ?_
  refine preserves_host fun h known => (steady_read _ _).preserves.bind fun bytes => ?_
  cases done : h.panel.update h.team (args 0) (args.number 1) (Text.ofBytesLossy bytes) with
  | error e => exact (steady_throw e).preserves
  | ok panel => exact (edited_setHost known (by exact ⟨rfl, rfl, Panel.edited_update done⟩)).last _

theorem edits_guiDestroy : guiDestroy.Edits := by
  refine edits_ofWords fun c args => preserves_host fun h known => ?_
  cases done : h.panel.destroy h.team (args 0) with
  | error e => exact (steady_throw e).preserves
  | ok left => exact (edited_setHost known (by exact ⟨rfl, rfl, Panel.edited_destroy done⟩)).last _

theorem edits_storage : ∀ f ∈ storage, f.Edits := by
  simp only [storage, List.forall_mem_cons]
  refine ⟨?_, ?_, List.forall_mem_nil _⟩
  · refine edits_ofWords fun c args => (steady_requireLength _ _).preserves.bind fun _ => ?_
    refine steady_host.preserves.bind fun h => (steady_pendriveOf h).preserves.bind fun drive => ?_
    refine (steady_ofExcept _).preserves.bind fun block => ?_
    exact (edited_write _ _).last _
  · refine edits_ofWords fun c args => (steady_requireLength _ _).preserves.bind fun _ => ?_
    refine preserves_host fun h known => (steady_pendriveOf h).preserves.bind fun drive => ?_
    refine (steady_read _ _).preserves.bind fun data => (steady_ofExcept _).preserves.bind fun drive => ?_
    exact (edited_setHost known (by exact ⟨rfl, rfl, .refl _⟩)).last _

/-- Every function but the one that takes clicks. -/
theorem edits_standard {f : External} (member : f ∈ Table.standard.functions) (other : f ≠ guiPoll) :
    f.Edits := by
  have known := Table.mem_standard.mp member
  simp only [Table.standardFunctions, List.mem_append] at known
  rcases known with ((((mathematical | console) | radio) | around) | panel) | storage
  · exact edits_mathematics f mathematical
  · exact edits_console f console
  · exact edits_radio f radio
  · exact edits_surroundings f around
  · simp only [External.panel, List.mem_cons, List.not_mem_nil, or_false] at panel
    rcases panel with rfl | rfl | rfl | rfl
    · exact edits_guiCreate
    · exact edits_guiUpdate
    · exact edits_guiDestroy
    · exact absurd rfl other
  · exact edits_storage f storage

/-- What the function that takes clicks does: it answers the oldest one and takes it from the queue, and
answers zero if there is none. -/
theorem guiPoll_ok {args : List UInt8} {size : Nat} {block : List UInt8} {c c' : Context}
    (done : guiPoll.body args size c = .ok block c') :
    block = resultBlock size [c.queues.uiEvents.front?.getD 0] ∧
      c' = { c with queues := { c.queues with uiEvents := c.queues.uiEvents.pop } } := by
  obtain ⟨words, c'', done, kept⟩ := bind_ok done
  cases kept
  obtain ⟨h, _, done⟩ := steady_host.bind_ok done
  obtain ⟨c₀, known, done⟩ := steady_get.bind_ok done
  cases known
  cases done
  exact ⟨rfl, rfl⟩

end External

end RobotArena
