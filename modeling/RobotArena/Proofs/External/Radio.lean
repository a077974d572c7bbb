import RobotArena.Proofs.External.Rejection
import RobotArena.Proofs.Memory.Blocks

/-!
# What programs do by radio

A program changes its radio queues only by the radio functions: sending puts a signed transmission at the
end of the outbound queue, and receiving takes the oldest message from the inbound queue once the whole of
it stands in the program's memory.
-/

namespace RobotArena

/-- Who a program runs for, and what is in the radio queues. -/
structure Station where
  owner : Option (EntityId × TeamId)
  inbox : List Transmission
  outbox : List Transmission

/-- What the radio sees of a context. -/
def Context.station (c : Context) : Station :=
  ⟨c.host.map fun h => (h.entity, h.team), c.queues.inbound.items, c.queues.outbound.items⟩

theorem Context.station_memory (c : Context) (memory : Memory) :
    { c with memory }.station = c.station := rfl

/-! ### Functions that leave the radio alone -/

namespace Call

variable {α β : Type} {x : Call α} {f : α → Call β} {v : Station}

/-- The context after a call. -/
def left : EStateM.Result CallError Context α → Context
  | .ok _ c => c
  | .error _ c => c

/-- What holds of the context before the call holds of it afterwards, rejected or not. -/
def Preserves (P : Context → Prop) (x : Call α) : Prop :=
  ∀ c, P c → P (left (x c))

/-- The call leaves a station as it is. -/
def Keeps (v : Station) (x : Call α) : Prop :=
  Preserves (fun c => c.station = v) x

theorem bind_ok {c c' : Context} {b : β} (done : (x >>= f) c = .ok b c') :
    ∃ a c'', x c = .ok a c'' ∧ f a c'' = .ok b c' := by
  rw [bind_apply] at done
  cases first : x c with
  | ok a c'' =>
    rw [first] at done
    exact ⟨a, c'', rfl, done⟩
  | error e c'' =>
    rw [first] at done
    cases done

theorem Steady.bind_ok (steady : Steady x) {c c' : Context} {b : β} (done : (x >>= f) c = .ok b c') :
    ∃ a, x c = .ok a c ∧ f a c = .ok b c' := by
  obtain ⟨a, c'', first, last⟩ := Call.bind_ok done
  have same : c'' = c := by
    rcases steady c with ⟨_, known⟩ | ⟨_, known⟩
    · cases known.symm.trans first
      rfl
    · cases known.symm.trans first
  subst same
  exact ⟨a, first, last⟩

theorem Steady.preserves {P : Context → Prop} (steady : Steady x) : Preserves P x := by
  intro c holds
  rcases steady c with ⟨a, done⟩ | ⟨e, done⟩
  · rw [done]
    exact holds
  · rw [done]
    exact holds

theorem Preserves.bind {P : Context → Prop} (first : Preserves P x) (last : ∀ a, Preserves P (f a)) :
    Preserves P (x >>= f) := by
  intro c holds
  have kept := first c holds
  rw [bind_apply]
  cases done : x c with
  | ok a c' =>
    rw [done] at kept
    exact last a c' kept
  | error e c' =>
    rw [done] at kept
    exact kept

theorem preserves_pure {P : Context → Prop} (a : α) : Preserves P (pure a) :=
  (steady_pure a).preserves

/-- What a function does last, before it answers. -/
theorem Preserves.last {P : Context → Prop} (first : Preserves P x) (b : β) :
    Preserves P (x >>= fun _ => pure b) :=
  first.bind fun _ => preserves_pure b

theorem preserves_write {P : Context → Prop} (blind : ∀ c memory, P c → P { c with memory })
    (address : UInt32) (data : List UInt8) : Preserves P (write address data) := by
  refine steady_get.preserves.bind fun c => ?_
  cases c.memory.write address data with
  | ok memory => exact fun c => blind c memory
  | error fault => exact (steady_throw _).preserves

theorem Steady.keeps (steady : Steady x) : Keeps v x :=
  steady.preserves

theorem Keeps.bind (first : Keeps v x) (last : ∀ a, Keeps v (f a)) : Keeps v (x >>= f) :=
  Preserves.bind first last

theorem keeps_pure (a : α) : Keeps v (pure a) :=
  preserves_pure a

theorem keeps_modify {change : Context → Context} (same : ∀ c, (change c).station = c.station) :
    Keeps v (modify change) :=
  fun c known => (same c).trans known

theorem keeps_write (address : UInt32) (data : List UInt8) : Keeps v (write address data) :=
  preserves_write (fun c memory known => (c.station_memory memory).trans known) address data

theorem host_ok {c c' : Context} {h : Host} (done : host c = .ok h c') : c.host = some h ∧ c' = c := by
  unfold host at done
  rw [bind_apply, get_apply] at done
  cases known : c.host with
  | none => simp [known] at done
  | some h' =>
    simp only [known, pure_apply] at done
    cases done
    exact ⟨rfl, rfl⟩

/-- Whoever asks for the robot gets the one of a context of which the property holds. -/
theorem preserves_host {P : Context → Prop} {f : Host → Call β}
    (last : ∀ h, (∃ c, P c ∧ c.host = some h) → Preserves P (f h)) : Preserves P (host >>= f) := by
  intro c holds
  rw [bind_apply]
  cases done : host c with
  | ok h c' =>
    obtain ⟨known, rfl⟩ := host_ok done
    exact last h ⟨c', holds, known⟩ c' holds
  | error e c' =>
    have kept := (steady_host.preserves (P := P)) c holds
    rw [done] at kept
    exact kept

theorem keeps_host {f : Host → Call β} (last : ∀ h, v.owner = some (h.entity, h.team) → Keeps v (f h)) :
    Keeps v (host >>= f) := by
  refine preserves_host fun h ⟨c, same, known⟩ => last h ?_
  rw [← same]
  simp [Context.station, known]

theorem keeps_setHost {h h' : Host} (owner : v.owner = some (h.entity, h.team))
    (same : (h'.entity, h'.team) = (h.entity, h.team)) : Keeps v (setHost h') := by
  intro c known
  subst known
  show Station.mk (some (h'.entity, h'.team)) _ _ = _
  rw [same, ← owner]
  rfl

/-- The last thing that a function does is to change something beside the radio. -/
theorem keeps_last {change : Context → Context} (same : ∀ c, (change c).station = c.station) (b : β) :
    Keeps v (modify change >>= fun _ => pure b) :=
  Preserves.last (keeps_modify same) b

theorem keeps_setHost_last {h h' : Host} (owner : v.owner = some (h.entity, h.team))
    (same : (h'.entity, h'.team) = (h.entity, h.team)) (b : β) :
    Keeps v (setHost h' >>= fun _ => pure b) :=
  Preserves.last (keeps_setHost owner same) b

end Call

namespace External

open Call

/-- Whatever the arguments are, the radio is left alone. -/
def Quiet (f : External) : Prop :=
  ∀ v args size, Keeps v (f.body args size)

theorem quiet_ofWords {id : UInt16} {name : String} {argSize retSize : UInt8}
    {f : Call.Args → Call (List UInt32)} (quiet : ∀ v args, Keeps v (f args)) :
    (ofWords id name argSize retSize f).Quiet :=
  fun v _ _ => (quiet v _).bind fun _ => keeps_pure _

theorem quiet_mathematics : ∀ f ∈ mathematics, f.Quiet := by
  have pure {id name argSize retSize f} : (ofPure id name argSize retSize f).Quiet :=
    quiet_ofWords fun _ _ => keeps_pure _
  simp only [mathematics, List.forall_mem_cons]
  exact ⟨pure, pure, pure, pure, pure, List.forall_mem_nil _⟩

theorem quiet_console : ∀ f ∈ console, f.Quiet := by
  simp only [console, List.forall_mem_cons]
  refine ⟨?_, ?_, ?_, List.forall_mem_nil _⟩
  · refine quiet_ofWords fun v args => (steady_requireLength _ _).keeps.bind fun _ => ?_
    refine (steady_read _ _).keeps.bind fun data => ?_
    exact keeps_last (fun c => c.station_memory _) _
  · refine quiet_ofWords fun v args => (steady_read _ _).keeps.bind fun _ => ?_
    refine steady_get.keeps.bind fun c => ?_
    dsimp only
    split
    · exact keeps_last (fun c => c.station_memory _) _
    · refine (keeps_modify fun c => c.station_memory _).bind fun _ => ?_
      exact (keeps_write _ _).bind fun _ => keeps_pure _
  · refine quiet_ofWords fun v args => steady_host.keeps.bind fun _ => ?_
    refine steady_get.keeps.bind fun c => ?_
    cases c.queues.commands.front? with
    | none => exact keeps_pure _
    | some command =>
      refine (steady_requireLength _ _).keeps.bind fun _ => (keeps_write _ _).bind fun _ => ?_
      exact keeps_last (fun _ => by rfl) _

theorem quiet_surroundings : ∀ f ∈ surroundings, f.Quiet := by
  simp only [surroundings, List.forall_mem_cons]
  refine ⟨?_, ?_, ?_, ?_, ?_, List.forall_mem_nil _⟩
  · refine quiet_ofWords fun v args => keeps_host fun h owner => ?_
    exact (steady_require _ _).keeps.bind fun _ => keeps_setHost_last owner (by rfl) _
  · refine quiet_ofWords fun v args => (steady_requireLength _ _).keeps.bind fun _ => ?_
    refine keeps_host fun h owner => (steady_require _ _).keeps.bind fun _ => ?_
    refine (steady_read _ _).keeps.bind fun bytes => ?_
    exact keeps_setHost_last owner (by rfl) _
  · exact quiet_ofWords fun v args => steady_host.keeps.bind fun _ => keeps_pure _
  · exact quiet_ofWords fun v args => steady_host.keeps.bind fun _ => keeps_pure _
  · exact quiet_ofWords fun v args => steady_host.keeps.bind fun _ => keeps_pure _

theorem quiet_panel : ∀ f ∈ panel, f.Quiet := by
  simp only [panel, List.forall_mem_cons]
  refine ⟨?_, ?_, ?_, ?_, List.forall_mem_nil _⟩
  · refine quiet_ofWords fun v args => ?_
    cases ElementKind.ofCode? (args 0) with
    | none => exact (steady_throw _).keeps
    | some kind =>
      exact keeps_host fun h owner => keeps_setHost_last owner (by rfl) _
  · refine quiet_ofWords fun v args => (steady_requireLength _ _).keeps.bind fun _ => ?_
    refine keeps_host fun h owner => (steady_read _ _).keeps.bind fun bytes => ?_
    refine (steady_ofExcept _).keeps.bind fun panel => ?_
    exact keeps_setHost_last owner (by rfl) _
  · refine quiet_ofWords fun v args => keeps_host fun h owner => ?_
    refine (steady_ofExcept _).keeps.bind fun panel => ?_
    exact keeps_setHost_last owner (by rfl) _
  · refine quiet_ofWords fun v args => steady_host.keeps.bind fun _ => ?_
    refine steady_get.keeps.bind fun c => ?_
    exact keeps_last (fun _ => by rfl) _

theorem quiet_storage : ∀ f ∈ storage, f.Quiet := by
  simp only [storage, List.forall_mem_cons]
  refine ⟨?_, ?_, List.forall_mem_nil _⟩
  · refine quiet_ofWords fun v args => (steady_requireLength _ _).keeps.bind fun _ => ?_
    refine steady_host.keeps.bind fun h => (steady_pendriveOf h).keeps.bind fun drive => ?_
    refine (steady_ofExcept _).keeps.bind fun block => ?_
    exact (keeps_write _ _).bind fun _ => keeps_pure _
  · refine quiet_ofWords fun v args => (steady_requireLength _ _).keeps.bind fun _ => ?_
    refine keeps_host fun h owner => (steady_pendriveOf h).keeps.bind fun drive => ?_
    refine (steady_read _ _).keeps.bind fun data => (steady_ofExcept _).keeps.bind fun drive => ?_
    exact keeps_setHost_last owner (by rfl) _

/-! ### The radio functions -/

theorem send_ok {address length : UInt32} {beam : Option Beam} {c c' : Context}
    (done : send address length beam c = .ok () c') :
    ∃ t, c.station.owner = some (t.sender, t.team) ∧
      c'.station = ⟨c.station.owner, c.station.inbox, c.station.outbox ++ [t]⟩ := by
  unfold send at done
  obtain ⟨_, _, done⟩ := (steady_require _ _).bind_ok done
  obtain ⟨_, _, done⟩ := (steady_requireLength _ _).bind_ok done
  obtain ⟨h, asked, done⟩ := steady_host.bind_ok done
  obtain ⟨payload, _, done⟩ := (steady_read _ _).bind_ok done
  obtain ⟨c'', known, done⟩ := steady_get.bind_ok done
  cases known
  obtain ⟨owner, _⟩ := host_ok asked
  refine ⟨⟨h.entity, h.team, h.pose.position, payload, beam⟩, ?_, ?_⟩
  · simp [Context.station, owner]
  · dsimp only at done
    cases pushed : c.queues.outbound.push? ⟨h.entity, h.team, h.pose.position, payload, beam⟩ with
    | none =>
      rw [pushed] at done
      cases done
    | some outbound =>
      rw [pushed] at done
      cases done
      simp [Context.station, Queue.items_push? pushed]

/-- Both functions that send put a signed transmission at the end of the outbound queue. -/
theorem transmits {f : External} (sends : f = transmit ∨ f = transmitBeam) {args : List UInt8} {size : Nat}
    {block : List UInt8} {c c' : Context} (done : f.body args size c = .ok block c') :
    ∃ t, c.station.owner = some (t.sender, t.team) ∧
      c'.station = ⟨c.station.owner, c.station.inbox, c.station.outbox ++ [t]⟩ := by
  have last : ∀ {address length : UInt32} {beam : Option Beam} {c c' : Context} {words : List UInt32},
      (send address length beam >>= fun _ => (pure [] : Call (List UInt32))) c = .ok words c' →
      ∃ t, c.station.owner = some (t.sender, t.team) ∧
        c'.station = ⟨c.station.owner, c.station.inbox, c.station.outbox ++ [t]⟩ := by
    intro address length beam c c' words done
    obtain ⟨_, c'', sent, done⟩ := bind_ok done
    cases done
    exact send_ok sent
  rcases sends with rfl | rfl
  · obtain ⟨words, c'', done, kept⟩ := bind_ok done
    cases kept
    exact last done
  · obtain ⟨words, c'', done, kept⟩ := bind_ok done
    cases kept
    obtain ⟨_, _, done⟩ := (steady_require _ _).bind_ok done
    obtain ⟨h, _, done⟩ := steady_host.bind_ok done
    exact last done

theorem write_ok {address : UInt32} {data : List UInt8} {c c' : Context}
    (done : Call.write address data c = .ok () c') :
    address.toNat + (UInt32.ofNat data.length).toNat ≤ Memory.size ∧ data.length ≤ Memory.size ∧
      c' = { c with memory := c.memory.setBytes address.toNat data } := by
  obtain ⟨c'', known, done⟩ := steady_get.bind_ok done
  cases known
  by_cases room : Memory.InRange address (UInt32.ofNat data.length) ∧ data.length ≤ Memory.size
  · have written : c.memory.write address data = .ok (c.memory.setBytes address.toNat data) := if_pos room
    rw [written] at done
    cases done
    exact ⟨room.1, room.2, rfl⟩
  · have refused : c.memory.write address data = .error ⟨address, UInt32.ofNat data.length⟩ := if_neg room
    rw [refused] at done
    cases done

/-- What `receive` does when it is not rejected: nothing if there is no message, and else it writes the
whole oldest message and takes it from the queue. -/
theorem receive_ok {args : List UInt8} {size : Nat} {block : List UInt8} {c c' : Context}
    (done : receive.body args size c = .ok block c') :
    (c.queues.inbound.items = [] ∧ c' = c) ∨
    ∃ m, c.queues.inbound.items.head? = some m ∧
      (Word.ofBlock args 0).toNat + m.payload.length ≤ Memory.size ∧
      block = resultBlock size [UInt32.ofNat m.payload.length] ∧
      c' = { c with
        memory := c.memory.setBytes (Word.ofBlock args 0).toNat m.payload
        queues := { c.queues with inbound := c.queues.inbound.pop } } := by
  obtain ⟨words, c'', done, kept⟩ := bind_ok done
  cases kept
  obtain ⟨h, _, done⟩ := steady_host.bind_ok done
  obtain ⟨c₀, known, done⟩ := steady_get.bind_ok done
  cases known
  cases front : c.queues.inbound.front? with
  | none =>
    rw [front] at done
    cases done
    exact .inl ⟨List.head?_eq_none_iff.mp front, rfl⟩
  | some m =>
    rw [front] at done
    obtain ⟨_, _, done⟩ := (steady_requireLength _ _).bind_ok done
    obtain ⟨_, c₁, written, done⟩ := bind_ok done
    obtain ⟨inside, short, rfl⟩ := write_ok written
    cases done
    refine .inr ⟨m, front, ?_, rfl, rfl⟩
    have size : Memory.size = 16384 := rfl
    have whole : (UInt32.ofNat m.payload.length).toNat = m.payload.length :=
      UInt32.toNat_ofNat_of_lt' (show m.payload.length < 4294967296 by omega)
    rw [whole] at inside
    exact inside

end External

end RobotArena
