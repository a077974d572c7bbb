import RobotArena.Proofs.External.Rejection

/-!
# What programs share

Of all that a program can reach, the robots of an arena share the sketch and the panel, and five functions
reach them. The others do the same whatever the sketch and the panel are, and leave both as they are.
-/

namespace RobotArena

/-- The same robot with another sketch and panel. -/
def Host.share (sketch : Sketch) (panel : Panel) (h : Host) : Host :=
  { h with sketch, panel }

/-- The same context with another sketch and panel. -/
def Context.share (sketch : Sketch) (panel : Panel) (c : Context) : Context :=
  { c with host := c.host.map (Host.share sketch panel) }

namespace Call

variable {α β : Type} {sketch : Sketch} {panel : Panel}

/-- The same result, left in a context with another sketch and panel. -/
def reshare (sketch : Sketch) (panel : Panel) :
    EStateM.Result CallError Context α → EStateM.Result CallError Context α
  | .ok a c => .ok a (c.share sketch panel)
  | .error e c => .error e (c.share sketch panel)

/-- With another sketch and panel the second call does what the first one does without. -/
def Parallel (sketch : Sketch) (panel : Panel) (x y : Call α) : Prop :=
  ∀ c, y (c.share sketch panel) = reshare sketch panel (x c)

/-! ### Rules -/

theorem Parallel.bind {x y : Call α} {f g : α → Call β} (first : Parallel sketch panel x y)
    (last : ∀ a, Parallel sketch panel (f a) (g a)) : Parallel sketch panel (x >>= f) (y >>= g) := by
  intro c
  rw [bind_apply, bind_apply, first c]
  cases x c with
  | ok a c' => exact last a c'
  | error e c' => rfl

theorem parallel_pure (a : α) : Parallel sketch panel (pure a) (pure a) :=
  fun _ => rfl

theorem parallel_throw (e : CallError) : Parallel sketch panel (throw e : Call α) (throw e) :=
  fun _ => rfl

theorem parallel_require (condition : Bool) (e : CallError) :
    Parallel sketch panel (require condition e) (require condition e) := by
  cases condition with
  | true => exact parallel_pure _
  | false => exact parallel_throw e

theorem parallel_ofExcept (answer : Except CallError α) :
    Parallel sketch panel (ofExcept answer) (ofExcept answer) := by
  cases answer with
  | ok a => exact parallel_pure a
  | error e => exact parallel_throw e

/-- What is read of the context is not shared. -/
theorem parallel_get {f : Context → Call β} (blind : ∀ c, f (c.share sketch panel) = f c)
    (last : ∀ c, Parallel sketch panel (f c) (f c)) : Parallel sketch panel (get >>= f) (get >>= f) := by
  intro c
  show f (c.share sketch panel) (c.share sketch panel) = _
  rw [blind]
  exact last c c

/-- Whoever asks for the robot gets one with another sketch and panel. -/
theorem parallel_host {f : Host → Call β}
    (last : ∀ h, Parallel sketch panel (f h) (f (h.share sketch panel))) :
    Parallel sketch panel (host >>= f) (host >>= f) := by
  intro c
  obtain ⟨memory, queues, h?⟩ := c
  cases h? with
  | none => rfl
  | some h => exact last h ⟨memory, queues, some h⟩

theorem parallel_setHost (h : Host) :
    Parallel sketch panel (setHost h) (setHost (h.share sketch panel)) :=
  fun _ => rfl

theorem parallel_modify {change : Context → Context}
    (same : ∀ c, change (c.share sketch panel) = (change c).share sketch panel) :
    Parallel sketch panel (modify change) (modify change) := by
  intro c
  show EStateM.Result.ok () (change (c.share sketch panel)) = _
  rw [same]
  rfl

theorem parallel_read (address length : UInt32) :
    Parallel sketch panel (read address length) (read address length) := by
  refine parallel_get (fun _ => by rfl) fun c => ?_
  cases c.memory.read address length with
  | ok bytes => exact parallel_pure bytes
  | error fault => exact parallel_throw _

theorem parallel_write (address : UInt32) (data : List UInt8) :
    Parallel sketch panel (write address data) (write address data) := by
  refine parallel_get (fun _ => by rfl) fun c => ?_
  cases c.memory.write address data with
  | ok memory => exact parallel_modify fun _ => by rfl
  | error fault => exact parallel_throw _

/-- The last thing that a function does is to change something that is not shared. -/
theorem parallel_last {change : Context → Context}
    (same : ∀ c, change (c.share sketch panel) = (change c).share sketch panel) (b : β) :
    Parallel sketch panel (modify change >>= fun _ => pure b) (modify change >>= fun _ => pure b) :=
  (parallel_modify same).bind fun _ => parallel_pure b

end Call

namespace External

open Call

/-- Whatever the arguments are, the function neither reads nor changes the sketch and the panel. -/
def Private (f : External) : Prop :=
  ∀ sketch panel args size, Parallel sketch panel (f.body args size) (f.body args size)

theorem private_ofWords {id : UInt16} {name : String} {argSize retSize : UInt8}
    {f : Call.Args → Call (List UInt32)}
    (parallel : ∀ sketch panel args, Parallel sketch panel (f args) (f args)) :
    (ofWords id name argSize retSize f).Private :=
  fun _ _ _ _ => (parallel _ _ _).bind fun _ => parallel_pure _

theorem private_mathematics : ∀ f ∈ mathematics, f.Private := by
  have pure {id name argSize retSize f} : (ofPure id name argSize retSize f).Private :=
    private_ofWords fun _ _ _ => parallel_pure _
  simp only [mathematics, List.forall_mem_cons]
  exact ⟨pure, pure, pure, pure, pure, List.forall_mem_nil _⟩

theorem private_console : ∀ f ∈ console, f.Private := by
  simp only [console, List.forall_mem_cons]
  refine ⟨?_, ?_, ?_, List.forall_mem_nil _⟩
  · refine private_ofWords fun _ _ args => (parallel_require _ _).bind fun _ => ?_
    exact (parallel_read _ _).bind fun data => parallel_last (fun _ => by rfl) _
  · refine private_ofWords fun _ _ args => (parallel_read _ _).bind fun _ => ?_
    refine parallel_get (fun _ => by rfl) fun c => ?_
    dsimp only
    split
    · exact parallel_last (fun _ => by rfl) _
    · refine (parallel_modify fun _ => by rfl).bind fun _ => ?_
      exact (parallel_write _ _).bind fun _ => parallel_pure _
  · refine private_ofWords fun _ _ args => parallel_host fun h => parallel_get (fun _ => by rfl) fun c => ?_
    cases c.queues.commands.front? with
    | none => exact parallel_pure _
    | some command =>
      refine (parallel_require _ _).bind fun _ => (parallel_write _ _).bind fun _ => ?_
      exact parallel_last (fun _ => by rfl) _

theorem parallel_send {sketch : Sketch} {panel : Panel} (address length : UInt32) (beam : Option Beam) :
    Parallel sketch panel (send address length beam) (send address length beam) := by
  unfold send
  refine (parallel_require _ _).bind fun _ => (parallel_require _ _).bind fun _ => ?_
  refine parallel_host fun h => (parallel_read _ _).bind fun payload => ?_
  refine parallel_get (fun _ => by rfl) fun c => ?_
  dsimp only
  cases c.queues.outbound.push? ⟨h.entity, h.team, h.pose.position, payload, beam⟩ with
  | some outbound => exact parallel_modify fun _ => by rfl
  | none => exact parallel_throw _

theorem private_radio : ∀ f ∈ radio, f.Private := by
  simp only [radio, List.forall_mem_cons]
  refine ⟨?_, ?_, ?_, List.forall_mem_nil _⟩
  · exact private_ofWords fun _ _ args => (parallel_send _ _ _).bind fun _ => parallel_pure _
  · refine private_ofWords fun _ _ args => (parallel_require _ _).bind fun _ => ?_
    exact parallel_host fun h => (parallel_send _ _ _).bind fun _ => parallel_pure _
  · refine private_ofWords fun _ _ args => parallel_host fun h => parallel_get (fun _ => by rfl) fun c => ?_
    cases c.queues.inbound.front? with
    | none => exact parallel_pure _
    | some message =>
      refine (parallel_require _ _).bind fun _ => (parallel_write _ _).bind fun _ => ?_
      exact parallel_last (fun _ => by rfl) _

theorem private_toLocal : toLocal.Private :=
  private_ofWords fun _ _ _ => parallel_host fun _ => parallel_pure _

theorem private_toWorld : toWorld.Private :=
  private_ofWords fun _ _ _ => parallel_host fun _ => parallel_pure _

theorem private_time : time.Private :=
  private_ofWords fun _ _ _ => parallel_host fun _ => parallel_pure _

theorem private_guiPoll : guiPoll.Private := by
  refine private_ofWords fun _ _ _ => parallel_host fun _ => parallel_get (fun _ => by rfl) fun _ => ?_
  exact parallel_last (fun _ => by rfl) _

theorem parallel_pendriveOf {sketch : Sketch} {panel : Panel} (h : Host) :
    Parallel sketch panel (pendriveOf h) (pendriveOf (h.share sketch panel)) := by
  obtain ⟨entity, team, pose, clock, sketch', panel', drive?⟩ := h
  cases drive? with
  | some drive => exact parallel_pure drive
  | none => exact parallel_throw _

theorem private_storage : ∀ f ∈ storage, f.Private := by
  simp only [storage, List.forall_mem_cons]
  refine ⟨?_, ?_, List.forall_mem_nil _⟩
  · refine private_ofWords fun _ _ args => (parallel_require _ _).bind fun _ => ?_
    refine parallel_host fun h => (parallel_pendriveOf h).bind fun drive => ?_
    refine (parallel_ofExcept _).bind fun block => ?_
    exact (parallel_write _ _).bind fun _ => parallel_pure _
  · refine private_ofWords fun _ _ args => (parallel_require _ _).bind fun _ => ?_
    refine parallel_host fun h => (parallel_pendriveOf h).bind fun drive => ?_
    refine (parallel_read _ _).bind fun data => (parallel_ofExcept _).bind fun drive => ?_
    exact (parallel_setHost { h with pendrive := some drive }).bind fun _ => parallel_pure _

/-! ### The functions that reach what is shared -/

/-- The functions that draw into the sketch or change the panel. -/
def sharing : List External :=
  [debugLine, debugLabel, guiCreate, guiUpdate, guiDestroy]

/-- A call with this number reaches the sketch or the panel. -/
def isSharing (number : Int32) : Bool :=
  sharing.any fun f => (f.signature.id.toNat : Int) = number.toInt

/-- Every other function is private. -/
theorem private_standard {f : External} (member : f ∈ Table.standard.functions)
    (apart : f ∉ sharing) : f.Private := by
  have known := Table.mem_standard.mp member
  simp only [Table.standardFunctions, List.mem_append] at known
  rcases known with ((((mathematical | console) | radio) | around) | panel) | storage
  · exact private_mathematics f mathematical
  · exact private_console f console
  · exact private_radio f radio
  · simp only [surroundings, List.mem_cons, List.not_mem_nil, or_false] at around
    rcases around with rfl | rfl | rfl | rfl | rfl
    · exact absurd (by simp [sharing]) apart
    · exact absurd (by simp [sharing]) apart
    · exact private_toLocal
    · exact private_toWorld
    · exact private_time
  · simp only [External.panel, List.mem_cons, List.not_mem_nil, or_false] at panel
    rcases panel with rfl | rfl | rfl | rfl
    · exact absurd (by simp [sharing]) apart
    · exact absurd (by simp [sharing]) apart
    · exact absurd (by simp [sharing]) apart
    · exact private_guiPoll
  · exact private_storage f storage

end External

end RobotArena
