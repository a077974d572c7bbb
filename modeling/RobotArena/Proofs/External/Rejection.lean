import RobotArena.Machine.Interpreter
import RobotArena.Proofs.External.Table

/-!
# Rejected calls

A function checks everything that can go wrong before it changes anything. So a call that is rejected
leaves memory, queues, sketch, panel and pendrive as they are, and the program goes on with a mark in its
first register.
-/

namespace RobotArena

namespace Call

variable {α β : Type} {x : Call α} {f : α → Call β}

/-- A rejection leaves no trace. -/
def Atomic (x : Call α) : Prop :=
  ∀ c e c', x c = .error e c' → c' = c

/-- Nothing is changed, rejected or not. -/
def Steady (x : Call α) : Prop :=
  ∀ c, (∃ a, x c = .ok a c) ∨ ∃ e, x c = .error e c

/-- The call is never rejected. -/
def Sure (x : Call α) : Prop :=
  ∀ c, ∃ a c', x c = .ok a c'

/-! ### One thing after another -/

theorem bind_apply (x : Call α) (f : α → Call β) (c : Context) :
    (x >>= f) c = match x c with
      | .ok a c' => f a c'
      | .error e c' => .error e c' := by
  show EStateM.bind x f c = _
  unfold EStateM.bind
  cases x c <;> rfl

@[simp] theorem get_apply (c : Context) : (get : Call Context) c = .ok c c := rfl

@[simp] theorem pure_apply (a : α) (c : Context) : (pure a : Call α) c = .ok a c := rfl

@[simp] theorem throw_apply (e : CallError) (c : Context) : (throw e : Call α) c = .error e c := rfl

@[simp] theorem modify_apply (f : Context → Context) (c : Context) :
    (modify f : Call Unit) c = .ok () (f c) := rfl

theorem read_apply (address length : UInt32) (c : Context) :
    read address length c = match c.memory.read address length with
      | .ok bytes => .ok bytes c
      | .error fault => .error (.badPointer fault) c := by
  unfold read
  rw [bind_apply, get_apply]
  dsimp only
  cases c.memory.read address length <;> rfl

theorem Steady.atomic (steady : Steady x) : Atomic x := by
  intro c e c' rejected
  rcases steady c with ⟨a, done⟩ | ⟨e', done⟩
  · cases done.symm.trans rejected
  · cases done.symm.trans rejected
    rfl

theorem Sure.atomic (sure : Sure x) : Atomic x := by
  intro c e c' rejected
  obtain ⟨a, c'', done⟩ := sure c
  cases done.symm.trans rejected

theorem Steady.bind (first : Steady x) (last : ∀ a, Steady (f a)) : Steady (x >>= f) := by
  intro c
  rw [bind_apply]
  rcases first c with ⟨a, done⟩ | ⟨e, done⟩
  · rw [done]
    exact last a c
  · rw [done]
    exact .inr ⟨e, rfl⟩

theorem Sure.bind (first : Sure x) (last : ∀ a, Sure (f a)) : Sure (x >>= f) := by
  intro c
  obtain ⟨a, c', done⟩ := first c
  rw [bind_apply, done]
  exact last a c'

theorem Steady.before (first : Steady x) (last : ∀ a, Atomic (f a)) : Atomic (x >>= f) := by
  intro c e c' rejected
  rw [bind_apply] at rejected
  rcases first c with ⟨a, done⟩ | ⟨e', done⟩
  · rw [done] at rejected
    exact last a c e c' rejected
  · rw [done] at rejected
    cases rejected
    rfl

theorem Atomic.before (first : Atomic x) (last : ∀ a, Sure (f a)) : Atomic (x >>= f) := by
  intro c e c' rejected
  rw [bind_apply] at rejected
  cases done : x c with
  | ok a c'' =>
    obtain ⟨b, _, sure⟩ := last a c''
    rw [done] at rejected
    cases sure.symm.trans rejected
  | error e' c'' =>
    rw [done] at rejected
    cases rejected
    exact first c e c' done

/-! ### The parts of the functions -/

theorem steady_pure (a : α) : Steady (pure a) :=
  fun _ => .inl ⟨a, rfl⟩

theorem steady_throw (e : CallError) : Steady (throw e : Call α) :=
  fun _ => .inr ⟨e, rfl⟩

theorem steady_get : Steady get :=
  fun c => .inl ⟨c, rfl⟩

theorem steady_require (condition : Bool) (e : CallError) : Steady (require condition e) := by
  cases condition with
  | true => exact steady_pure ()
  | false => exact steady_throw e

theorem steady_requireLength (length limit : UInt32) : Steady (requireLength length limit) :=
  steady_require _ _

theorem steady_host : Steady host := by
  refine steady_get.bind fun c => ?_
  cases c.host with
  | none => exact steady_throw _
  | some h => exact steady_pure h

theorem steady_read (address length : UInt32) : Steady (read address length) := by
  refine steady_get.bind fun c => ?_
  cases c.memory.read address length with
  | ok bytes => exact steady_pure bytes
  | error fault => exact steady_throw _

theorem steady_ofExcept (r : Except CallError α) : Steady (ofExcept r) := by
  cases r with
  | ok a => exact steady_pure a
  | error e => exact steady_throw e

theorem sure_pure (a : α) : Sure (pure a) :=
  fun c => ⟨a, c, rfl⟩

theorem sure_modify (f : Context → Context) : Sure (modify f) :=
  fun c => ⟨(), f c, rfl⟩

theorem sure_setHost (h : Host) : Sure (setHost h) :=
  sure_modify _

theorem atomic_write (address : UInt32) (data : List UInt8) : Atomic (write address data) := by
  refine steady_get.before fun c => ?_
  cases c.memory.write address data with
  | ok memory => exact (sure_modify _).atomic
  | error fault => exact (steady_throw _).atomic

end Call

/-! ### The functions -/

namespace External

/-- Whatever the arguments are, a rejection leaves no trace. -/
def Atomic (f : External) : Prop :=
  ∀ args size, Call.Atomic (f.body args size)

open Call

theorem atomic_ofWords {id : UInt16} {name : String} {argSize retSize : UInt8}
    {f : Call.Args → Call (List UInt32)} (atomic : ∀ args, Call.Atomic (f args)) :
    (ofWords id name argSize retSize f).Atomic :=
  fun _ _ => (atomic _).before fun _ => sure_pure _

theorem atomic_mathematics : ∀ f ∈ mathematics, f.Atomic := by
  have pure {id name argSize retSize f} : (ofPure id name argSize retSize f).Atomic :=
    atomic_ofWords fun _ => (sure_pure _).atomic
  simp only [mathematics, List.forall_mem_cons]
  exact ⟨pure, pure, pure, pure, pure, nofun⟩

theorem atomic_print : print.Atomic := by
  refine atomic_ofWords fun args => (steady_requireLength _ _).before fun _ => ?_
  refine (steady_read _ _).before fun data => ?_
  exact ((sure_modify _).bind fun _ => sure_pure _).atomic

theorem read_ok {address length : UInt32} {bytes : List UInt8} {c c' : Context}
    (done : Call.read address length c = .ok bytes c') :
    Memory.InRange address length ∧ c' = c := by
  rw [read_apply, Memory.read] at done
  by_cases inside : Memory.InRange address length
  · rw [if_pos inside] at done
    cases done
    exact ⟨inside, rfl⟩
  · rw [if_neg inside] at done
    cases done

/-- There is room for a line where there is room for the longest one. -/
theorem sure_write {address length : UInt32} (inside : Memory.InRange address length)
    {data : List UInt8} (short : data.length ≤ length.toNat) : Sure (write address data) := by
  have small := length.toNat_lt
  have whole : (UInt32.ofNat data.length).toNat = data.length :=
    UInt32.toNat_ofNat_of_lt' (show data.length < 4294967296 by omega)
  have room : Memory.InRange address (UInt32.ofNat data.length) ∧ data.length ≤ Memory.size := by
    unfold Memory.InRange at inside ⊢
    omega
  refine Sure.bind (fun c => ⟨c, c, rfl⟩) fun c => ?_
  have written : c.memory.write address data = .ok (c.memory.setBytes address.toNat data) :=
    if_pos room
  rw [written]
  exact sure_modify _

theorem atomic_readStdin : readStdin.Atomic := by
  refine atomic_ofWords fun args => ?_
  intro c e c' rejected
  rw [bind_apply] at rejected
  cases read : Call.read (args 0) (args 1) c with
  | error e' c'' =>
    rw [read] at rejected
    cases rejected
    exact (steady_read _ _).atomic c e c' read
  | ok bytes c'' =>
    obtain ⟨inside, rfl⟩ := read_ok read
    rw [read] at rejected
    -- Where a line could be read, one can be written.
    refine Steady.before (x := get) steady_get (fun c => ?_) c'' e c' rejected
    dsimp only
    split
    · exact ((sure_modify _).bind fun _ => sure_pure _).atomic
    · refine ((sure_modify _).bind fun _ => ?_).atomic
      exact (sure_write inside (by rw [List.length_take]; omega)).bind fun _ => sure_pure _

theorem atomic_nextCommand : nextCommand.Atomic := by
  refine atomic_ofWords fun args => steady_host.before fun _ => steady_get.before fun c => ?_
  cases c.queues.commands.front? with
  | none => exact (sure_pure _).atomic
  | some command =>
    refine (steady_requireLength _ _).before fun _ => ?_
    exact (atomic_write _ _).before fun _ => (sure_modify _).bind fun _ => sure_pure _

theorem atomic_console : ∀ f ∈ console, f.Atomic := by
  simp only [console, List.forall_mem_cons]
  exact ⟨atomic_print, atomic_readStdin, atomic_nextCommand, nofun⟩

theorem atomic_send (address length : UInt32) (beam : Option Beam) :
    Call.Atomic (send address length beam) := by
  refine (steady_require _ _).before fun _ => (steady_requireLength _ _).before fun _ => ?_
  refine steady_host.before fun h => (steady_read _ _).before fun payload => ?_
  refine steady_get.before fun c => ?_
  dsimp only
  split
  · exact (sure_modify _).atomic
  · exact (steady_throw _).atomic

theorem atomic_transmit : transmit.Atomic :=
  atomic_ofWords fun _ => (atomic_send _ _ _).before fun _ => sure_pure _

theorem atomic_transmitBeam : transmitBeam.Atomic := by
  refine atomic_ofWords fun args => (steady_require _ _).before fun _ => ?_
  exact steady_host.before fun h => (atomic_send _ _ _).before fun _ => sure_pure _

theorem atomic_receive : receive.Atomic := by
  refine atomic_ofWords fun args => steady_host.before fun _ => steady_get.before fun c => ?_
  cases c.queues.inbound.front? with
  | none => exact (sure_pure _).atomic
  | some message =>
    refine (steady_requireLength _ _).before fun _ => ?_
    exact (atomic_write _ _).before fun _ => (sure_modify _).bind fun _ => sure_pure _

theorem atomic_radio : ∀ f ∈ radio, f.Atomic := by
  simp only [radio, List.forall_mem_cons]
  exact ⟨atomic_transmit, atomic_transmitBeam, atomic_receive, nofun⟩

theorem atomic_surroundings : ∀ f ∈ surroundings, f.Atomic := by
  simp only [surroundings, List.forall_mem_cons]
  refine ⟨?_, ?_, ?_, ?_, ?_, nofun⟩
  · refine atomic_ofWords fun args => steady_host.before fun h => (steady_require _ _).before fun _ => ?_
    exact ((sure_setHost _).bind fun _ => sure_pure _).atomic
  · refine atomic_ofWords fun args => (steady_requireLength _ _).before fun _ => ?_
    refine steady_host.before fun h => (steady_require _ _).before fun _ => ?_
    refine (steady_read _ _).before fun bytes => ?_
    exact ((sure_setHost _).bind fun _ => sure_pure _).atomic
  · exact atomic_ofWords fun args => steady_host.before fun h => (sure_pure _).atomic
  · exact atomic_ofWords fun args => steady_host.before fun h => (sure_pure _).atomic
  · exact atomic_ofWords fun args => steady_host.before fun h => (sure_pure _).atomic

theorem atomic_panel : ∀ f ∈ panel, f.Atomic := by
  simp only [panel, List.forall_mem_cons]
  refine ⟨?_, ?_, ?_, ?_, nofun⟩
  · refine atomic_ofWords fun args => ?_
    cases ElementKind.ofCode? (args 0) with
    | none => exact (steady_throw _).atomic
    | some kind =>
      refine steady_host.before fun h => ?_
      exact ((sure_setHost _).bind fun _ => sure_pure _).atomic
  · refine atomic_ofWords fun args => (steady_requireLength _ _).before fun _ => ?_
    refine steady_host.before fun h => (steady_read _ _).before fun bytes => ?_
    refine (steady_ofExcept _).before fun panel => ?_
    exact ((sure_setHost _).bind fun _ => sure_pure _).atomic
  · refine atomic_ofWords fun args => steady_host.before fun h => ?_
    refine (steady_ofExcept _).before fun panel => ?_
    exact ((sure_setHost _).bind fun _ => sure_pure _).atomic
  · refine atomic_ofWords fun args => steady_host.before fun h => steady_get.before fun c => ?_
    exact ((sure_modify _).bind fun _ => sure_pure _).atomic

theorem steady_pendriveOf (h : Host) : Steady (pendriveOf h) := by
  unfold pendriveOf
  cases h.pendrive with
  | none => exact steady_throw _
  | some drive => exact steady_pure drive

theorem atomic_storage : ∀ f ∈ storage, f.Atomic := by
  simp only [storage, List.forall_mem_cons]
  refine ⟨?_, ?_, nofun⟩
  · refine atomic_ofWords fun args => (steady_requireLength _ _).before fun _ => ?_
    refine steady_host.before fun h => (steady_pendriveOf h).before fun drive => ?_
    refine (steady_ofExcept _).before fun block => ?_
    exact (atomic_write _ _).before fun _ => sure_pure _
  · refine atomic_ofWords fun args => (steady_requireLength _ _).before fun _ => ?_
    refine steady_host.before fun h => (steady_pendriveOf h).before fun drive => ?_
    refine (steady_read _ _).before fun data => (steady_ofExcept _).before fun drive => ?_
    exact ((sure_setHost _).bind fun _ => sure_pure _).atomic

theorem atomic_standard : ∀ f ∈ Table.standard.functions, f.Atomic := by
  intro f member
  have known := Table.mem_standard.mp member
  simp only [Table.standardFunctions, List.mem_append] at known
  rcases known with ((((mathematical | console) | radio) | around) | panel) | storage
  · exact atomic_mathematics f mathematical
  · exact atomic_console f console
  · exact atomic_radio f radio
  · exact atomic_surroundings f around
  · exact atomic_panel f panel
  · exact atomic_storage f storage

end External

namespace MachineState

variable {s : MachineState} {i : Instruction}

/-- A program asks for a function, and the call is rejected. -/
structure Refused (table : Table) (i : Instruction) (s : MachineState) (f : External) (e : CallError)
    (c : Context) : Prop where
  op : i.op = .ext
  found : table.find? i.imm = some f
  rejection : f.body (s.registers.arguments f.signature.argWords) f.signature.retSize.toNat s.context =
    .error e c

theorem step_refused {table : Table} {f : External} {e : CallError} {c : Context}
    (h : Refused table i s f e c) :
    s.step table i = { registers := s.registers.setFirst 0 [rejected], context := c : MachineState }.next := by
  have call : s.step table i = callExternal table s i.imm := by simp only [step, h.op]
  rw [call, callExternal, h.found]
  dsimp only
  rw [h.rejection]

theorem get_setFirst (r : Registers) (w : UInt32) (k : UInt8) :
    (r.setFirst 0 [w]).get k = if k = 0 then w else r.get k := by
  unfold Registers.get Registers.setFirst Registers.setFirst
  by_cases first : k = 0
  · subst first
    simp
  · have other : ¬ 0 = k.toNat := fun zero => first (UInt8.toNat_inj.mp zero.symm)
    simp [first, other]

/-- A rejected call of a function that every arena has leaves memory, queues, sketch, panel and pendrive
exactly as they are. The program goes on with the next instruction: no trap stops it, and of its registers
only the first one changes, which says that the call was rejected. -/
theorem rejected_calls_leave_no_trace :
    (∀ f ∈ Table.standard.functions, ∀ args size c e c',
      f.body args size c = .error e c' → c' = c) ∧
    ∀ s i f e c, Refused .standard i s f e c →
      (s.step .standard i).2 = .advanced ∧
        (s.step .standard i).1.context = s.context ∧
        (s.step .standard i).1.registers.pc = s.registers.pc + 1 ∧
        (s.step .standard i).1.registers.sp = s.registers.sp ∧
        ∀ k, (s.step .standard i).1.registers.get k =
          if k = 0 then 0xFFFFFFFF else s.registers.get k := by
  refine ⟨fun f member args size => External.atomic_standard f member args size, ?_⟩
  intro s i f e c h
  have member : f ∈ Table.standard.functions := List.mem_of_find?_eq_some h.found
  have same : c = s.context := External.atomic_standard f member _ _ _ _ _ h.rejection
  rw [step_refused h, same]
  exact ⟨rfl, rfl, rfl, rfl, get_setFirst s.registers rejected⟩

/-- A robot with a message of three bytes, and a program that has left room for two. -/
def crowded : MachineState where
  registers := ({} : Registers).set 2 2
  context :=
    { memory := .zero
      queues := { Queues.ofCapacities {} with
        inbound := ⟨16, [⟨⟨2⟩, ⟨0⟩, .zero, [1, 2, 3], none⟩]⟩ }
      host := some ⟨⟨1⟩, ⟨0⟩, default, 0, {}, {}, none⟩ }

theorem crowded_keeps_its_message :
    Refused .standard { op := .ext, imm := 20 } crowded External.receive (.oversized 3 2)
        crowded.context ∧
      (crowded.step .standard { op := .ext, imm := 20 }).1.context = crowded.context := by
  have refused : Refused .standard { op := .ext, imm := 20 } crowded External.receive (.oversized 3 2)
      crowded.context := ⟨rfl, rfl, rfl⟩
  exact ⟨refused, (rejected_calls_leave_no_trace.2 _ _ _ _ _ refused).2.1⟩

end MachineState

end RobotArena
