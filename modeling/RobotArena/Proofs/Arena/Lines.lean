import Mathlib.Data.List.Forall2
import RobotArena.Proofs.Arena.Binding
import RobotArena.Proofs.Machine.Stopping
import RobotArena.Proofs.Machine.Talk

/-!
# Lines are read once and in order

A host puts lines in the queue of a robot, the arena hands the oldest one to a program that asks for one,
and the program takes it with a call. A dialogue notes which lines were put in the queue and what the calls
got. The main statement is that the calls get the lines one by one, in their order, and that no line is lost
between them; empty lines are handed out as well, but no call notices them.
-/

namespace RobotArena

/-! ### The registers of a line -/

namespace Memory

open Layout

variable (m : Memory)

theorem stdin_congr {m m' : Memory} (same : ∀ f ∈ consoleFields, ∀ i, f.Has i → m'.byte i = m.byte i) :
    m'.stdinRequested = m.stdinRequested ∧ m'.stdinLine = m.stdinLine := by
  have request : m'.byte stdinRequest = m.byte stdinRequest :=
    same ⟨stdinRequest, 1⟩ (by simp [consoleFields]) _ ⟨Nat.le_refl _, Nat.lt_succ_self _⟩
  have count : m'.wordAt stdinLength = m.wordAt stdinLength :=
    wordAt_congr _ fun i low high => same ⟨stdinLength, 4⟩ (by simp [consoleFields]) i ⟨low, high⟩
  refine ⟨by rw [stdinRequested, request, stdinRequested], ?_⟩
  rw [stdinLine, count, stdinLine]
  refine bytesAt_congr _ fun i low high => same ⟨stdinData, stdinCapacity⟩ (by simp [consoleFields]) i ⟨low, ?_⟩
  exact Nat.lt_of_lt_of_le high (Nat.add_le_add_left (Nat.min_le_right _ _) _)

theorem stdinRequested_setByte (b : UInt8) : (m.setByte stdinRequest b).stdinRequested = (b != 0) := by
  rw [stdinRequested, byte_setByte, if_pos ⟨rfl, by decide⟩]

theorem stdinLine_setByte (b : UInt8) : (m.setByte stdinRequest b).stdinLine = m.stdinLine := by
  have apart : stdinRequest + 1 ≤ stdinLength ∧ stdinRequest + 1 ≤ stdinData := by decide
  have count : (m.setBytes stdinRequest [b]).wordAt stdinLength = m.wordAt stdinLength :=
    wordAt_setBytes_outside m _ (.inr apart.1)
  show stdinLine (m.setBytes stdinRequest [b]) = _
  rw [stdinLine, count]
  exact bytesAt_setBytes_outside m _ (.inr apart.2)

theorem stdinLine_setWord (w : UInt32) :
    (m.setWord stdinLength w).stdinLine = m.bytesAt stdinData (min w.toNat stdinCapacity) := by
  have apart : stdinLength + 4 ≤ stdinData := by decide
  rw [stdinLine, setWord, wordAt_setBytes_toBytes _ _ _ (by decide)]
  exact bytesAt_setBytes_outside m _ (.inr apart)

theorem stdin_requestStdin : m.requestStdin.stdinRequested = true ∧ m.requestStdin.stdinLine = m.stdinLine :=
  ⟨m.stdinRequested_setByte 1, m.stdinLine_setByte 1⟩

theorem stdin_deliverStdin (line : List UInt8) :
    (m.deliverStdin line).stdinRequested = false ∧
      (m.deliverStdin line).stdinLine = line.take stdinCapacity := by
  have fits : (line.take stdinCapacity).length ≤ stdinCapacity := List.length_take_le _ _
  unfold deliverStdin
  generalize line.take stdinCapacity = kept at fits ⊢
  refine ⟨stdinRequested_setByte _ 0, ?_⟩
  have room : stdinData + stdinCapacity ≤ size := by decide
  have count : (UInt32.ofNat kept.length).toNat = kept.length :=
    UInt32.toNat_ofNat_of_lt' (Nat.lt_of_le_of_lt fits (by decide))
  rw [stdinLine_setByte, stdinLine_setWord, count, Nat.min_eq_left fits]
  exact m.bytesAt_setBytes_self _ (by omega)

theorem stdinLine_clearStdin : m.clearStdin.stdinLine = [] :=
  m.stdinLine_setWord 0

end Memory

/-! ### What a call does -/

namespace External

open Call

/-- What `readStdin` does when it is not rejected: without a line it asks for one, and else it takes the line
away and writes as much of it as there is room for. -/
theorem readStdin_ok {args : List UInt8} {size : Nat} {block : List UInt8} {c c' : Context}
    (done : readStdin.body args size c = .ok block c') :
    Memory.InRange (Word.ofBlock args 0) (Word.ofBlock args 1) ∧
      ((c.memory.stdinLine = [] ∧ block = resultBlock size [0] ∧
          c' = { c with memory := c.memory.requestStdin }) ∨
        ∃ kept, c.memory.stdinLine ≠ [] ∧ kept = c.memory.stdinLine.take (Word.ofBlock args 1).toNat ∧
          block = resultBlock size [UInt32.ofNat kept.length] ∧
          c' = { c with memory := c.memory.clearStdin.setBytes (Word.ofBlock args 0).toNat kept }) := by
  obtain ⟨words, c'', done, answered⟩ := bind_ok done
  cases answered
  obtain ⟨bytes, read, done⟩ := (steady_read _ _).bind_ok done
  obtain ⟨c₀, known, done⟩ := steady_get.bind_ok done
  cases known
  refine ⟨(read_ok read).1, ?_⟩
  dsimp only at done
  split at done
  · rename_i none
    cases done
    exact .inl ⟨List.isEmpty_iff.mp none, rfl, rfl⟩
  · rename_i some
    obtain ⟨_, c₁, cleared, done⟩ := bind_ok done
    cases cleared
    obtain ⟨_, c₂, written, done⟩ := bind_ok done
    obtain ⟨_, _, rfl⟩ := write_ok written
    cases done
    exact .inr ⟨_, fun empty => some (List.isEmpty_iff.mpr empty), rfl, rfl, rfl⟩

theorem sure_readStdin {args : List UInt8} {size : Nat}
    (inside : Memory.InRange (Word.ofBlock args 0) (Word.ofBlock args 1)) :
    Sure (readStdin.body args size) := by
  have read : Sure (Call.read (Word.ofBlock args 0) (Word.ofBlock args 1)) := by
    intro c
    rw [read_apply, Memory.read, if_pos inside]
    exact ⟨_, c, rfl⟩
  refine (read.bind fun _ => Sure.bind (fun c => ⟨c, c, rfl⟩) fun c => ?_).bind fun _ => sure_pure _
  dsimp only
  split
  · exact (sure_modify _).bind fun _ => sure_pure _
  · refine (sure_modify _).bind fun _ => (sure_write inside ?_).bind fun _ => sure_pure _
    exact List.length_take_le _ _

end External

namespace Processor

/-- What a function answers to the processor's program, if it is not rejected, and the processor after the
call. -/
def call (p : Processor) (f : External) (host : Option Host) (args : List UInt8) :
    Option (List UInt8) × Processor :=
  match f.body args f.signature.retSize.toNat ⟨p.memory, p.queues, host⟩ with
  | .ok block c => (some block, { p with memory := c.memory, queues := c.queues })
  | .error _ c => (none, { p with memory := c.memory, queues := c.queues })

/-- This is the call that an instruction of the program makes. -/
theorem call_eq_step (p : Processor) (host : Option Host) {table : Table} {i : Instruction} {f : External}
    (op : i.op = .ext) (found : table.find? i.imm = some f) :
    let args := p.registers.arguments f.signature.argWords
    ((p.state host).step table i).1.context.memory = (p.call f host args).2.memory ∧
      ((p.state host).step table i).1.context.queues = (p.call f host args).2.queues := by
  have call : (p.state host).step table i = MachineState.callExternal table (p.state host) i.imm := by
    simp only [MachineState.step, op]
  dsimp only
  rw [call, MachineState.callExternal, found]
  unfold Processor.call state
  dsimp only
  cases f.body (p.registers.arguments f.signature.argWords) f.signature.retSize.toNat
    ⟨p.memory, p.queues, host⟩ <;> exact ⟨rfl, rfl⟩

section

variable {p q : Processor} {f : External} {host : Option Host} {args block : List UInt8}

theorem call_some (called : p.call f host args = (some block, q)) :
    ∃ c, f.body args f.signature.retSize.toNat ⟨p.memory, p.queues, host⟩ = .ok block c ∧
      q = { p with memory := c.memory, queues := c.queues } := by
  unfold call at called
  cases done : f.body args f.signature.retSize.toNat ⟨p.memory, p.queues, host⟩ with
  | ok block' c =>
    rw [done] at called
    cases called
    exact ⟨c, rfl, rfl⟩
  | error e c =>
    rw [done] at called
    cases called

theorem call_none (called : p.call f host args = (none, q)) :
    ∃ e c, f.body args f.signature.retSize.toNat ⟨p.memory, p.queues, host⟩ = .error e c ∧
      q = { p with memory := c.memory, queues := c.queues } := by
  unfold call at called
  cases done : f.body args f.signature.retSize.toNat ⟨p.memory, p.queues, host⟩ with
  | ok block c =>
    rw [done] at called
    cases called
  | error e c =>
    rw [done] at called
    cases called
    exact ⟨e, c, rfl, rfl⟩

/-- A call of `readStdin` is rejected for a destination outside of memory only, and then changes nothing. -/
theorem call_rejected (called : p.call External.readStdin host args = (none, q)) :
    q = p ∧ ¬Memory.InRange (Word.ofBlock args 0) (Word.ofBlock args 1) := by
  obtain ⟨e, c, rejected, rfl⟩ := call_none called
  obtain rfl := External.atomic_readStdin _ _ _ _ _ rejected
  refine ⟨rfl, fun inside => ?_⟩
  obtain ⟨_, _, accepted⟩ := External.sure_readStdin inside ⟨p.memory, p.queues, host⟩
  cases accepted.symm.trans rejected

/-- The bytes that a call names as the place for a line. -/
def destination (args : List UInt8) : Field :=
  ⟨(Word.ofBlock args 0).toNat, (Word.ofBlock args 1).toNat⟩

/-- What a call of `readStdin` does to the registers of lines, where its destination is apart from them. -/
theorem call_readStdin
    (apart : Memory.InRange (Word.ofBlock args 0) (Word.ofBlock args 1) →
      ∀ i, (destination args).Has i → ∀ f ∈ Layout.consoleFields, ¬f.Has i)
    (called : p.call External.readStdin host args = (some block, q)) :
    q.queues = p.queues ∧ q.memory.stdinLine = [] ∧
      (p.memory.stdinLine = [] → q.memory.stdinRequested = true) ∧
      (p.memory.stdinLine ≠ [] →
        q.memory.bytesAt (destination args).start (Word.ofBlock block 0).toNat =
          p.memory.stdinLine.take (destination args).size) := by
  obtain ⟨c, done, rfl⟩ := call_some called
  obtain ⟨inside, ⟨none, _, rfl⟩ | ⟨kept, some, cut, rfl, rfl⟩⟩ := External.readStdin_ok done
  · obtain ⟨asked, line⟩ := p.memory.stdin_requestStdin
    exact ⟨rfl, line.trans none, fun _ => asked, fun some => absurd none some⟩
  have short : kept.length ≤ (destination args).size := by
    rw [cut]
    exact List.length_take_le _ _
  have outside : ∀ f ∈ Layout.consoleFields, ∀ i, f.Has i →
      (p.memory.clearStdin.setBytes (destination args).start kept).byte i = p.memory.clearStdin.byte i := by
    intro f member i has
    have within : Memory.Within [destination args] p.memory.clearStdin
        (p.memory.clearStdin.setBytes (destination args).start kept) :=
      .setBytes List.mem_cons_self short
    refine within i fun g there taken => ?_
    obtain rfl := List.mem_singleton.mp there
    exact apart inside i taken f member has
  have count : (Word.ofBlock (External.resultBlock 4 [UInt32.ofNat kept.length]) 0).toNat = kept.length := by
    have whole := Word.ofBlock_toBytes (UInt32.ofNat kept.length) []
    refine (congrArg UInt32.toNat whole).trans (UInt32.toNat_ofNat_of_lt' ?_)
    exact Nat.lt_of_le_of_lt short (Word.ofBlock args 1).toNat_lt
  refine ⟨rfl, (Memory.stdin_congr outside).2.trans p.memory.stdinLine_clearStdin,
    fun none => absurd none some, fun _ => ?_⟩
  show Memory.bytesAt _ _ (Word.ofBlock (External.resultBlock 4 [UInt32.ofNat kept.length]) 0).toNat = _
  rw [count]
  refine (p.memory.clearStdin.bytesAt_setBytes_self _ ?_).trans cut
  exact Nat.le_trans (Nat.add_le_add_left short _) inside

end

/-! ### The arena's part -/

theorem deliverLine_of_idle {p : Processor}
    (idle : p.memory.stdinRequested = false ∨ p.queues.stdin.items = []) : p.deliverLine = p := by
  unfold deliverLine Queue.front?
  rcases idle with silent | empty
  · rw [silent]
  · rw [empty]
    cases p.memory.stdinRequested <;> rfl

theorem deliverLine_of_asked {p : Processor} {line : List UInt8} {rest : List (List UInt8)}
    (asked : p.memory.stdinRequested = true) (items : p.queues.stdin.items = line :: rest) :
    p.deliverLine =
      { p with
        memory := p.memory.deliverStdin line
        queues := { p.queues with stdin := { p.queues.stdin with items := rest } } } := by
  rw [deliverLine, asked, Queue.front?, items, List.head?_cons]
  dsimp only
  rw [Queue.pop, items, List.tail_cons]

end Processor

namespace Arena

variable {a : Arena} {id : EntityId} {p : Processor}

theorem processor_of_entity {a : Arena} {e : Entity} (there : a.world.find? id = some e)
    (held : e.processor = some p) : a.processor id = .ok p := by
  unfold processor
  rw [there]
  dsimp only
  rw [held]

theorem processor_of_map {change : Entity → Entity} {q : Processor} (ids : ∀ e, (change e).id = e.id)
    (known : a.processor id = .ok p)
    (changed : ∀ e, e.id = id → e.processor = some p → (change e).processor = some q) :
    { a with world := a.world.mapEntities change : Arena }.processor id = .ok q := by
  obtain ⟨e, there, held⟩ := processor_eq_ok known
  have same : e.id = id := by simpa using List.find?_some there
  refine processor_of_entity (e := change e) ?_ (changed e same held)
  have alike : ((fun e : Entity => decide (e.id = id)) ∘ change) = fun e => decide (e.id = id) :=
    funext fun e => by rw [Function.comp_apply, ids]
  show (a.world.entities.map change).find? _ = _
  rw [List.find?_map, alike, show a.world.entities.find? _ = some e from there, Option.map_some]

theorem processor_setProcessor (known : a.processor id = .ok p) (q : Processor) :
    (a.setProcessor id q).processor id = .ok q := by
  refine processor_of_map (fun e => ?_) known fun e same _ => ?_
  · dsimp only
    split <;> rfl
  · rw [if_pos same]

theorem processor_deliverLines (known : a.processor id = .ok p) :
    { a with world := a.world.deliverLines : Arena }.processor id = .ok p.deliverLine :=
  processor_of_map (fun _ => rfl) known fun e _ held => by rw [held, Option.map_some]

end Arena

/-! ### Dialogues -/

/-- What a call of `readStdin` got where there was a line: the room it offered, and the bytes at its
destination afterwards, as many as it answered. -/
structure Reading where
  room : UInt32
  bytes : List UInt8
  deriving DecidableEq, Repr

/-- What a call gets, if it is not rejected and there is a line. -/
def Processor.gets (p : Processor) (host : Option Host) (args : List UInt8) : List Reading :=
  match p.call External.readStdin host args with
  | (some block, q) =>
    if p.memory.stdinLine = [] then []
    else [⟨Word.ofBlock args 1, q.memory.bytesAt (Word.ofBlock args 0).toNat (Word.ofBlock block 0).toNat⟩]
  | (none, _) => []

/-- A call whose destination lies in memory, apart from the registers of lines, gets the line that stands
there, cut to the room for it. -/
theorem Processor.gets_of_inRange {p : Processor} {host : Option Host} {args : List UInt8}
    (inside : Memory.InRange (Word.ofBlock args 0) (Word.ofBlock args 1))
    (apart : ∀ i, (destination args).Has i → ∀ f ∈ Layout.consoleFields, ¬f.Has i)
    (some : p.memory.stdinLine ≠ []) :
    p.gets host args =
      [⟨Word.ofBlock args 1, p.memory.stdinLine.take (Word.ofBlock args 1).toNat⟩] := by
  rcases called : p.call External.readStdin host args with ⟨answer, q⟩
  unfold gets
  rw [called]
  cases answer with
  | none => exact absurd inside (call_rejected called).2
  | some block =>
    dsimp only
    obtain ⟨_, _, _, bytes⟩ := call_readStdin (fun _ => apart) called
    rw [if_neg some]
    exact congrArg (fun bytes => [Reading.mk _ bytes]) (bytes some)

/-- An arena, the lines that the queue of one of its robots has taken, and what the robot's calls got.
Nothing in the arena depends on the other two. -/
structure Dialogue where
  arena : Arena
  accepted : List (List UInt8)
  readings : List Reading := []

namespace Dialogue

/-- The host provides a line, which the queue may refuse. -/
def provide (id : EntityId) (d : Dialogue) (line : List UInt8) : Dialogue :=
  match d.arena.provideLine id line with
  | .ok arena => { d with arena, accepted := d.accepted ++ [line] }
  | .error _ => d

/-- The arena hands out lines. -/
def pass (d : Dialogue) : Dialogue :=
  { d with arena := { d.arena with world := d.arena.world.deliverLines } }

/-- The robot's program calls `readStdin`. -/
def read (id : EntityId) (d : Dialogue) (host : Option Host) (args : List UInt8) : Dialogue :=
  match d.arena.processor id with
  | .ok p =>
    { d with
      arena := d.arena.setProcessor id (p.call External.readStdin host args).2
      readings := d.readings ++ p.gets host args }
  | .error _ => d

/-- What can happen next. Other things can make any other arena of it. -/
inductive Turn where
  | provide (line : List UInt8)
  | pass
  | read (host : Option Host) (args : List UInt8)
  | other (arena : Arena)

variable (id : EntityId)

/-- What comes of a turn. -/
def take (d : Dialogue) : Turn → Dialogue
  | .provide line => d.provide id line
  | .pass => d.pass
  | .read host args => d.read id host args
  | .other arena => { d with arena }

/-- No call has its line written over the registers of lines, and whatever else happens, the robot keeps its
queue of lines and these registers. -/
def Undisturbed (d : Dialogue) : Turn → Prop
  | .provide _ => True
  | .pass => True
  | .read _ args => Memory.InRange (Word.ofBlock args 0) (Word.ofBlock args 1) →
    ∀ i, (Processor.destination args).Has i → ∀ f ∈ Layout.consoleFields, ¬f.Has i
  | .other arena => ∀ p, d.arena.processor id = .ok p → ∃ q, arena.processor id = .ok q ∧
    q.queues.stdin = p.queues.stdin ∧
    ∀ f ∈ Layout.consoleFields, ∀ i, f.Has i → q.memory.byte i = p.memory.byte i

/-- A dialogue comes from another one by some turns, none of which disturbs it. -/
inductive Reaches (first : Dialogue) : Dialogue → Prop where
  | refl : Reaches first first
  | turn {d : Dialogue} (before : Reaches first d) (t : Turn) (calm : d.Undisturbed id t) :
    Reaches first (d.take id t)

/-- Where the lines are that are not empty: the first ones were read, each cut to the room for it, the next
one may stand in the robot's memory, and the others wait in its queue. While a line stands in memory, none is
asked for. -/
structure Told (d : Dialogue) (p : Processor) (lines : List (List UInt8)) (delivered : Option (List UInt8)) :
    Prop where
  processor : d.arena.processor id = .ok p
  accepted : d.accepted.filter (· ≠ []) =
    lines ++ delivered.toList ++ p.queues.stdin.items.filter (· ≠ [])
  readings : List.Forall₂ (fun line r => r.bytes = line.take (min 64 r.room.toNat)) lines d.readings
  shown : p.memory.stdinLine = (delivered.getD []).take 64
  calm : p.memory.stdinRequested = true → delivered = none

/-- How the lines go on: a call is rejected only for a destination outside of memory, and then changes nothing;
without a line it asks for one; the oldest line is handed out once it is asked for; and a call whose destination
lies in memory, apart from the registers of lines, gets the line that was handed out. -/
structure Continues (d : Dialogue) (p : Processor) (lines : List (List UInt8)) (delivered : Option (List UInt8)) :
    Prop where
  rejected : ∀ host args q, p.call External.readStdin host args = (none, q) →
    q = p ∧ ¬Memory.InRange (Word.ofBlock args 0) (Word.ofBlock args 1)
  asks : delivered = none → ∀ host args block q, d.Undisturbed id (.read host args) →
    p.call External.readStdin host args = (some block, q) → q.memory.stdinRequested = true
  handed : p.memory.stdinRequested = true → ∀ line rest, p.queues.stdin.items = line :: rest → line ≠ [] →
    ∃ q, d.pass.Told id q lines (some line)
  gets : ∀ line, delivered = some line → ∀ host args, d.Undisturbed id (.read host args) →
    Memory.InRange (Word.ofBlock args 0) (Word.ofBlock args 1) →
    p.gets host args = [⟨Word.ofBlock args 1, line.take (min 64 (Word.ofBlock args 1).toNat)⟩]

variable {id} {d : Dialogue} {p : Processor} {lines : List (List UInt8)} {delivered : Option (List UInt8)}

theorem read_of_processor (known : d.arena.processor id = .ok p) (host : Option Host) (args : List UInt8) :
    d.read id host args =
      { d with
        arena := d.arena.setProcessor id (p.call External.readStdin host args).2
        readings := d.readings ++ p.gets host args } := by
  rw [read, known]

namespace Told

theorem stdinLine_eq_nil_iff (h : d.Told id p lines delivered) :
    p.memory.stdinLine = [] ↔ delivered = none := by
  rw [h.shown]
  cases delivered with
  | none => exact ⟨fun _ => rfl, fun _ => rfl⟩
  | some line =>
    -- what stands in memory is a line that was accepted, and these are not empty
    have member : line ∈ d.accepted.filter (· ≠ []) := by rw [h.accepted]; simp
    have some : line ≠ [] := by simpa using (List.mem_filter.mp member).2
    rw [Option.getD_some, List.take_eq_nil_iff]
    simp [some]

theorem provide (h : d.Told id p lines delivered) (line : List UInt8) :
    ∃ q, (d.provide id line).Told id q lines delivered := by
  unfold Dialogue.provide
  cases done : d.arena.provideLine id line with
  | error e => exact ⟨p, h⟩
  | ok b =>
    obtain ⟨p', queues, known, pushed, rfl⟩ := Arena.putInQueue_eq_ok done
    cases h.processor.symm.trans known
    obtain ⟨stdin, put, rfl⟩ := Option.map_eq_some_iff.mp pushed
    refine ⟨_, Arena.processor_setProcessor known _, ?_, h.readings, h.shown, h.calm⟩
    dsimp only
    rw [Queue.items_push? put, List.filter_append, List.filter_append, h.accepted, List.append_assoc]

/-- A line is handed out only where none stands in memory that could be overwritten. An empty one is then
gone. -/
theorem handed (h : d.Told id p lines delivered) (asked : p.memory.stdinRequested = true)
    {line : List UInt8} {rest : List (List UInt8)} (items : p.queues.stdin.items = line :: rest) :
    ∃ q, d.pass.Told id q lines (if line = [] then none else some line) := by
  have known : d.pass.arena.processor id = .ok p.deliverLine := Arena.processor_deliverLines h.processor
  rw [Processor.deliverLine_of_asked asked items] at known
  obtain rfl := h.calm asked
  obtain ⟨request, shown⟩ := p.memory.stdin_deliverStdin line
  have accepted := h.accepted
  rw [items] at accepted
  by_cases empty : line = []
  · subst empty
    refine ⟨_, known, accepted, h.readings, shown, fun _ => rfl⟩
  · rw [if_neg empty]
    refine ⟨_, known, accepted.trans ?_, h.readings, shown, fun asked => ?_⟩
    · rw [List.filter_cons_of_pos (by simpa using empty)]
      simp
    · exact absurd (request.symm.trans asked) Bool.false_ne_true

theorem pass (h : d.Told id p lines delivered) : ∃ q delivered, d.pass.Told id q lines delivered := by
  by_cases idle : p.memory.stdinRequested = false ∨ p.queues.stdin.items = []
  · have known : d.pass.arena.processor id = .ok p.deliverLine := Arena.processor_deliverLines h.processor
    rw [Processor.deliverLine_of_idle idle] at known
    exact ⟨p, delivered, known, h.accepted, h.readings, h.shown, h.calm⟩
  · obtain ⟨asked, waiting⟩ := not_or.mp idle
    obtain ⟨line, rest, items⟩ := List.exists_cons_of_ne_nil waiting
    obtain ⟨q, told⟩ := h.handed (by simpa using asked) items
    exact ⟨q, _, told⟩

theorem read (h : d.Told id p lines delivered) {host : Option Host} {args : List UInt8}
    (calm : d.Undisturbed id (.read host args)) :
    ∃ q lines delivered, (d.read id host args).Told id q lines delivered := by
  rcases called : p.call External.readStdin host args with ⟨answer, q⟩
  have known := Arena.processor_setProcessor h.processor q
  rw [read_of_processor h.processor, Processor.gets, called]
  cases answer with
  | none =>
    obtain ⟨rfl, _⟩ := Processor.call_rejected called
    refine ⟨q, lines, delivered, known, h.accepted, ?_, h.shown, h.calm⟩
    dsimp only
    rw [List.append_nil]
    exact h.readings
  | some block =>
    dsimp only
    obtain ⟨queues, line, _, bytes⟩ := Processor.call_readStdin calm called
    by_cases none : p.memory.stdinLine = []
    · obtain rfl := h.stdinLine_eq_nil_iff.mp none
      rw [if_pos none, List.append_nil]
      exact ⟨q, lines, .none, known, queues ▸ h.accepted, h.readings, line, fun _ => rfl⟩
    · obtain ⟨next, rfl⟩ := Option.ne_none_iff_exists'.mp (mt h.stdinLine_eq_nil_iff.mpr none)
      rw [if_neg none]
      refine ⟨q, lines ++ [next], .none, known, ?_, ?_, line, fun _ => rfl⟩
      · rw [queues, Option.toList_none, List.append_nil]
        exact h.accepted
      · refine List.rel_append h.readings (.cons ((bytes none).trans ?_) .nil)
        rw [h.shown, Option.getD_some, List.take_take, Nat.min_comm]
        rfl

theorem other (h : d.Told id p lines delivered) {arena : Arena} (calm : d.Undisturbed id (.other arena)) :
    ∃ q, ({ d with arena } : Dialogue).Told id q lines delivered := by
  obtain ⟨q, known, queue, same⟩ := calm p h.processor
  obtain ⟨request, line⟩ := Memory.stdin_congr same
  exact ⟨q, known, queue ▸ h.accepted, h.readings, line.trans h.shown, request ▸ h.calm⟩

theorem take (h : d.Told id p lines delivered) (t : Turn) (calm : d.Undisturbed id t) :
    ∃ q lines delivered, (d.take id t).Told id q lines delivered := by
  cases t with
  | provide line =>
    obtain ⟨q, told⟩ := h.provide line
    exact ⟨q, lines, delivered, told⟩
  | pass =>
    obtain ⟨q, delivered, told⟩ := h.pass
    exact ⟨q, lines, delivered, told⟩
  | read host args => exact h.read calm
  | other arena =>
    obtain ⟨q, told⟩ := h.other calm
    exact ⟨q, lines, delivered, told⟩

theorem continues (h : d.Told id p lines delivered) : d.Continues id p lines delivered where
  rejected _ _ _ := Processor.call_rejected
  asks := by
    intro none host args block q calm called
    obtain ⟨_, _, asked, _⟩ := Processor.call_readStdin calm called
    exact asked (h.stdinLine_eq_nil_iff.mpr none)
  handed := by
    intro asked line rest items some
    obtain ⟨q, told⟩ := h.handed asked items
    rw [if_neg some] at told
    exact ⟨q, told⟩
  gets := by
    rintro line rfl host args calm inside
    have some : p.memory.stdinLine ≠ [] := mt h.stdinLine_eq_nil_iff.mp (Option.some_ne_none line)
    rw [Processor.gets_of_inRange inside (calm inside) some, h.shown, Option.getD_some, List.take_take,
      Nat.min_comm]

end Told

/-- At first nothing was read. What stands in memory or waits in the queue counts as accepted. -/
def start (a : Arena) (p : Processor) : Dialogue :=
  { arena := a, accepted := p.memory.stdinLine :: p.queues.stdin.items }

theorem told_start {a : Arena} (known : a.processor id = .ok p)
    (calm : p.memory.stdinRequested = true → p.memory.stdinLine = []) :
    ∃ delivered, (start a p).Told id p [] delivered := by
  have short : p.memory.stdinLine.length ≤ 64 := by
    rw [Memory.stdinLine, Memory.length_bytesAt]
    exact Nat.min_le_right _ _
  by_cases empty : p.memory.stdinLine = []
  · refine ⟨none, known, ?_, .nil, empty, fun _ => rfl⟩
    rw [start, empty]
    rfl
  · refine ⟨some p.memory.stdinLine, known, ?_, .nil, ?_, fun asked => absurd (calm asked) empty⟩
    · rw [start, List.filter_cons_of_pos (by simpa using empty)]
      rfl
    · exact (List.take_of_length_le short).symm

theorem Reaches.told {first : Dialogue} (reached : Reaches id first d)
    (begun : ∃ p lines delivered, first.Told id p lines delivered) :
    ∃ p lines delivered, d.Told id p lines delivered := by
  induction reached with
  | refl => exact begun
  | turn _ t calm ih =>
    obtain ⟨p, lines, delivered, told⟩ := ih
    exact told.take t calm

/-- Whatever lines a host provides, whenever the arena hands out lines, and whichever calls the program makes:
the lines that the queue has accepted and that are not empty are, in their order, those that the calls got, one
each and cut to 64 bytes and to the room that the call offered, then the one that stands in memory, as far as
there is room for it, and then those that wait in the queue. None is asked for while one stands in memory, so
none is overwritten; a call that is rejected changes nothing, and any other one gets the line that stands in
memory or asks for one. It is enough that the robot did not ask for a line while one stood in its memory at
first, as a new one does not. -/
theorem lines_are_read_once_in_order {a : Arena} (known : a.processor id = .ok p)
    (calm : p.memory.stdinRequested = true → p.memory.stdinLine = [])
    (reached : Reaches id (start a p) d) :
    ∃ q lines delivered, d.Told id q lines delivered ∧ d.Continues id q lines delivered := by
  obtain ⟨first, told⟩ := told_start known calm
  obtain ⟨q, lines, delivered, told⟩ := reached.told ⟨p, [], first, told⟩
  exact ⟨q, lines, delivered, told, told.continues⟩

/-- A processor with a line of three bytes in its memory. -/
def greeted : Processor :=
  { Processor.create .none {} none with memory := Memory.zero.deliverStdin [104, 105, 33] }

/-- An arena with one robot. -/
def lonely : Arena :=
  ((Arena.create {}).spawn { team := ⟨1⟩ }).2.setProcessor ⟨1⟩ greeted

/-- A call that offers two bytes at the start of memory. -/
def pair : List UInt8 :=
  Word.toBytes 0 ++ Word.toBytes 2

/-- The host provides another line, and the program reads the first one. -/
def greeting : Dialogue :=
  ((start lonely greeted).take ⟨1⟩ (.provide [111])).take ⟨1⟩ (.read none pair)

theorem long_line_is_cut_to_its_room :
    greeting.readings = [⟨2, [104, 105]⟩] ∧
      ∃ q delivered, greeting.Told ⟨1⟩ q [[104, 105, 33]] delivered := by
  have known : lonely.processor ⟨1⟩ = .ok greeted := rfl
  obtain ⟨silent, line⟩ := Memory.zero.stdin_deliverStdin [104, 105, 33]
  have apart : ((start lonely greeted).take ⟨1⟩ (.provide [111])).Undisturbed ⟨1⟩ (.read none pair) := by
    intro _ i has f member
    obtain ⟨_, low⟩ : 0 ≤ i ∧ i < 2 := has
    have above : ∀ f ∈ Layout.consoleFields, 2 ≤ f.start := by decide
    exact fun there => absurd (Nat.le_trans (above f member) there.1) (Nat.not_le_of_lt low)
  have reached : Reaches ⟨1⟩ (start lonely greeted) greeting :=
    (Reaches.refl.turn (.provide [111]) trivial).turn (.read none pair) apart
  obtain ⟨q, lines, delivered, told, _⟩ := lines_are_read_once_in_order known
    (fun asked => absurd (silent.symm.trans asked) Bool.false_ne_true) reached
  have got : greeting.readings = [⟨2, [104, 105]⟩] := by
    obtain ⟨p, waiting, same⟩ : ∃ p, ((start lonely greeted).provide ⟨1⟩ [111]).arena.processor ⟨1⟩ = .ok p ∧
        p.memory = greeted.memory := ⟨_, rfl, rfl⟩
    have shown : p.memory.stdinLine = [104, 105, 33] := (congrArg Memory.stdinLine same).trans line
    have gets : p.gets none pair = [⟨2, p.memory.stdinLine.take 2⟩] :=
      Processor.gets_of_inRange (by decide) (apart (by decide)) (by rw [shown]; decide)
    rw [greeting, take, take, read_of_processor waiting, gets, shown]
    rfl
  have length : lines.length = 1 := told.readings.length_eq.trans (congrArg List.length got)
  obtain ⟨first, rfl⟩ := List.length_eq_one_iff.mp length
  have said : greeting.accepted = [greeted.memory.stdinLine, [111]] := rfl
  have accepted := told.accepted
  rw [said, greeted, line] at accepted
  obtain rfl : [104, 105, 33] = first := (List.cons.inj accepted).1
  exact ⟨got, q, delivered, told⟩

end Dialogue

end RobotArena
