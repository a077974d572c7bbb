import RobotArena.Proofs.External.Radio
import RobotArena.Proofs.Machine.Stack

/-!
# What a program sends and hears

A slice of a program sends some transmissions and hears some messages. What it sends is added to the end
of the outbound queue, signed with the robot that the program runs for; what it hears is taken from the
front of the inbound queue, each message as a whole.
-/

namespace RobotArena

/-- A program has sent and heard something, and nothing else has changed for the radio. -/
structure Exchanges (v v' : Station) (sent heard : List Transmission) : Prop where
  owner : v'.owner = v.owner
  taken : v.inbox = heard ++ v'.inbox
  added : v'.outbox = v.outbox ++ sent
  signed : ∀ t ∈ sent, v.owner = some (t.sender, t.team)

namespace Exchanges

variable {v v' v'' : Station} {sent heard sent' heard' : List Transmission}

theorem refl (v : Station) : Exchanges v v [] [] :=
  ⟨rfl, rfl, (List.append_nil _).symm, nofun⟩

theorem trans (first : Exchanges v v' sent heard) (second : Exchanges v' v'' sent' heard') :
    Exchanges v v'' (sent ++ sent') (heard ++ heard') := by
  refine ⟨second.owner.trans first.owner, ?_, ?_, ?_⟩
  · rw [first.taken, second.taken, List.append_assoc]
  · rw [second.added, first.added, List.append_assoc]
  · intro t member
    rcases List.mem_append.mp member with early | late
    · exact first.signed t early
    · rw [← first.owner]
      exact second.signed t late

end Exchanges

/-! ### One instruction -/

namespace MachineState

variable {i : Instruction} {s : MachineState}

/-- The instruction calls a function that every arena has, and the call is not rejected. -/
def accepted (i : Instruction) (s : MachineState) : Bool :=
  match Table.standard.find? i.imm with
  | some f =>
    match f.body (s.registers.arguments f.signature.argWords) f.signature.retSize.toNat s.context with
    | .ok _ _ => true
    | .error _ _ => false
  | none => false

/-- The transmission that an instruction sends. -/
def sent? (i : Instruction) (s : MachineState) : Option Transmission :=
  if i.op = .ext ∧ (i.imm = 18 ∨ i.imm = 19) ∧ accepted i s = true then
    (s.step .standard i).1.context.queues.outbound.items.getLast?
  else none

/-- The message that an instruction hears: the oldest one, if the instruction receives and is not
rejected. -/
def heard? (i : Instruction) (s : MachineState) : Option Transmission :=
  if i.op = .ext ∧ i.imm = 20 ∧ accepted i s = true then s.context.queues.inbound.items.head? else none

/-- The program has got a message in full: its bytes stand where the program wants them, and the first
register says how many they are. -/
structure HandedOver (s s' : MachineState) (m : Transmission) : Prop where
  inside : (s.registers.get 1).toNat + m.payload.length ≤ Memory.size
  bytes : s'.context.memory.bytesAt (s.registers.get 1).toNat m.payload.length = m.payload
  count : s'.registers.get 0 = UInt32.ofNat m.payload.length

/-- Of what a program can reach, an instruction that calls no function changes its memory only. -/
theorem step_memory {table : Table} (op : i.op ≠ .ext) :
    (s.step table i).1.context = { s.context with memory := (s.step table i).1.context.memory } := by
  have pushed : ∀ w pc, (s.push w pc).1.context = { s.context with memory := (s.push w pc).1.context.memory } := by
    intro w pc
    simp only [push]
    split <;> rfl
  by_cases moves : movesStack i.op
  · rcases moves with push | pop | call | ret
    · simp only [step, push]
      exact pushed _ _
    · simp only [step, pop, MachineState.pop]
      split <;> rfl
    · simp only [step, call]
      exact pushed _ _
    · simp only [step, ret, MachineState.ret]
      split
      · rfl
      · split <;> rfl
  · by_cases stores : canStore i.op
    · rcases stores with st | stb | ext
      · simp only [step, st, store]
        split <;> rfl
      · simp only [step, stb, storeByte]
        split <;> rfl
      · exact absurd ext op
    · rw [context_step moves stores]

theorem station_step {table : Table} (op : i.op ≠ .ext) :
    (s.step table i).1.context.station = s.context.station := by
  rw [step_memory op]
  exact s.context.station_memory _

/-- The function has none of the numbers of the radio functions. -/
def isOther (f : External) : Bool :=
  f.signature.id != 18 && f.signature.id != 19 && f.signature.id != 20

theorem standard_cases {f : External} (member : f ∈ Table.standard.functions) :
    f.Quiet ∧ isOther f = true ∨
      f = External.transmit ∨ f = External.transmitBeam ∨ f = External.receive := by
  have known := Table.mem_standard.mp member
  have others : ∀ fs : List External, (∀ f ∈ fs, f.Quiet) → fs.all isOther = true → f ∈ fs →
      f.Quiet ∧ isOther f = true :=
    fun fs quiet other there => ⟨quiet f there, List.all_eq_true.mp other f there⟩
  simp only [Table.standardFunctions, List.mem_append] at known
  rcases known with ((((mathematical | console) | radio) | around) | panel) | storage
  · exact .inl (others _ External.quiet_mathematics rfl mathematical)
  · exact .inl (others _ External.quiet_console rfl console)
  · right
    simpa [External.radio] using radio
  · exact .inl (others _ External.quiet_surroundings rfl around)
  · exact .inl (others _ External.quiet_panel rfl panel)
  · exact .inl (others _ External.quiet_storage rfl storage)

theorem number_of_find? {table : Table} {id : Int32} {f : External} (found : table.find? id = some f) :
    (f.signature.id.toNat : Int) = id.toInt := by
  simpa using List.find?_some found

/-- An instruction calls a function, and the call is accepted. -/
theorem step_accepted {table : Table} {f : External} {block : List UInt8} {c : Context}
    (op : i.op = .ext) (found : table.find? i.imm = some f)
    (done : f.body (s.registers.arguments f.signature.argWords) f.signature.retSize.toNat s.context =
      .ok block c) :
    s.step table i =
      { registers := s.registers.setFirst 0
          (if f.signature.retSize = 0 then [0]
            else (List.range f.signature.retWords).map (Word.ofBlock block))
        context := c : MachineState }.next := by
  have call : s.step table i = callExternal table s i.imm := by simp only [step, op]
  rw [call, callExternal, found]
  dsimp only
  rw [done]

theorem imm_of_id {id : UInt16} {imm : Int32} (number : (id.toNat : Int) = imm.toInt) (n : UInt16) :
    imm = Int32.ofNat n.toNat ↔ id = n := by
  rw [← Int32.toInt_inj, Table.toInt_ofNat_id, ← number, ← UInt16.toNat_inj]
  omega

theorem exchanges_nothing (silent : sent? i s = none) (deaf : heard? i s = none)
    (same : (s.step .standard i).1.context.station = s.context.station) :
    Exchanges s.context.station (s.step .standard i).1.context.station (sent? i s).toList
      (heard? i s).toList := by
  rw [silent, deaf, same]
  exact .refl _

theorem exchanges_refused (refused : accepted i s = false)
    (same : (s.step .standard i).1.context = s.context) :
    Exchanges s.context.station (s.step .standard i).1.context.station (sent? i s).toList
      (heard? i s).toList :=
  exchanges_nothing (by simp [sent?, refused]) (by simp [heard?, refused])
    (congrArg Context.station same)

section

variable {f : External} {block : List UInt8} {c : Context} (op : i.op = .ext)
  (found : Table.standard.find? i.imm = some f)
  (done : f.body (s.registers.arguments f.signature.argWords) f.signature.retSize.toNat s.context =
    .ok block c)
include op found done

omit op in
theorem accepted_of_ok : accepted i s = true := by
  simp only [accepted, found, done]

theorem context_of_ok : (s.step .standard i).1.context = c := by
  rw [step_accepted op found done]
  rfl

theorem exchanges_sent (sends : f = External.transmit ∨ f = External.transmitBeam) :
    Exchanges s.context.station (s.step .standard i).1.context.station (sent? i s).toList
      (heard? i s).toList := by
  have accepted := accepted_of_ok found done
  have number := number_of_find? found
  have imm : i.imm = 18 ∨ i.imm = 19 := by
    rcases sends with rfl | rfl
    · exact .inl ((imm_of_id number 18).mpr rfl)
    · exact .inr ((imm_of_id number 19).mpr rfl)
  have deaf : heard? i s = none := by
    refine if_neg fun hears => ?_
    rcases imm with imm | imm <;> simp [imm] at hears
  obtain ⟨t, owner, posted⟩ := External.transmits sends done
  have last : c.queues.outbound.items = s.context.queues.outbound.items ++ [t] :=
    congrArg Station.outbox posted
  have sent : sent? i s = some t := by
    rw [sent?, if_pos ⟨op, imm, accepted⟩, context_of_ok op found done, last]
    exact List.getLast?_concat
  rw [deaf, sent, context_of_ok op found done, posted]
  refine ⟨rfl, rfl, rfl, fun t' member => ?_⟩
  obtain rfl := List.mem_singleton.mp member
  exact owner

theorem exchanges_heard (hears : f = External.receive) :
    Exchanges s.context.station (s.step .standard i).1.context.station (sent? i s).toList
      (heard? i s).toList := by
  have accepted := accepted_of_ok found done
  have number := number_of_find? found
  subst hears
  have imm : i.imm = 20 := (imm_of_id number 20).mpr rfl
  have silent : sent? i s = none := by
    refine if_neg fun sends => ?_
    simp [imm] at sends
  have heard : heard? i s = s.context.queues.inbound.items.head? := if_pos ⟨op, imm, accepted⟩
  rcases External.receive_ok done with ⟨none, same⟩ | ⟨m, front, _, _, same⟩
  · exact exchanges_nothing silent (by rw [heard, none]; rfl)
      (congrArg Context.station ((context_of_ok op found done).trans same))
  · rw [silent, heard, front, context_of_ok op found done, same]
    refine ⟨rfl, ?_, (List.append_nil _).symm, nofun⟩
    exact (List.cons_head?_tail front).symm

end

/-- What an instruction sends and hears is all that it does to the radio. -/
theorem step_exchanges (i : Instruction) (s : MachineState) :
    Exchanges s.context.station (s.step .standard i).1.context.station (sent? i s).toList
      (heard? i s).toList := by
  by_cases op : i.op = .ext
  · cases found : Table.standard.find? i.imm with
    | none =>
      refine exchanges_refused (by simp only [accepted, found]) ?_
      have call : s.step .standard i = callExternal .standard s i.imm := by simp only [step, op]
      rw [call, callExternal, found]
      rfl
    | some f =>
      have member : f ∈ Table.standard.functions := List.mem_of_find?_eq_some found
      cases done : f.body (s.registers.arguments f.signature.argWords) f.signature.retSize.toNat
          s.context with
      | error e c =>
        refine exchanges_refused (by simp only [accepted, found, done]) ?_
        rw [step_refused ⟨op, found, done⟩]
        exact External.atomic_standard f member _ _ _ _ _ done
      | ok block c =>
        rcases standard_cases member with ⟨quiet, other⟩ | transmit | transmitBeam | receive
        · have number := number_of_find? found
          have differs : i.imm ≠ 18 ∧ i.imm ≠ 19 ∧ i.imm ≠ 20 := by
            simp only [isOther, Bool.and_eq_true, bne_iff_ne, ne_eq] at other
            exact ⟨mt (imm_of_id number 18).mp other.1.1, mt (imm_of_id number 19).mp other.1.2,
              mt (imm_of_id number 20).mp other.2⟩
          have same := quiet s.context.station (s.registers.arguments f.signature.argWords)
            f.signature.retSize.toNat s.context rfl
          rw [done] at same
          refine exchanges_nothing (by simp [sent?, differs]) (by simp [heard?, differs]) ?_
          rw [context_of_ok op found done]
          exact same
        · exact exchanges_sent op found done (.inl transmit)
        · exact exchanges_sent op found done (.inr transmitBeam)
        · exact exchanges_heard op found done receive
  · exact exchanges_nothing (by simp [sent?, op]) (by simp [heard?, op]) (station_step op)

theorem ofBlock_arguments (r : Registers) (n : Nat) :
    Word.ofBlock (r.arguments (n + 1)) 0 = r.get 1 := by
  have long : 1 < r.general.toList.length := by simp
  have first : r.get 1 = r.general.toList[1] := by
    rw [Vector.getElem_toList]
    exact dif_pos (by decide)
  unfold Registers.arguments
  rw [List.drop_eq_getElem_cons long, List.take_succ_cons, List.flatMap_cons, Word.ofBlock_toBytes, first]

theorem eq_receive_of_imm {f : External} (found : Table.standard.find? i.imm = some f)
    (imm : i.imm = 20) : f = External.receive := by
  have number := number_of_find? found
  have id : f.signature.id = 20 := (imm_of_id number 20).mp imm
  rcases standard_cases (List.mem_of_find?_eq_some found) with ⟨_, other⟩ | rfl | rfl | receive
  · simp [isOther, id] at other
  · cases id
  · cases id
  · exact receive

/-- A message is taken from the inbound queue only when the program has got all of it. -/
theorem handedOver_of_heard? {m : Transmission} (heard : heard? i s = some m) :
    HandedOver s (s.step .standard i).1 m := by
  unfold heard? at heard
  split at heard
  · rename_i conditions
    obtain ⟨op, imm, accepted⟩ := conditions
    unfold MachineState.accepted at accepted
    cases found : Table.standard.find? i.imm with
    | none => simp [found] at accepted
    | some f =>
      obtain rfl := eq_receive_of_imm found imm
      cases done : External.receive.body
          (s.registers.arguments External.receive.signature.argWords)
          External.receive.signature.retSize.toNat s.context with
      | error e c => simp [found, done] at accepted
      | ok block c =>
        rcases External.receive_ok done with ⟨none, _⟩ | ⟨m', front, inside, block', same⟩
        · simp [none] at heard
        · obtain rfl := Option.some.inj (front.symm.trans heard)
          have address : Word.ofBlock (s.registers.arguments External.receive.signature.argWords) 0 =
            s.registers.get 1 := ofBlock_arguments s.registers 1
          rw [address] at inside same
          refine ⟨inside, ?_, ?_⟩
          · rw [context_of_ok op found done, same]
            have kept : (s.context.memory.setBytes (s.registers.get 1).toNat
                ([] ++ (m'.payload ++ []))).bytesAt ((s.registers.get 1).toNat + 0)
                m'.payload.length = m'.payload :=
              s.context.memory.bytesAt_setBytes _ inside
            rw [List.append_nil] at kept
            exact kept
          · rw [step_accepted op found done, block']
            refine Eq.trans ?_ (Word.ofBlock_toBytes (UInt32.ofNat m'.payload.length) [])
            exact get_setFirst s.registers _ 0
  · cases heard

end MachineState

/-! ### A whole slice -/

/-- What a program sends and hears. -/
structure Talk where
  sent : List Transmission := []
  heard : List Transmission := []

namespace Slice

variable (code : Bytecode)

/-- What a program sends and hears in a slice with a budget. -/
def talk (code : Bytecode) : Nat → MachineState → Talk
  | 0, _ => {}
  | budget + 1, s =>
    match code.fetch s.registers.pc with
    | some (.ok i) =>
      let rest := if (s.step .standard i).2 = .advanced then talk code budget (s.step .standard i).1 else {}
      ⟨(s.sent? i).toList ++ rest.sent, (s.heard? i).toList ++ rest.heard⟩
    | _ => {}

theorem run_exchanges (budget : Nat) (slice : Slice) :
    Exchanges slice.state.context.station (run code .standard budget slice).1.state.context.station
      (talk code budget slice.state).sent (talk code budget slice.state).heard := by
  induction budget generalizing slice with
  | zero => exact .refl _
  | succ budget ih =>
    rw [run_succ, talk]
    unfold advance
    cases fetched : code.fetch slice.state.registers.pc with
    | none => exact .refl _
    | some read =>
      cases read with
      | error e => exact .refl _
      | ok i =>
        have first := MachineState.step_exchanges i slice.state
        dsimp only
        cases event : (slice.state.step .standard i).2 with
        | advanced =>
          rw [if_pos rfl]
          exact first.trans (ih (note (slice.state.step .standard i).1 slice.executed slice.trace
            slice.state.registers.pc i))
        | yielded =>
          rw [if_neg nofun]
          exact first.trans (.refl _)
        | trapped t =>
          rw [if_neg nofun]
          exact first.trans (.refl _)

end Slice

end RobotArena
