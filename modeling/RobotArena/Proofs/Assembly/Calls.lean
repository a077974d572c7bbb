import RobotArena.Proofs.Assembly.Assembled
import RobotArena.Proofs.External.Table
import RobotArena.Proofs.Machine.Traps

/-!
# Programs and the functions they call

The assembler takes names from the signatures of a table, the processor looks functions up in the
table by number. The main statement is that they agree: every instruction of an accepted program can
be read, and only a call that is written with a number can fail to find its function.
-/

namespace RobotArena.Assembly

theorem prologue_op (strings : List StringData) :
    ∀ x ∈ prologue strings, x.1.op = .li ∨ x.1.op = .st := by
  intro x member
  cases strings with
  | nil => cases member
  | cons first rest =>
    rw [prologue, List.mem_append, List.mem_flatMap] at member
    rcases member with ⟨data, _, stored⟩ | last
    · obtain ⟨i, inData, rfl⟩ := List.mem_map.mp stored
      obtain ⟨_, _, inWord⟩ := List.mem_flatMap.mp inData
      simp only [storeWord, List.mem_cons, List.not_mem_nil, or_false] at inWord
      rcases inWord with rfl | rfl
      · exact .inl rfl
      · exact .inr rfl
    · cases List.mem_singleton.mp last
      exact .inl rfl

namespace Survey.Assembles

variable {s : Survey} {p : Program} {user : List Instruction}

theorem fetch_isSome (h : s.Assembles p user) {pc : UInt32} (inside : pc.toNat < p.code.length) :
    ∃ i, p.code.fetch pc = some (.ok i) := by
  have bound : pc.toNat < ((prologue s.strings.toList).map (·.1) ++ user).length := by
    rw [List.length_append, List.length_map, h.length_user, ← h.length]
    exact inside
  exact ⟨_, by rw [h.fetch, List.getElem?_eq_getElem bound]; rfl⟩

theorem fetch_ne_error (h : s.Assembles p user) {pc : UInt32} {e : CodeError} :
    p.code.fetch pc ≠ some (.error e) := by
  intro fetched
  rw [h.fetch] at fetched
  obtain ⟨_, _, same⟩ := Option.map_eq_some_iff.mp fetched
  cases same

theorem slot_of_call (h : s.Assembles p user) {pc : UInt32} {i : Instruction}
    (fetched : p.code.fetch pc = some (.ok i)) (call : i.op = .ext) :
    ∃ k slot token, s.slots[k]? = some slot ∧ pc.toNat = (prologue s.strings.toList).length + k ∧
      calledFunction? slot.code = some token ∧ s.finalScope.function token = .ok i.imm := by
  by_cases behind : (prologue s.strings.toList).length ≤ pc.toNat
  · obtain ⟨k, slot, found, here, read⟩ := h.slot_of_fetch fetched behind
    obtain ⟨token, called⟩ := (Scope.instruction_ext read).1 call
    exact ⟨k, slot, token, found, here, called, ((Scope.instruction_ext read).2 token called).2⟩
  · -- the prologue calls nothing
    rw [h.fetch, List.getElem?_append_left (by rw [List.length_map]; omega), List.getElem?_map,
      Option.map_map] at fetched
    obtain ⟨x, present, same⟩ := Option.map_eq_some_iff.mp fetched
    cases same
    rcases prologue_op _ x (List.mem_of_getElem? present) with op | op <;>
      exact absurd (op.symm.trans call) (by decide)

end Survey.Assembles

/-- Every instruction of an accepted program can be read. A call that is not written with a number
is one of the table's function of that name. So no run of the program, from whatever state, stops at
an illegal instruction, and it misses a function only where the call is written with a number. -/
theorem calls_find_their_functions (start : Table) (built : start = {} ∨ start = .standard)
    (functions : List External) (texts : Texts) (root : String) (text : List UInt8) (p : Program)
    (compiled : compile (start.addAll functions).signatures texts root text = .compiled p) :
    let table := start.addAll functions
    let slots := (Survey.ofExpansion table.signatures (expand texts root text)).slots
    ∃ first, p.code.length = first + slots.size ∧
      (∀ pc : UInt32, pc.toNat < p.code.length → ∃ i, p.code.fetch pc = some (.ok i)) ∧
      (∀ (k : Nat) (slot : Slot) (token : List Char) (pc : UInt32), slots[k]? = some slot →
        pc.toNat = first + k → calledFunction? slot.code = some token →
        readInteger? token = none →
        ∃ i f, p.code.fetch pc = some (.ok i) ∧ i.op = .ext ∧ table.find? i.imm = some f ∧
          f.signature.name = String.ofList token) ∧
      (∀ (other : Table) (budget : Nat) (s : Slice) (pc : UInt32) (e : CodeError),
        (Slice.run p.code other budget s).2 ≠ .stopped (.illegalInstruction pc e)) ∧
      ∀ (budget : Nat) (s : Slice) (pc : UInt32) (id : Int32),
        (Slice.run p.code table budget s).2 = .stopped (.undefinedExternal pc id) →
        ∃ (k : Nat) (slot : Slot) (token : List Char), slots[k]? = some slot ∧
          pc.toNat = first + k ∧ calledFunction? slot.code = some token ∧
          (readInteger? token).isSome := by
  intro table slots
  have distinct : table.Distinct := by
    rcases built with rfl | rfl
    · exact Table.distinct_empty.addAll functions
    · exact Table.distinct_standard.addAll functions
  obtain ⟨_, user, assembles⟩ := assembles_of_compiled compiled
  have externals := Survey.externals_ofExpansion table.signatures (expand texts root text)
  -- what a call by name is read as leads to the function
  have named : ∀ token v, readInteger? token = none →
      (Survey.ofExpansion table.signatures (expand texts root text)).finalScope.function token =
        .ok v →
      ∃ f, table.find? v = some f ∧ f.signature.name = String.ofList token := by
    intro token v byName read
    obtain ⟨signature, member, name, rfl⟩ := Scope.function_named byName read
    have known : signature ∈ table.signatures := by
      rw [← externals]
      exact member
    obtain ⟨f, found, same⟩ := distinct.find?_id known
    exact ⟨f, found, same ▸ name⟩
  refine ⟨_, assembles.length, fun pc inside => assembles.fetch_isSome inside, ?_, ?_, ?_⟩
  · intro k slot token pc found here called byName
    obtain ⟨i, read, fetched⟩ := assembles.fetch_slot found here
    obtain ⟨ext, meaning⟩ := (Scope.instruction_ext read).2 token called
    obtain ⟨f, known, name⟩ := named token i.imm byName meaning
    exact ⟨i, f, fetched, ext, known, name⟩
  · intro other budget s pc e stopped
    cases Slice.run_stopped stopped with
    | illegal _ _ fetched => exact assembles.fetch_ne_error fetched
    | executed _ _ _ _ stops => cases stops
  · intro budget s pc id stopped
    cases Slice.run_stopped stopped with
    | executed state i _ fetched stops =>
      cases stops with
      | undefined ext unknown =>
        obtain ⟨k, slot, token, found, here, called, meaning⟩ := assembles.slot_of_call fetched ext
        refine ⟨k, slot, token, found, here, called, ?_⟩
        cases number : readInteger? token with
        | some n => rfl
        | none =>
          obtain ⟨f, known, _⟩ := named token i.imm number meaning
          rw [unknown] at known
          cases known

/-- A text that calls a function by name, and one by a number that no function has. -/
def callingText : List UInt8 :=
  Text.toBytes "ext print\next 999\n"

/-- What it is compiled to. -/
def callingProgram : Program where
  code := .ofInstructions [{ op := .ext, imm := 16 }, { op := .ext, imm := 999 }]
  debug := ⟨["main.asm"], #[⟨0, 0⟩, ⟨0, 1⟩]⟩

theorem call_by_name_finds_print :
    compile (Table.standard.addAll []).signatures [] "main.asm" callingText =
        .compiled callingProgram ∧
      ∃ i f, callingProgram.code.fetch 0 = some (.ok i) ∧
        (Table.standard.addAll []).find? i.imm = some f ∧ f.signature.name = "print" := by
  have compiled : compile (Table.standard.addAll []).signatures [] "main.asm" callingText =
      .compiled callingProgram := by
    decide +kernel
  obtain ⟨first, length, _, byName, _⟩ :=
    calls_find_their_functions .standard (.inr rfl) [] [] "main.asm" callingText callingProgram
      compiled
  have two : callingProgram.code.length = 2 := by decide +kernel
  have slots : (Survey.ofExpansion (Table.standard.addAll []).signatures
      (expand [] "main.asm" callingText)).slots =
      #[⟨⟨0, 0, 0, "ext print".toList⟩, "ext print".toList⟩,
        ⟨⟨0, 1, 0, "ext 999".toList⟩, "ext 999".toList⟩] := by
    decide +kernel
  rw [two, slots] at length
  have start : first = 0 := by
    simp only [List.size_toArray, List.length_cons, List.length_nil] at length
    omega
  obtain ⟨i, f, fetched, _, found, name⟩ := byName 0 _ "print".toList 0 (by rw [slots]; rfl)
    (by rw [start]; rfl) (by decide +kernel) (by decide +kernel)
  exact ⟨compiled, i, f, fetched, found, name⟩

end RobotArena.Assembly
