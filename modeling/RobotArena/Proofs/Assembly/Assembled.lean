import RobotArena.Assembly.Basic
import RobotArena.Proofs.Assembly.Operands

/-!
# What an accepted program consists of

The first pass only adds names, slots and strings and notes faults. The main statement is that the
program of a text that is accepted is the prologue, followed by one instruction for each slot.
-/

namespace RobotArena.Assembly

/-! ### Faults are noted for good -/

/-- Whether a fault was noted. -/
def faulty (diagnostics : Array Diagnostic) : Bool :=
  diagnostics.any (·.isError)

@[simp] theorem isError_diagnose (files : Array String) (line : Line) (fault : Fault) :
    (line.diagnose files fault).isError = true := rfl

@[simp] theorem faulty_push (diagnostics : Array Diagnostic) (d : Diagnostic) :
    faulty (diagnostics.push d) = (faulty diagnostics || d.isError) := by
  simp [faulty]

theorem Symbols.define_eq_ok {symbols symbols' : Symbols} {name : List Char} {symbol : Symbol}
    (h : symbols.define name symbol = .ok symbols') :
    isName name = true ∧ symbols.lookup (String.ofList name) = none ∧
      symbols' = (String.ofList name, symbol) :: symbols := by
  unfold define at h
  dsimp only at h
  split at h
  · cases h
  · split at h
    · cases h
    · rename_i named new
      cases h
      exact ⟨by simpa using named, Option.not_isSome_iff_eq_none.mp new, rfl⟩

namespace Survey

variable (s : Survey) (line : Line)

@[simp] theorem faulty_reject (fault : Fault) : faulty (s.reject line fault).diagnostics = true := by
  simp [reject]

/-! ### What the first pass keeps -/

/-- A survey that goes on from another one: the texts and functions around it are the same, and no
fault and no name is forgotten. -/
structure Extends (s t : Survey) : Prop where
  files : t.files = s.files
  externals : t.externals = s.externals
  faults : faulty s.diagnostics = true → faulty t.diagnostics = true
  symbols : ∀ {key symbol}, s.symbols.lookup key = some symbol → t.symbols.lookup key = some symbol

theorem Extends.refl : Extends s s := ⟨rfl, rfl, id, id⟩

theorem Extends.trans {s t u : Survey} (first : Extends s t) (second : Extends t u) : Extends s u :=
  ⟨second.files.trans first.files, second.externals.trans first.externals,
    second.faults ∘ first.faults, second.symbols ∘ first.symbols⟩

theorem extends_reject (fault : Fault) : Extends s (s.reject line fault) :=
  ⟨rfl, rfl, fun _ => faulty_reject s line fault, id⟩

theorem extends_define (name : List Char) (symbol : Symbol) :
    Extends s (s.define line name symbol) := by
  unfold define
  split
  · rename_i defined
    obtain ⟨_, new, rfl⟩ := Symbols.define_eq_ok defined
    refine ⟨rfl, rfl, id, fun {key _} known => ?_⟩
    have other : key ≠ String.ofList name := fun same => by rw [same, new] at known; cases known
    rw [List.lookup_cons, beq_false_of_ne other]
    exact known
  · exact s.extends_reject line _

theorem extends_addConstant (rest : List Char) : Extends s (s.addConstant line rest) := by
  unfold addConstant
  split
  · split
    · exact s.extends_define line _ _
    · exact s.extends_reject line _
  · exact s.extends_reject line _

theorem extends_addString (rest : List Char) : Extends s (s.addString line rest) := by
  unfold addString
  dsimp only
  split
  · split
    · exact s.extends_reject line _
    · split
      · exact s.extends_reject line _
      · have defined := s.extends_define line (Text.cutAtBlank (Text.trimStart rest)).1
          (.value (Int32.ofNat s.cursor))
        exact ⟨defined.files, defined.externals, defined.faults, defined.symbols⟩
  · exact s.extends_reject line _

theorem extends_addCode (code : List Char) : Extends s (s.addCode line code) := by
  unfold addCode
  split
  · exact .refl s
  · split
    · exact s.extends_addConstant line _
    · split
      · exact s.extends_addString line _
      · split
        · exact s.extends_reject line _
        · exact ⟨rfl, rfl, id, id⟩

theorem extends_addLine : Extends s (s.addLine line) := by
  unfold addLine
  split
  · exact (s.extends_define line _ _).trans (extends_addCode _ line _)
  · exact s.extends_addCode line _

theorem extends_foldl (lines : List Line) : Extends s (lines.foldl addLine s) := by
  induction lines generalizing s with
  | nil => exact .refl s
  | cons line rest ih => exact (s.extends_addLine line).trans (ih _)

theorem externals_ofExpansion (externals : List Signature) (e : Expansion) :
    (ofExpansion externals e).externals = externals := by
  unfold ofExpansion
  rw [← Array.foldl_toList]
  exact (extends_foldl _ _).externals

/-! ### The second pass -/

/-- What the operands of a program are read against: all names, and the length of the prologue. -/
def finalScope : Scope :=
  ⟨s.symbols, s.externals, (prologue s.strings.toList).length⟩

end Survey

/-- The instructions that some slots are read as, with their origins. -/
def Scope.listed (scope : Scope) (slots : List Slot) : List (Instruction × Origin) :=
  slots.filterMap fun slot => (scope.instruction slot.code).toOption.map (·, slot.line.origin)

theorem foldl_addSlot (files : Array String) (scope : Scope) (slots : List Slot) (out : Assembled) :
    (slots.foldl (Assembled.addSlot files scope) out).instructions.toList =
        out.instructions.toList ++ scope.listed slots ∧
      faulty (slots.foldl (Assembled.addSlot files scope) out).diagnostics =
        (faulty out.diagnostics ||
          slots.any fun slot => !(scope.instruction slot.code).toBool) := by
  induction slots generalizing out with
  | nil => simp [Scope.listed]
  | cons slot rest ih =>
    rw [List.foldl_cons]
    obtain ⟨code, faults⟩ := ih (out.addSlot files scope slot)
    rw [code, faults]
    unfold Assembled.addSlot
    cases read : scope.instruction slot.code with
    | ok i => simp [Scope.listed, read, Except.toOption, Except.toBool]
    | error fault => simp [Scope.listed, read, Except.toOption, Except.toBool]

namespace Survey

variable (s : Survey)

/-- All instructions of a survey with their origins. -/
def listing : List (Instruction × Origin) :=
  prologue s.strings.toList ++ s.finalScope.listed s.slots.toList

/-- The tables of instructions and of origins go side by side. -/
theorem assemble_listing :
    s.assemble.code = .ofInstructions (s.listing.map (·.1)) ∧
      s.assemble.debug = ⟨s.files.toList, (s.listing.map (·.2)).toArray⟩ := by
  have all : s.encode.instructions.toList = s.listing := by
    unfold encode listing finalScope
    dsimp only
    rw [← Array.foldl_toList, List.size_toArray, (foldl_addSlot _ _ _ _).1]
  unfold assemble
  dsimp only
  rw [all]
  exact ⟨rfl, rfl⟩

theorem assemble_code :
    s.assemble.code = .ofInstructions ((prologue s.strings.toList).map (·.1) ++
      s.slots.toList.filterMap fun slot => (s.finalScope.instruction slot.code).toOption) := by
  rw [s.assemble_listing.1, listing, List.map_append, Scope.listed, List.map_filterMap]
  simp only [Option.map_map, Function.comp_def, Option.map_id']

theorem assemble_faulty :
    s.assemble.diagnostics.any (·.isError) =
      (faulty s.diagnostics ||
        s.slots.toList.any fun slot => !(s.finalScope.instruction slot.code).toBool) := by
  have warning : (if s.slots.isEmpty then [emptyProgram] else []).any (·.isError) = false := by
    split <;> rfl
  unfold assemble encode finalScope
  dsimp only
  rw [List.any_append, warning, Bool.or_false, ← Array.foldl_toList, List.size_toArray,
    Array.any_toList]
  exact (foldl_addSlot _ _ _ _).2

/-- A program that consists of the prologue of a survey and one instruction for each slot. -/
structure Assembles (p : Program) (user : List Instruction) : Prop where
  sound : faulty s.diagnostics = false
  read : s.slots.toList.map (fun slot => s.finalScope.instruction slot.code) = user.map .ok
  code : p.code = .ofInstructions ((prologue s.strings.toList).map (·.1) ++ user)

end Survey

theorem map_eq_map_ok {α β ε : Type} {f : α → Except ε β} {xs : List α}
    (all : xs.any (fun x => !(f x).toBool) = false) :
    xs.map f = (xs.filterMap fun x => (f x).toOption).map .ok := by
  induction xs with
  | nil => rfl
  | cons x rest ih =>
    rw [List.any_cons, Bool.or_eq_false_iff] at all
    cases read : f x with
    | error e => simp [read, Except.toBool] at all
    | ok y => rw [List.map_cons, List.filterMap_cons, read, ih all.2]; rfl

/-- A compile ends with a program exactly if no file is missing and no fault was noted. -/
theorem compiled_iff {externals : List Signature} {e : Expansion} {p : Program} :
    Outcome.ofExpansion externals e = .compiled p ↔ e.missing = false ∧
      (Survey.ofExpansion externals e).assemble.diagnostics.any (·.isError) = false ∧
      p = (Survey.ofExpansion externals e).assemble := by
  unfold Outcome.ofExpansion
  cases e.missing with
  | true => exact ⟨nofun, fun ended => absurd ended.1 (by decide)⟩
  | false =>
    rw [if_neg Bool.false_ne_true]
    dsimp only
    cases bad : (Survey.ofExpansion externals e).assemble.diagnostics.any (·.isError) with
    | true => exact ⟨nofun, fun ended => absurd ended.2.1 (by decide)⟩
    | false =>
      rw [if_neg Bool.false_ne_true]
      exact ⟨fun same => ⟨rfl, rfl, (Outcome.compiled.inj same).symm⟩, fun ended => by rw [ended.2.2]⟩

theorem assembles_of_compiled {externals : List Signature} {e : Expansion} {p : Program}
    (compiled : Outcome.ofExpansion externals e = .compiled p) :
    e.missing = false ∧ ∃ user, (Survey.ofExpansion externals e).Assembles p user := by
  obtain ⟨complete, clean, rfl⟩ := compiled_iff.mp compiled
  rw [Survey.assemble_faulty, Bool.or_eq_false_iff] at clean
  exact ⟨complete, _, clean.1, map_eq_map_ok clean.2, Survey.assemble_code _⟩

theorem filterMap_of_map_ok {α β ε : Type} {f : α → Except ε β} {xs : List α} {ys : List β}
    (read : xs.map f = ys.map .ok) :
    xs.any (fun x => !(f x).toBool) = false ∧ xs.filterMap (fun x => (f x).toOption) = ys := by
  induction xs generalizing ys with
  | nil =>
    cases List.map_eq_nil_iff.mp read.symm
    exact ⟨rfl, rfl⟩
  | cons x rest ih =>
    obtain ⟨y, later, rfl, here, others⟩ := List.map_eq_cons_iff.mp read.symm
    obtain ⟨none, all⟩ := ih others.symm
    rw [List.any_cons, List.filterMap_cons, ← here, none, all]
    exact ⟨rfl, rfl⟩

/-- A program comes out if the passes find no fault. -/
theorem compiled_of_read {externals : List Signature} {e : Expansion} {user : List Instruction}
    (complete : e.missing = false)
    (sound : faulty (Survey.ofExpansion externals e).diagnostics = false)
    (read : (Survey.ofExpansion externals e).slots.toList.map (fun slot =>
      (Survey.ofExpansion externals e).finalScope.instruction slot.code) = user.map .ok) :
    ∃ p, Outcome.ofExpansion externals e = .compiled p ∧
      (Survey.ofExpansion externals e).Assembles p user := by
  obtain ⟨none, all⟩ := filterMap_of_map_ok read
  refine ⟨_, compiled_iff.mpr ⟨complete, ?_, rfl⟩, sound, read, ?_⟩
  · rw [Survey.assemble_faulty, sound, none]
    rfl
  · rw [Survey.assemble_code, all]

/-! ### The prologue -/

/-- Where a string goes and its bytes. -/
def StringData.place (data : StringData) : Nat × List UInt8 :=
  (data.address, data.bytes)

/-- The instructions that store bytes at an address. -/
def storeAt (place : Nat × List UInt8) : List Instruction :=
  (dataWords place.2).zipIdx.flatMap fun x => storeWord (place.1 + 4 * x.2) x.1

/-- The prologue without the origins of its instructions. -/
def prologueCode : List (Nat × List UInt8) → List Instruction
  | [] => []
  | first :: rest => (first :: rest).flatMap storeAt ++ [{ op := .li, a := valueRegister }]

theorem prologue_map_fst (strings : List StringData) :
    (prologue strings).map (·.1) = prologueCode (strings.map StringData.place) := by
  cases strings with
  | nil => rfl
  | cons first rest =>
    have each : ∀ data : StringData,
        (data.store.map (·, data.origin)).map (·.1) = storeAt data.place := by
      intro data
      rw [List.map_map]
      exact List.map_id _
    simp only [prologue, List.map_append, List.map_flatMap, each, List.map_cons, prologueCode,
      List.flatMap_cons, List.flatMap_map, List.map_nil]

/-! ### Where the instructions stand -/

theorem valid_of_registers {op : Opcode} {a b : UInt8} {imm : Int32} (ha : a.toNat < registerCount)
    (hb : b.toNat < registerCount) : ({ op, a, b, imm } : Instruction).Valid :=
  ⟨ha, hb, by show (0 : UInt8).toNat < 16; decide⟩

theorem storeWord_valid (address : Nat) (w : UInt32) : ∀ i ∈ storeWord address w, i.Valid := by
  intro i member
  simp only [storeWord, List.mem_cons, List.not_mem_nil, or_false] at member
  rcases member with rfl | rfl
  · exact valid_of_registers (by decide) (by decide)
  · exact valid_of_registers (by decide) (by decide)

theorem prologue_valid (strings : List StringData) : ∀ x ∈ prologue strings, x.1.Valid := by
  intro x member
  cases strings with
  | nil => cases member
  | cons first rest =>
    rw [prologue, List.mem_append, List.mem_flatMap] at member
    rcases member with ⟨data, _, stored⟩ | last
    · obtain ⟨i, inData, rfl⟩ := List.mem_map.mp stored
      obtain ⟨_, _, inWord⟩ := List.mem_flatMap.mp inData
      exact storeWord_valid _ _ i inWord
    · cases List.mem_singleton.mp last
      exact valid_of_registers (by decide) (by decide)

namespace Survey.Assembles

variable {s : Survey} {p : Program} {user : List Instruction}

theorem valid (h : s.Assembles p user) :
    ∀ i ∈ (prologue s.strings.toList).map (·.1) ++ user, i.Valid := by
  intro i member
  rcases List.mem_append.mp member with start | own
  · obtain ⟨x, inPrologue, rfl⟩ := List.mem_map.mp start
    exact prologue_valid _ x inPrologue
  · have read : (.ok i : Except Fault Instruction) ∈ user.map .ok := List.mem_map_of_mem own
    rw [← h.read] at read
    obtain ⟨slot, _, read⟩ := List.mem_map.mp read
    exact (Scope.instruction_eq_ok read).2.1

theorem length_user (h : s.Assembles p user) : user.length = s.slots.size := by
  have same := congrArg List.length h.read
  rw [List.length_map, List.length_map, Array.length_toList] at same
  exact same.symm

theorem fetch (h : s.Assembles p user) (pc : UInt32) :
    p.code.fetch pc = ((prologue s.strings.toList).map (·.1) ++ user)[pc.toNat]?.map .ok := by
  rw [h.code, Bytecode.fetch_ofInstructions _ h.valid]

theorem length (h : s.Assembles p user) :
    p.code.length = (prologue s.strings.toList).length + s.slots.size := by
  rw [h.code, Bytecode.length_ofInstructions, List.length_append, List.length_map, h.length_user]

/-- The instruction of a slot stands behind the prologue at the slot's own number. -/
theorem fetch_slot (h : s.Assembles p user) {k : Nat} {slot : Slot} (found : s.slots[k]? = some slot)
    {pc : UInt32} (here : pc.toNat = (prologue s.strings.toList).length + k) :
    ∃ i, s.finalScope.instruction slot.code = .ok i ∧ p.code.fetch pc = some (.ok i) := by
  have read := congrArg (·[k]?) h.read
  simp only [List.getElem?_map, Array.getElem?_toList, found, Option.map_some] at read
  obtain ⟨i, present, same⟩ := Option.map_eq_some_iff.mp read.symm
  refine ⟨i, same.symm, ?_⟩
  rw [h.fetch, here, List.getElem?_append_right (by rw [List.length_map]; omega), List.length_map,
    Nat.add_sub_cancel_left, present]
  rfl

theorem slot_of_fetch (h : s.Assembles p user) {pc : UInt32} {i : Instruction}
    (fetched : p.code.fetch pc = some (.ok i))
    (behind : (prologue s.strings.toList).length ≤ pc.toNat) :
    ∃ k slot, s.slots[k]? = some slot ∧ pc.toNat = (prologue s.strings.toList).length + k ∧
      s.finalScope.instruction slot.code = .ok i := by
  rw [h.fetch, List.getElem?_append_right (by rw [List.length_map]; exact behind),
    List.length_map] at fetched
  obtain ⟨j, present, same⟩ := Option.map_eq_some_iff.mp fetched
  cases same
  have read := congrArg (·[pc.toNat - (prologue s.strings.toList).length]?) h.read
  simp only [List.getElem?_map, Array.getElem?_toList, present, Option.map_some] at read
  obtain ⟨slot, found, read⟩ := Option.map_eq_some_iff.mp read
  exact ⟨_, slot, found, by omega, read⟩

end Survey.Assembles

end RobotArena.Assembly
