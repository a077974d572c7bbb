import RobotArena.Proofs.Assembly.Strings
import RobotArena.Proofs.Assembly.Textual
import RobotArena.Proofs.Machine.Slices
import RobotArena.Proofs.Memory.Blocks

/-!
# Running a prologue

The instructions of a prologue put the words of the strings into memory one after another. The main
statement is what a slice does that executes just a prologue.
-/

namespace RobotArena.Assembly

/-! ### Words to store -/

theorem dataWords_bytes (bytes : List UInt8) :
    (dataWords bytes).flatMap Word.toBytes = padded bytes := by
  fun_induction dataWords bytes with
  | case1 => rfl
  | case2 a => simp [Word.toBytes_ofBytes, padded, Survey.wholeWords]
  | case3 a b => simp [Word.toBytes_ofBytes, padded, Survey.wholeWords]
  | case4 a b c => simp [Word.toBytes_ofBytes, padded, Survey.wholeWords]
  | case5 a b c d rest ih =>
    have fill : Survey.wholeWords (rest.length + 4) - (rest.length + 4) =
        Survey.wholeWords rest.length - rest.length := by
      unfold Survey.wholeWords
      omega
    rw [List.flatMap_cons, ih, Word.toBytes_ofBytes]
    simp [padded, fill]

theorem length_flatMap_toBytes (words : List UInt32) :
    (words.flatMap Word.toBytes).length = 4 * words.length := by
  induction words with
  | nil => rfl
  | cons w rest ih =>
    rw [List.flatMap_cons, List.length_append, ih, Word.length_toBytes, List.length_cons]
    omega

/-- Stores words one behind the other. -/
def storeWords : Nat → List UInt32 → List Instruction
  | _, [] => []
  | address, w :: rest => storeWord address w ++ storeWords (address + 4) rest

theorem storeWords_append (address : Nat) (front back : List UInt32) :
    storeWords address (front ++ back) =
      storeWords address front ++ storeWords (address + 4 * front.length) back := by
  induction front generalizing address with
  | nil => rfl
  | cons w front ih =>
    rw [List.cons_append, storeWords, ih, storeWords, List.append_assoc, List.length_cons]
    congr 3
    omega

theorem length_storeWords (address : Nat) (words : List UInt32) :
    (storeWords address words).length = 2 * words.length := by
  induction words generalizing address with
  | nil => rfl
  | cons w rest ih =>
    rw [storeWords, List.length_append, ih, List.length_cons]
    simp only [storeWord, List.length_cons, List.length_nil]
    omega

theorem storeAt_eq (place : Nat × List UInt8) :
    storeAt place = storeWords place.1 (dataWords place.2) := by
  have from_ : ∀ (words : List UInt32) (k : Nat),
      (words.zipIdx k).flatMap (fun x => storeWord (place.1 + 4 * x.2) x.1) =
        storeWords (place.1 + 4 * k) words := by
    intro words
    induction words with
    | nil => intro k; rfl
    | cons w rest ih =>
      intro k
      rw [List.zipIdx_cons, List.flatMap_cons, ih, storeWords]
      rfl
  exact from_ (dataWords place.2) 0

/-- The words of some strings. -/
def stringWords (strings : List StringData) : List UInt32 :=
  strings.flatMap fun data => dataWords data.bytes

theorem flatMap_storeAt {strings : List StringData} {address : Nat}
    (blocks : strings.map StringData.block = layOut address (contents strings)) :
    (strings.map StringData.place).flatMap storeAt = storeWords address (stringWords strings) := by
  induction strings generalizing address with
  | nil => rfl
  | cons data rest ih =>
    obtain ⟨head, tail⟩ := List.cons.inj blocks
    have start : data.address = address := congrArg Prod.fst head
    have length : (padded data.bytes).length = 4 * (dataWords data.bytes).length := by
      rw [← dataWords_bytes, length_flatMap_toBytes]
    rw [length] at tail
    have words : stringWords (data :: rest) = dataWords data.bytes ++ stringWords rest :=
      List.flatMap_cons
    rw [List.map_cons, List.flatMap_cons, ih tail, storeAt_eq, words, storeWords_append,
      StringData.place, start]

/-! ### Running them -/

/-- Instructions stand in a program from a place on. -/
def StandsAt (code : Bytecode) (n : Nat) (is : List Instruction) : Prop :=
  ∀ k i, is[k]? = some i → code.fetch (UInt32.ofNat (n + k)) = some (.ok i)

theorem StandsAt.left {code : Bytecode} {n : Nat} {front back : List Instruction}
    (h : StandsAt code n (front ++ back)) : StandsAt code n front := by
  intro k i found
  have inside : k < front.length := (List.getElem?_eq_some_iff.mp found).1
  exact h k i ((List.getElem?_append_left inside).trans found)

theorem StandsAt.right {code : Bytecode} {n : Nat} {front back : List Instruction}
    (h : StandsAt code n (front ++ back)) : StandsAt code (n + front.length) back := by
  intro k i found
  have there := h (front.length + k) i (by
    rw [List.getElem?_append_right (Nat.le_add_right _ _), Nat.add_sub_cancel_left, found])
  rwa [← Nat.add_assoc] at there

/-- A program in its prologue: all registers are zero but for the one that holds the last word. -/
def storing (context : Context) (n : Nat) (w : UInt32) (m : Memory) : MachineState where
  registers := ({ pc := UInt32.ofNat n } : Registers).set valueRegister w
  context := { context with memory := m }

section Storing

variable (table : Table) (context : Context) (n : Nat) (v w : UInt32) (m : Memory)

theorem step_li :
    (storing context n v m).step table { op := .li, a := valueRegister, imm := w.toInt32 } =
      (storing context (n + 1) w m, .advanced) := by
  have next : UInt32.ofNat n + 1 = UInt32.ofNat (n + 1) := (UInt32.ofNat_add n 1).symm
  unfold storing
  simp only [MachineState.step, MachineState.put, MachineState.next, MachineState.goto,
    Registers.set, UInt32.toUInt32_toInt32, next, Vector.setIfInBounds_setIfInBounds]

theorem step_st {address : Nat} (room : address + 4 ≤ Layout.stackBase) :
    (storing context n w m).step table
        { op := .st, a := valueRegister, b := baseRegister, imm := Int32.ofNat address } =
      (storing context (n + 1) w (m.setBytes address (Word.toBytes w)), .advanced) := by
  have small : address + 4 ≤ 8192 := room
  have next : UInt32.ofNat n + 1 = UInt32.ofNat (n + 1) := (UInt32.ofNat_add n 1).symm
  have base : (storing context n w m).registers.get baseRegister = 0 := by
    simp [storing, Registers.get, Registers.set, baseRegister, valueRegister]
  have value : (storing context n w m).registers.get valueRegister = w := by
    simp [storing, Registers.get, Registers.set, valueRegister]
  have place : (UInt32.ofNat address).toNat = address := by
    rw [UInt32.toNat_ofNat']
    exact Nat.mod_eq_of_lt (by omega)
  have inRange : Memory.InRange (UInt32.ofNat address) 4 := by
    show (UInt32.ofNat address).toNat + 4 ≤ 16384
    omega
  simp only [MachineState.step, MachineState.store, MachineState.address, base, value,
    UInt32.zero_add, Int32.toUInt32_ofNat', if_pos inRange, MachineState.setBytes, place]
  simp only [storing, MachineState.next, MachineState.goto, Registers.set, next]

variable {code : Bytecode}

theorem run_advanced {s : Slice} {state : MachineState} {i : Instruction}
    (fetched : code.fetch s.state.registers.pc = some (.ok i))
    (stepped : s.state.step table i = (state, .advanced)) (budget : Nat) :
    ∃ trace, Slice.run code table (budget + 1) s =
      Slice.run code table budget { state, executed := s.executed + 1, trace } := by
  refine ⟨s.trace.map (·.record ⟨s.state.registers.pc, i, state.registers.general⟩), ?_⟩
  rw [Slice.run_succ, Slice.advance, fetched]
  dsimp only
  rw [stepped]
  rfl

/-- Words that are stored one behind the other come to one block of bytes. -/
theorem run_storeWords {words : List UInt32} {address : Nat}
    (stands : StandsAt code n (storeWords address words))
    (room : address + 4 * words.length ≤ Layout.stackBase) (budget executed : Nat)
    (trace : Option Trace) :
    ∃ last trace', Slice.run code table (budget + 2 * words.length)
        { state := storing context n v m, executed, trace } =
      Slice.run code table budget
        { state := storing context (n + 2 * words.length) last
            (m.setBytes address (words.flatMap Word.toBytes))
          executed := executed + 2 * words.length
          trace := trace' } := by
  induction words generalizing n v m address executed trace with
  | nil => exact ⟨v, trace, rfl⟩
  | cons w rest ih =>
    rw [List.length_cons] at room
    -- Two instructions for each word: one loads it, the other stores it.
    obtain ⟨first, loaded⟩ := run_advanced table (s := ⟨storing context n v m, executed, trace⟩)
      (stands.left 0 _ rfl) (step_li table context n v w m) (budget + 2 * rest.length + 1)
    obtain ⟨second, stored⟩ := run_advanced table
      (s := ⟨storing context (n + 1) w m, executed + 1, first⟩)
      (stands.left 1 _ rfl) (step_st table context (n + 1) w m (by omega)) (budget + 2 * rest.length)
    obtain ⟨last, trace', run⟩ := ih (n + 1 + 1) w (m.setBytes address (Word.toBytes w))
      (stands.right) (by omega) (executed + 1 + 1) second
    refine ⟨last, trace', ?_⟩
    have count : budget + 2 * (rest.length + 1) = budget + 2 * rest.length + 1 + 1 := by omega
    have place : n + 2 * (rest.length + 1) = n + 1 + 1 + 2 * rest.length := by omega
    have total : executed + 2 * (rest.length + 1) = executed + 1 + 1 + 2 * rest.length := by omega
    rw [List.length_cons, count, place, total, loaded, stored, run, List.flatMap_cons,
      Memory.setBytes_append, Word.length_toBytes]

theorem storing_zero : storing context n 0 m =
    { registers := { pc := UInt32.ofNat n }, context := { context with memory := m } } := by
  unfold storing Registers.set
  rw [Vector.setIfInBounds_replicate_self]

end Storing

/-! ### A whole prologue -/

theorem stringWords_bytes (strings : List StringData) :
    (stringWords strings).flatMap Word.toBytes = (contents strings).flatten := by
  rw [stringWords, List.flatMap_assoc, contents, ← List.flatMap_def]
  simp only [dataWords_bytes]

theorem prologue_length_eq_zero (strings : List StringData) :
    (prologue strings).length = 0 ↔ strings = [] := by
  cases strings with
  | nil => exact ⟨fun _ => rfl, fun _ => rfl⟩
  | cons first rest => simp [prologue]

namespace Survey

variable {s : Survey}

/-- The prologue of a survey. -/
abbrev prologueOf (s : Survey) : List Instruction :=
  prologueCode (s.strings.toList.map StringData.place)

theorem Packed.length_words (h : s.Packed) : 4 * (stringWords s.strings.toList).length ≤ 8192 := by
  have room : s.cursor ≤ 8192 := h.room
  rw [h.cursor, ← stringWords_bytes, length_flatMap_toBytes] at room
  exact Nat.le_trans (Nat.le_add_left _ _) room

theorem Packed.prologueOf_eq (h : s.Packed) (filled : s.strings.toList ≠ []) :
    s.prologueOf = storeWords Layout.heapBase (stringWords s.strings.toList) ++
      [{ op := .li, a := valueRegister }] := by
  rw [← flatMap_storeAt h.blocks]
  unfold prologueOf
  cases strings : s.strings.toList with
  | nil => exact absurd strings filled
  | cons first rest => rfl

theorem Packed.length_prologueOf (h : s.Packed) : s.prologueOf.length ≤ 4097 := by
  have few := h.length_words
  by_cases empty : s.strings.toList = []
  · rw [prologueOf, empty]
    decide
  · rw [h.prologueOf_eq empty, List.length_append, length_storeWords]
    simp only [List.length_cons, List.length_nil]
    omega

theorem Packed.length_prologue (h : s.Packed) :
    (prologue s.strings.toList).length ≤ 4097 := by
  have short := h.length_prologueOf
  rwa [prologueOf, ← prologue_map_fst, List.length_map] at short

/-- A slice for just the prologue leaves all registers zero and the strings in memory. -/
theorem Packed.run (h : s.Packed) {code : Bytecode} (stands : StandsAt code 0 s.prologueOf)
    (table : Table) (context : Context) (trace : Option Trace) :
    ∃ trace', Slice.run code table s.prologueOf.length
        { state := { registers := {}, context }, trace } =
      ({ state :=
          { registers := { pc := UInt32.ofNat s.prologueOf.length }
            context :=
              { context with
                memory := context.memory.setBytes Layout.heapBase
                  (contents s.strings.toList).flatten } }
         executed := s.prologueOf.length
         trace := trace' }, .exhausted) := by
  by_cases empty : s.strings.toList = []
  · rw [prologueOf, empty]
    exact ⟨trace, rfl⟩
  · have few := h.length_words
    rw [h.prologueOf_eq empty] at stands ⊢
    rw [← stringWords_bytes]
    generalize stringWords s.strings.toList = ws at *
    obtain ⟨last, stored, run⟩ := run_storeWords table context 0 0 context.memory stands.left
      (by simp only [Layout.heapBase, Layout.stackBase]; omega) 1 0 trace
    have clear := stands.right 0 _ rfl
    rw [length_storeWords] at clear
    obtain ⟨trace', cleared⟩ := run_advanced table
      (s := { state := storing context (0 + 2 * ws.length) last
                (context.memory.setBytes Layout.heapBase (ws.flatMap Word.toBytes))
              executed := 0 + 2 * ws.length
              trace := stored })
      clear (step_li table context _ last 0 _) 0
    have length : (storeWords Layout.heapBase ws ++
        [({ op := .li, a := valueRegister } : Instruction)]).length = 2 * ws.length + 1 := by
      rw [List.length_append, length_storeWords]
      rfl
    have whole := run.trans cleared
    rw [Nat.add_comm 1, storing_zero, storing_zero, Nat.zero_add] at whole
    refine ⟨trace', ?_⟩
    rw [length]
    exact whole

/-! ### Strings of a program -/

theorem Packed.aligned (h : s.Packed) : ∀ block ∈ layOut Layout.heapBase (contents s.strings.toList),
    4 ∣ block.1 ∧ block.1 + block.2.length ≤ Layout.stackBase := by
  have words : ∀ bytes ∈ contents s.strings.toList, 4 ∣ bytes.length := by
    intro bytes member
    obtain ⟨data, _, rfl⟩ := List.mem_map.mp member
    rw [length_padded]
    exact Nat.dvd_mul_left 4 _
  intro block member
  have inside := (le_of_mem_layOut member).2
  rw [← h.cursor] at inside
  exact ⟨dvd_of_mem_layOut words (Nat.dvd_zero 4) block member, Nat.le_trans inside h.room⟩

theorem Packed.room_memory (h : s.Packed) :
    Layout.heapBase + (contents s.strings.toList).flatten.length ≤ Memory.size := by
  have room : s.cursor ≤ 8192 := h.room
  rw [← h.cursor, Memory.size]
  omega

theorem Assembles.standsAt {p : Program} {user : List Instruction} (h : s.Assembles p user)
    (packed : s.Packed) : StandsAt p.code 0 s.prologueOf := by
  intro k i found
  have inside := (List.getElem?_eq_some_iff.mp found).1
  have short := packed.length_prologueOf
  have place : (UInt32.ofNat (0 + k)).toNat = k := by
    rw [Nat.zero_add, UInt32.toNat_ofNat']
    exact Nat.mod_eq_of_lt (by omega)
  rw [h.fetch, place, prologue_map_fst, List.getElem?_append_left inside, found]
  rfl

end Survey

/-- What the first pass finds in a text with all its includes. -/
abbrev survey (externals : List Signature) (texts : Texts) (root : String) (text : List UInt8) :
    Survey :=
  .ofExpansion externals (expand texts root text)

/-- If every line of an accepted text that defines a string spells its text in quotes, then a slice
of the program for just the prologue, from fresh registers and with any memory, ends because its
budget is used up, at the first instruction of the text and with all other registers as they were.
In memory each text stands at what its name means, with a final zero and filled up to whole words;
these places do not overlap, and every other byte is as it was. -/
theorem strings_reach_memory {externals : List Signature} {texts : Texts} {root : String}
    {text : List UInt8} {p : Program} (compiled : compile externals texts root text = .compiled p) :
    ∃ flat, Flattened texts root text flat ∧
      (∀ other, Flattened texts root text other → other = flat) ∧
      ∀ strings : List (List Char × List Char),
        List.Forall₂ (fun raw x => Declares raw x.1 x.2) (flat.filter holdsString) strings →
        ∃ (start : UInt32) (blocks : List (Nat × List UInt8)),
          p.code.length = start.toNat + (survey externals texts root text).slots.size ∧
          (∀ (k : Nat) (slot : Slot) (pc : UInt32),
            (survey externals texts root text).slots[k]? = some slot → pc.toNat = start.toNat + k →
              ∃ i, (survey externals texts root text).finalScope.instruction slot.code = .ok i ∧
                p.code.fetch pc = some (.ok i)) ∧
          List.Forall₂ (fun x block =>
            (survey externals texts root text).finalScope.immediate x.1 =
                .ok (Int32.ofNat block.1) ∧
              block.2 = padded (terminated x.2)) strings blocks ∧
          (∀ block ∈ blocks, 4 ∣ block.1 ∧ block.1 + block.2.length ≤ Layout.stackBase) ∧
          (blocks.Pairwise fun x y => x.1 + x.2.length ≤ y.1 ∨ y.1 + y.2.length ≤ x.1) ∧
          ∀ (table : Table) (context : Context) (trace : Option Trace),
            ∃ (memory : Memory) (trace' : Option Trace),
              Slice.run p.code table start.toNat { state := { registers := {}, context }, trace } =
                ({ state := { registers := { pc := start }, context := { context with memory } }
                   executed := start.toNat
                   trace := trace' }, .exhausted) ∧
              (∀ block ∈ blocks, memory.bytesAt block.1 block.2.length = block.2) ∧
              ∀ i, (∀ block ∈ blocks, i < block.1 ∨ block.1 + block.2.length ≤ i) →
                memory.byte i = context.memory.byte i := by
  obtain ⟨complete, user, assembles⟩ := assembles_of_compiled compiled
  have clean : faulty (expand texts root text).diagnostics = false := by
    have sound := assembles.sound
    unfold Survey.ofExpansion at sound
    rw [← Array.foldl_toList] at sound
    exact Survey.clean_of_foldl sound
  obtain ⟨flat, flattened, gains⟩ := accepted_takes complete clean
  refine ⟨flat, flattened, fun other h => ?_, fun strings declared => ?_⟩
  · obtain ⟨_, h⟩ := h
    obtain ⟨_, flattened⟩ := flattened
    exact (h.unique flattened).1
  have holds : (survey externals texts root text).Holds strings :=
    Survey.holds_ofExpansion declared gains.lines assembles.sound
  have packed := holds.packed
  have short := packed.length_prologueOf
  have whole : (UInt32.ofNat (survey externals texts root text).prologueOf.length).toNat =
      (survey externals texts root text).prologueOf.length := by
    rw [UInt32.toNat_ofNat']
    exact Nat.mod_eq_of_lt (by omega)
  have count : (prologue (survey externals texts root text).strings.toList).length =
      (UInt32.ofNat (survey externals texts root text).prologueOf.length).toNat := by
    rw [whole, Survey.prologueOf, ← prologue_map_fst, List.length_map]
  refine ⟨UInt32.ofNat (survey externals texts root text).prologueOf.length,
    (survey externals texts root text).strings.toList.map StringData.block,
    count ▸ assembles.length, ?_, ?_, ?_, ?_, ?_⟩
  · intro k slot pc found here
    exact assembles.fetch_slot found (count ▸ here)
  · refine List.forall₂_map_right_iff.mpr (holds.known.imp fun x data known => ?_)
    exact ⟨immediate_name known.named known.known, by rw [StringData.block, known.bytes]⟩
  · rw [packed.blocks]
    exact packed.aligned
  · rw [packed.blocks]
    exact layOut_disjoint.imp .inl
  · intro table context trace
    obtain ⟨trace', run⟩ := packed.run (assembles.standsAt packed) table context trace
    obtain ⟨stored, kept⟩ := context.memory.setBytes_layOut Layout.heapBase packed.room_memory
    rw [whole, packed.blocks]
    exact ⟨_, trace', run, stored, kept⟩

/-- Two strings with characters that mean something elsewhere, and a label and comments around. -/
def stringsText : List UInt8 :=
  Text.toBytes (".string greeting \"a;b: \\\"c\\\"\" ; first\n" ++
    "here: .string  empty \"\"\nli r1, greeting\nli r2, empty\n")

theorem greeting_reaches_memory :
    ∃ p, compile [] [] "main.asm" stringsText = .compiled p ∧
      ∃ (start : UInt32) (first second : Nat),
        (survey [] [] "main.asm" stringsText).finalScope.immediate "greeting".toList =
          .ok (Int32.ofNat first) ∧
        (survey [] [] "main.asm" stringsText).finalScope.immediate "empty".toList =
          .ok (Int32.ofNat second) ∧
        ∀ table context trace, ∃ memory trace',
          Slice.run p.code table start.toNat { state := { registers := {}, context }, trace } =
            ({ state := { registers := { pc := start }, context := { context with memory } }
               executed := start.toNat
               trace := trace' }, .exhausted) ∧
          memory.bytesAt first 12 = Text.toBytes "a;b: \"c\"" ++ [0, 0, 0, 0] ∧
          memory.bytesAt second 4 = [0, 0, 0, 0] := by
  have accepted : (compile [] [] "main.asm" stringsText).code?.isSome = true := by decide +kernel
  obtain ⟨p, compiled⟩ := Outcome.compiled_of_code? accepted
  obtain ⟨flat, _, unique, all⟩ := strings_reach_memory compiled
  have own : ∀ raw ∈ fileLines stringsText, includedPath? raw = none := by decide +kernel
  cases unique _ ⟨_, .of_own own⟩
  have blank : Blanks [' '] := by decide
  have first : Declares ([] ++ definition [' '] "greeting".toList [' '] "a;b: \"c\"".toList ++
      ([' '] ++ ';' :: " first".toList)) "greeting".toList "a;b: \"c\"".toList :=
    .intro (.blank noBlanks) blank (by decide) blank (by decide) (.comment blank _)
  have second : Declares ([] ++ ("here".toList ++ [] ++ ':' :: [' ']) ++
      definition [' ', ' '] "empty".toList [' '] [] ++ []) "empty".toList [] :=
    .intro (.label noBlanks (by decide) noBlanks blank) (by decide) (by decide) blank (by decide)
      (.blank noBlanks)
  have lines : (fileLines stringsText).filter holdsString =
      [[] ++ definition [' '] "greeting".toList [' '] "a;b: \"c\"".toList ++
        ([' '] ++ ';' :: " first".toList),
      [] ++ ("here".toList ++ [] ++ ':' :: [' ']) ++
        definition [' ', ' '] "empty".toList [' '] [] ++ []] := by
    decide +kernel
  obtain ⟨start, blocks, _, _, named, _, _, run⟩ :=
    all [("greeting".toList, "a;b: \"c\"".toList), ("empty".toList, [])]
      (lines ▸ .cons first (.cons second .nil))
  cases named with
  | @cons _ one _ _ greeting named =>
    cases named with
    | @cons _ two _ _ empty named =>
      cases named
      refine ⟨p, compiled, start, one.1, two.1, greeting.1, empty.1, fun table context trace => ?_⟩
      obtain ⟨memory, trace', ran, stored, _⟩ := run table context trace
      have atOne := stored one List.mem_cons_self
      have atTwo := stored two (List.mem_cons_of_mem _ List.mem_cons_self)
      rw [greeting.2] at atOne
      rw [empty.2] at atTwo
      exact ⟨memory, trace', ran, atOne, atTwo⟩

end RobotArena.Assembly
