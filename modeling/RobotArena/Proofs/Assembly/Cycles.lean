import RobotArena.Proofs.Assembly.Visits

/-!
# Cycles of includes

A file that includes itself, directly or through others, is reported where it is named while it is
still open. The main statement is that a compile reports a cycle exactly if there is one, though
each file is read only once.
-/

namespace RobotArena.Assembly

open Expansion Relation

/-! ### Reports of cycles -/

theorem getLast?_append {a b : String} (filled : b ≠ "") :
    (a ++ b).toList.getLast? = b.toList.getLast? := by
  rw [String.toList_append, List.getLast?_append_of_ne_nil _ (by simpa using filled)]

theorem getLast?_toString_nat (n : Nat) :
    toString n ≠ "" ∧ (toString n).toList.getLast? ≠ some '"' := by
  rw [Nat.toString_eq_ofList_toDigits, String.toList_ofList]
  refine ⟨by simp, fun last => ?_⟩
  have digit := Nat.isDigit_of_mem_toDigits (by decide) (by decide) (List.mem_of_getLast? last)
  exact absurd digit (by decide)

/-- Among the words for faults only those for a cycle end with a quote. -/
theorem Fault.getLast?_message (fault : Fault) :
    fault.message.toList.getLast? = some '"' ↔ ∃ path, fault = .includeCycle path := by
  unfold message
  cases fault with
  | operandCount op expected found =>
    obtain ⟨filled, last⟩ := getLast?_toString_nat found
    dsimp only
    rw [getLast?_append filled]
    exact iff_of_false last (by simp)
  | includeForm | constantForm | stringForm | heapExhausted => simp
  | _ =>
    dsimp only
    rw [getLast?_append (by simp [toString])]
    simp [toString]

theorem getLast?_prefixed (file message : String) :
    (s!"{file}: {message}").toList.getLast? = some '"' ↔ message.toList.getLast? = some '"' := by
  by_cases filled : message = ""
  · subst filled
    simp [toString]
  · exact iff_of_eq (congrArg (· = some '"') (getLast?_append filled))

/-- Whether a diagnostic says that files include each other in a cycle. -/
def ReportsCycle (d : Diagnostic) : Prop :=
  ∃ path, d.message = (Fault.includeCycle path).message ∨
    ∃ file : String, d.message = s!"{file}: {(Fault.includeCycle path).message}"

theorem ReportsCycle.getLast? {d : Diagnostic} (reports : ReportsCycle d) :
    d.message.toList.getLast? = some '"' := by
  obtain ⟨path, own | ⟨file, included⟩⟩ := reports
  · exact own ▸ (Fault.getLast?_message _).mpr ⟨path, rfl⟩
  · exact included ▸ (getLast?_prefixed file _).mpr ((Fault.getLast?_message _).mpr ⟨path, rfl⟩)

theorem reportsCycle_diagnose {files : Array String} {line : Line} {fault : Fault} :
    ReportsCycle (line.diagnose files fault) ↔ ∃ path, fault = .includeCycle path := by
  constructor
  · intro reports
    have last := reports.getLast?
    unfold Line.diagnose at last
    dsimp only at last
    split at last
    · exact (Fault.getLast?_message fault).mp last
    · exact (Fault.getLast?_message fault).mp ((getLast?_prefixed _ _).mp last)
  · rintro ⟨path, rfl⟩
    unfold Line.diagnose
    refine ⟨path, ?_⟩
    dsimp only
    split
    · exact .inl rfl
    · exact .inr ⟨_, rfl⟩

/-! ### Later passes report no cycles -/

/-- Diagnostics among which the same cycles are reported. -/
def SameReports (before after : Array Diagnostic) : Prop :=
  ∀ d, ReportsCycle d → (d ∈ after ↔ d ∈ before)

namespace SameReports

variable {before between after : Array Diagnostic}

theorem refl (diagnostics : Array Diagnostic) : SameReports diagnostics diagnostics :=
  fun _ _ => .rfl

theorem trans (one : SameReports before between) (two : SameReports between after) :
    SameReports before after :=
  fun d reports => (two d reports).trans (one d reports)

theorem push (diagnostics : Array Diagnostic) (files : Array String) (line : Line) {fault : Fault}
    (other : ∀ path, fault ≠ .includeCycle path) :
    SameReports diagnostics (diagnostics.push (line.diagnose files fault)) := by
  intro d reports
  rw [Array.mem_push]
  refine or_iff_left fun same => ?_
  obtain ⟨path, cycle⟩ := reportsCycle_diagnose.mp (same ▸ reports)
  exact other path cycle

end SameReports

theorem foldlM_error {α β ε : Type} {f : β → α → Except ε β} {P : ε → Prop}
    (step : ∀ b a e, f b a = .error e → P e) {xs : List α} {b : β} {e : ε}
    (failed : xs.foldlM f b = .error e) : P e := by
  induction xs generalizing b with
  | nil => cases failed
  | cons x rest ih =>
    rw [List.foldlM_cons] at failed
    cases first : f b x with
    | error e' =>
      rw [first] at failed
      cases failed
      exact step b x e first
    | ok b' =>
      rw [first] at failed
      exact ih failed

namespace Scope

variable {scope : Scope} {token code : List Char} {fault : Fault}

theorem register_error (failed : register token = .error fault) :
    ∀ path, fault ≠ .includeCycle path := by
  unfold register at failed
  split at failed <;> cases failed
  exact nofun

theorem immediate_error (failed : scope.immediate token = .error fault) :
    ∀ path, fault ≠ .includeCycle path := by
  unfold immediate at failed
  split at failed
  · split at failed <;> cases failed
    exact nofun
  · split at failed
    · cases failed
    · split at failed <;> cases failed
      exact nofun

theorem function_error (failed : scope.function token = .error fault) :
    ∀ path, fault ≠ .includeCycle path := by
  unfold function at failed
  split at failed
  · split at failed <;> cases failed
    exact nofun
  · split at failed <;> cases failed
    exact nofun

theorem map_eq_error {ε α β : Type} {x : Except ε α} {f : α → β} {e : ε}
    (failed : f <$> x = .error e) : x = .error e := by
  cases x with
  | error e' =>
    cases failed
    rfl
  | ok a => cases failed

theorem fill_error {i : Instruction} {x : Operand × List Char}
    (failed : scope.fill i x = .error fault) : ∀ path, fault ≠ .includeCycle path := by
  obtain ⟨operand, token⟩ := x
  cases operand <;> simp only [fill, bind_pure_comp] at failed <;>
    have read := map_eq_error failed
  case a | b | c => exact register_error read
  case immediate => exact immediate_error read
  case function => exact function_error read

theorem instruction_error (failed : scope.instruction code = .error fault) :
    ∀ path, fault ≠ .includeCycle path := by
  unfold instruction at failed
  dsimp only at failed
  split at failed
  · cases failed
    exact nofun
  · split at failed
    · exact foldlM_error (fun _ _ _ => fill_error) failed
    · cases failed
      exact nofun

end Scope

namespace Survey

variable (s : Survey) (line : Line)

theorem sameReports_reject {fault : Fault} (other : ∀ path, fault ≠ .includeCycle path) :
    SameReports s.diagnostics (s.reject line fault).diagnostics :=
  .push _ _ _ other

theorem sameReports_define (name : List Char) (symbol : Symbol) :
    SameReports s.diagnostics (s.define line name symbol).diagnostics := by
  unfold define
  split
  · exact .refl _
  · rename_i fault failed
    refine s.sameReports_reject line ?_
    unfold Symbols.define at failed
    dsimp only at failed
    split at failed
    · cases failed
      exact nofun
    · split at failed <;> cases failed
      exact nofun

theorem sameReports_addConstant (rest : List Char) :
    SameReports s.diagnostics (s.addConstant line rest).diagnostics := by
  unfold addConstant
  split
  · split
    · exact s.sameReports_define line _ _
    · rename_i failed
      exact s.sameReports_reject line (Scope.immediate_error failed)
  · exact s.sameReports_reject line nofun

theorem sameReports_addString (rest : List Char) :
    SameReports s.diagnostics (s.addString line rest).diagnostics := by
  unfold addString
  dsimp only
  split
  · split
    · exact s.sameReports_reject line nofun
    · split
      · exact s.sameReports_reject line nofun
      · exact s.sameReports_define line _ _
  · exact s.sameReports_reject line nofun

theorem sameReports_addCode (code : List Char) :
    SameReports s.diagnostics (s.addCode line code).diagnostics := by
  unfold addCode
  split
  · exact .refl _
  · split
    · exact s.sameReports_addConstant line _
    · split
      · exact s.sameReports_addString line _
      · split
        · exact s.sameReports_reject line nofun
        · exact .refl _

theorem sameReports_addLine : SameReports s.diagnostics (s.addLine line).diagnostics := by
  unfold addLine
  split
  · exact (s.sameReports_define line _ _).trans (sameReports_addCode _ line _)
  · exact s.sameReports_addCode line _

theorem sameReports_foldl (lines : List Line) :
    SameReports s.diagnostics (lines.foldl addLine s).diagnostics := by
  induction lines generalizing s with
  | nil => exact .refl _
  | cons line rest ih => exact (s.sameReports_addLine line).trans (ih _)

end Survey

theorem sameReports_foldl_addSlot (files : Array String) (scope : Scope) (slots : List Slot)
    (out : Assembled) : SameReports out.diagnostics
      (slots.foldl (Assembled.addSlot files scope) out).diagnostics := by
  induction slots generalizing out with
  | nil => exact .refl _
  | cons slot rest ih =>
    refine SameReports.trans ?_ (ih _)
    unfold Assembled.addSlot
    split
    · exact .refl _
    · rename_i failed
      exact .push _ _ _ (Scope.instruction_error failed)

/-- The program for an expansion reports the cycles that the expansion reports. -/
theorem reports_assemble (externals : List Signature) (e : Expansion) {d : Diagnostic}
    (reports : ReportsCycle d) :
    d ∈ (Survey.ofExpansion externals e).assemble.diagnostics ↔ d ∈ e.diagnostics := by
  have warning : d ≠ emptyProgram := by
    rintro rfl
    have last := reports.getLast?
    simp [emptyProgram] at last
  have surveyed : SameReports e.diagnostics (Survey.ofExpansion externals e).diagnostics := by
    unfold Survey.ofExpansion
    rw [← Array.foldl_toList]
    exact Survey.sameReports_foldl _ _
  have silent :
      d ∉ (if (Survey.ofExpansion externals e).slots.isEmpty then [emptyProgram] else []) := by
    split
    · simpa using warning
    · exact List.not_mem_nil
  unfold Survey.assemble Survey.encode
  dsimp only
  rw [List.mem_append, or_iff_left silent, ← Array.foldl_toList, Array.mem_toList_iff]
  exact (surveyed.trans (sameReports_foldl_addSlot _ _ _ _)) d reports

/-! ### Cycles are found -/

/-- What a compile has to say, unless it is incomplete. -/
def Outcome.diagnostics : Outcome → List Diagnostic
  | .compiled program => program.diagnostics
  | .incomplete => []
  | .failed diagnostics => diagnostics

theorem diagnostics_ofExpansion (externals : List Signature) {e : Expansion}
    (complete : e.missing = false) :
    (Outcome.ofExpansion externals e).diagnostics =
      (Survey.ofExpansion externals e).assemble.diagnostics := by
  unfold Outcome.ofExpansion
  rw [complete, if_neg Bool.false_ne_true]
  dsimp only
  split <;> rfl

theorem failed_of_error {externals : List Signature} {e : Expansion} (complete : e.missing = false)
    {d : Diagnostic} (member : d ∈ (Outcome.ofExpansion externals e).diagnostics)
    (error : d.isError = true) :
    ∃ diagnostics, Outcome.ofExpansion externals e = .failed diagnostics := by
  unfold Outcome.ofExpansion at member ⊢
  rw [complete, if_neg Bool.false_ne_true] at member ⊢
  dsimp only at member ⊢
  split at member
  · rename_i bad
    exact ⟨_, if_pos bad⟩
  · rename_i clean
    exact absurd (List.any_eq_true.mpr ⟨d, member, error⟩) clean

section Cycles

variable {texts : Texts} {root : String} {text : List UInt8}

/-- If all files that are included are at hand, each file that can be reached from the root is read
once, in a search in depth, and gives its code once. A line of it reports a cycle exactly if it
includes a file that is open by then, which is one of those that lead from the root to its own, and
so a cycle is reported, and the compile fails, exactly if there is one. -/
theorem include_cycles_are_reported (externals : List Signature) (atHand : AtHand texts root text) :
    ∃ visits, Visited texts root text visits ∧
      (∀ other, Visited texts root text other → other = visits) ∧
      (visits.map Visit.path).Nodup ∧
      (∀ path, path ∈ visits.map Visit.path ↔
        ReflTransGen (Includes texts root text) root path) ∧
      (∀ v ∈ visits, Around texts root text (v.path :: v.outside)) ∧
      (expand texts root text).files.toList = visits.map Visit.path ∧
      (expand texts root text).lines.toList.Perm
        (((readsOf visits 0).map Prod.fst).filter fun line => request line.text = .code) ∧
      (∀ d, ReportsCycle d → (d ∈ (compile externals texts root text).diagnostics ↔
        ∃ x ∈ readsOf visits 0, ∃ path ∈ x.2, request x.1.text = .file path ∧
          d = x.1.diagnose (expand texts root text).files (.includeCycle path))) ∧
      ((∃ d ∈ (compile externals texts root text).diagnostics, ReportsCycle d) ↔
        ¬ NoCycle texts root text) ∧
      (¬ NoCycle texts root text →
        ∃ diagnostics, compile externals texts root text = .failed diagnostics) := by
  have complete := complete_of_atHand atHand
  obtain ⟨visits, visited, named, files, lines, diagnostics⟩ := visited_expand complete
  have reports : ∀ d, ReportsCycle d → (d ∈ (compile externals texts root text).diagnostics ↔
      ∃ x ∈ readsOf visits 0, ∃ path ∈ x.2, request x.1.text = .file path ∧
        d = x.1.diagnose (expand texts root text).files (.includeCycle path)) := by
    intro d report
    unfold compile
    rw [diagnostics_ofExpansion externals complete, reports_assemble externals _ report,
      ← Array.mem_toList_iff, diagnostics.mem_iff, List.mem_filterMap]
    constructor
    · rintro ⟨x, known, told⟩
      obtain ⟨fault, wrong, rfl⟩ := Option.map_eq_some_iff.mp told
      obtain ⟨path, rfl⟩ := reportsCycle_diagnose.mp report
      obtain ⟨opened, asks⟩ := lineFault_cycle.mp wrong
      exact ⟨x, known, path, opened, asks, rfl⟩
    · rintro ⟨x, known, path, opened, asks, rfl⟩
      exact ⟨x, known, by rw [lineFault_cycle.mpr ⟨opened, asks⟩]; rfl⟩
  have iff : (∃ d ∈ (compile externals texts root text).diagnostics, ReportsCycle d) ↔
      ¬ NoCycle texts root text := by
    rw [visited.cycle_iff]
    constructor
    · rintro ⟨d, member, report⟩
      obtain ⟨x, known, path, opened, asks, _⟩ := (reports d report).mp member
      exact ⟨x, known, path, opened, asks⟩
    · rintro ⟨x, known, path, opened, asks⟩
      have report : ReportsCycle
          (x.1.diagnose (expand texts root text).files (.includeCycle path)) :=
        reportsCycle_diagnose.mpr ⟨path, rfl⟩
      exact ⟨_, (reports _ report).mpr ⟨x, known, path, opened, asks, rfl⟩, report⟩
  refine ⟨visits, visited, fun _ other => visited.unique other, ?_, fun path => ?_,
    fun v member => (visited.around v member).1, files, lines, reports, iff, fun cycle => ?_⟩
  · exact named ▸ nodup_named texts root text
  · rw [← named, mem_named_expand]
  · obtain ⟨d, member, report⟩ := iff.mpr cycle
    obtain ⟨x, _, path, _, _, rfl⟩ := (reports d report).mp member
    exact failed_of_error complete member rfl

end Cycles

/-- A file that two others include, one of which includes the root again. -/
def loopingFiles : Texts :=
  [("walk.asm", Text.toBytes ".include \"size.asm\"\nwalk: nop\n"),
    ("turn.asm", Text.toBytes ".include \"size.asm\"\n.include \"main.asm\"\n"),
    ("size.asm", Text.toBytes ".equ STEP 4\n")]

/-- The root. -/
def loopingText : List UInt8 :=
  Text.toBytes ".include \"walk.asm\"\n.include \"turn.asm\"\njmp walk\n"

theorem include_of_the_root_is_reported :
    AtHand loopingFiles "main.asm" loopingText ∧ ¬ NoCycle loopingFiles "main.asm" loopingText ∧
      ∃ visits, Visited loopingFiles "main.asm" loopingText visits ∧
        visits.map Visit.path = ["main.asm", "walk.asm", "size.asm", "turn.asm"] ∧
        ∃ diagnostics, compile [] loopingFiles "main.asm" loopingText = .failed diagnostics := by
  have atHand : AtHand loopingFiles "main.asm" loopingText := .of_files (by decide +kernel)
  have there : Includes loopingFiles "main.asm" loopingText "main.asm" "turn.asm" := by
    rw [includes_iff]
    decide +kernel
  have back : Includes loopingFiles "main.asm" loopingText "turn.asm" "main.asm" := by
    rw [includes_iff]
    decide +kernel
  have cycle : ¬ NoCycle loopingFiles "main.asm" loopingText :=
    fun noCycle => noCycle "main.asm" .refl (.tail (.single there) back)
  have order : (expand loopingFiles "main.asm" loopingText).files.toList =
      ["main.asm", "walk.asm", "size.asm", "turn.asm"] := by
    decide +kernel
  obtain ⟨visits, visited, _, _, _, _, files, _, _, _, failed⟩ :=
    include_cycles_are_reported [] atHand
  exact ⟨atHand, cycle, visits, visited, files ▸ order, failed cycle⟩

end RobotArena.Assembly
