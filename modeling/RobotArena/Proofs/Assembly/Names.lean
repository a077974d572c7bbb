import RobotArena.Assembly.Symbol

/-!
# Names

A name is made of letters that mean nothing else in a line, and it is never read as a number. The
main statement is that it is read as what it stands for.
-/

namespace RobotArena.Assembly

/-! ### The characters of a name -/

section Names

variable {name : List Char}

theorem isNameRest_of_isName (named : isName name = true) : ∀ c ∈ name, isNameRest c = true := by
  cases name with
  | nil => exact nofun
  | cons c rest =>
    simp only [isName, Bool.and_eq_true, List.all_eq_true] at named
    intro d member
    rcases List.mem_cons.mp member with rfl | later
    · have start := named.1
      simp only [isNameStart, isNameRest, Char.isAlphanum, Bool.or_eq_true] at start ⊢
      exact start.imp_left .inl
    · exact named.2 d later

theorem bounds_of_isAlpha {c : Char} (letter : c.isAlpha = true) : 65 ≤ c.toNat ∧ c.toNat ≤ 122 := by
  have cases : c.isUpper = true ∨ c.isLower = true := by
    rw [← Bool.or_eq_true]
    exact letter
  rcases cases with upper | lower
  · have bounds : 'A'.val ≤ c.val ∧ c.val ≤ 'Z'.val := of_decide_eq_true upper
    have low : 65 ≤ c.toNat := bounds.1
    have high : c.toNat ≤ 90 := bounds.2
    omega
  · have bounds : decide ('a'.val ≤ c.val) = true ∧ decide (c.val ≤ 'z'.val) = true := by
      rw [← Bool.and_eq_true]
      exact lower
    have low : 97 ≤ c.toNat := of_decide_eq_true bounds.1
    have high : c.toNat ≤ 122 := of_decide_eq_true bounds.2
    omega

theorem bounds_of_isDigit {c : Char} (digit : c.isDigit = true) : 48 ≤ c.toNat ∧ c.toNat ≤ 57 := by
  have bounds : decide ('0'.val ≤ c.val) = true ∧ decide (c.val ≤ '9'.val) = true := by
    rw [← Bool.and_eq_true]
    exact digit
  exact ⟨of_decide_eq_true bounds.1, of_decide_eq_true bounds.2⟩

/-- A character that has no meaning of its own in a line. -/
structure Letter (c : Char) : Prop where
  sharp : Text.isBlank c = false
  semicolon : c ≠ ';'
  quote : c ≠ '"'
  colon : c ≠ ':'
  point : c ≠ '.'

theorem letter_of_isNameRest {c : Char} (part : isNameRest c = true) : Letter c := by
  have low : 48 ≤ c.toNat ∧ c.toNat ≤ 122 ∧ c.toNat ≠ 58 ∧ c.toNat ≠ 59 := by
    simp only [isNameRest, Char.isAlphanum, Bool.or_eq_true, beq_iff_eq] at part
    rcases part with (letter | digit) | rfl
    · have bounds := bounds_of_isAlpha letter
      omega
    · have bounds := bounds_of_isDigit digit
      omega
    · decide
  obtain ⟨low, high, colon, semi⟩ := low
  refine ⟨?_, ?_, ?_, ?_, ?_⟩
  · simp only [Text.isBlank, Bool.or_eq_false_iff, Bool.and_eq_false_iff, decide_eq_false_iff_not,
      beq_eq_false_iff_ne]
    omega
  all_goals
    rintro rfl
    revert low high colon semi
    decide

theorem letter_of_isName (named : isName name = true) : ∀ c ∈ name, Letter c :=
  fun c member => letter_of_isNameRest (isNameRest_of_isName named c member)

theorem sharp_of_isName (named : isName name = true) : ∀ c ∈ name, Text.isBlank c = false :=
  fun c member => (letter_of_isName named c member).sharp

theorem sharp_head (named : isName name = true) (rest : List Char) :
    ∀ c, (name ++ rest).head? = some c → Text.isBlank c = false := by
  intro c first
  cases name with
  | nil => cases named
  | cons d more =>
    cases first
    exact sharp_of_isName named c List.mem_cons_self

/-! ### Names as operands -/

theorem isNameStart_facts {c : Char} (start : isNameStart c = true) :
    Text.isDigit c = false ∧ c ≠ '-' ∧ c ≠ '.' ∧ c ≠ '0' := by
  have high : 65 ≤ c.toNat := by
    simp only [isNameStart, Bool.or_eq_true, beq_iff_eq] at start
    rcases start with letter | rfl
    · exact (bounds_of_isAlpha letter).1
    · decide
  refine ⟨?_, ?_, ?_, ?_⟩
  · simp only [Text.isDigit, Bool.and_eq_false_iff, decide_eq_false_iff_not]
    omega
  all_goals
    rintro rfl
    revert high
    decide

theorem readInteger?_name (named : isName name = true) : readInteger? name = none := by
  cases name with
  | nil => cases named
  | cons c cs =>
    simp only [isName, Bool.and_eq_true] at named
    obtain ⟨digit, minus, _, zero⟩ := isNameStart_facts named.1
    have noHex : Text.dropHead? ['0', 'x'] (c :: cs) = none := by
      simp [Text.dropHead?, Ne.symm zero]
    have magnitude : readMagnitude? (c :: cs) = none := by
      rw [readMagnitude?, noHex]
      simp [digit]
    unfold readInteger?
    split
    · rename_i same
      exact absurd (List.cons.inj same).1 minus
    · exact magnitude

theorem readNumber?_name (named : isName name = true) : readNumber? name = none := by
  cases name with
  | nil => cases named
  | cons c cs =>
    simp only [isName, Bool.and_eq_true] at named
    obtain ⟨digit, minus, point, _⟩ := isNameStart_facts named.1
    unfold readNumber?
    dsimp only
    by_cases marked : ((c :: cs).getLast? == some 'f') = true
    · rw [if_pos marked]
      cases cs with
      | nil => simp
      | cons d ds => simp [digit, minus, point]
    · rw [if_neg marked]
      simp [digit, minus, point]

theorem immediate_name {scope : Scope} {v : Int32} (named : isName name = true)
    (known : scope.symbols.lookup (String.ofList name) = some (.value v)) :
    scope.immediate name = .ok v := by
  unfold Scope.immediate
  rw [readInteger?_name named, readNumber?_name named, known]

end Names

end RobotArena.Assembly
