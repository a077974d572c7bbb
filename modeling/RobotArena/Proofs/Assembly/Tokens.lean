import RobotArena.Proofs.Assembly.Names
import RobotArena.Proofs.Text.Lines
import Mathlib.Data.Option.Basic

/-!
# Characters of immediate operands

An integer, a number and a name are made of letters, digits, underscores, signs and points. The main
statement is that none of these characters separates anything in a line.
-/

namespace RobotArena.Assembly

/-! ### Letters and digits -/

theorem isAlpha_of_bounds {c : Char}
    (bounds : (65 ≤ c.toNat ∧ c.toNat ≤ 90) ∨ (97 ≤ c.toNat ∧ c.toNat ≤ 122)) : c.isAlpha = true := by
  have cases : (c.isUpper || c.isLower) = true := by
    rw [Bool.or_eq_true]
    rcases bounds with ⟨low, high⟩ | ⟨low, high⟩
    · have upper : 'A'.val ≤ c.val ∧ c.val ≤ 'Z'.val := ⟨low, high⟩
      exact .inl (decide_eq_true upper)
    · have least : 'a'.val ≤ c.val := low
      have most : c.val ≤ 'z'.val := high
      refine .inr ?_
      have both : (decide ('a'.val ≤ c.val) && decide (c.val ≤ 'z'.val)) = true := by
        rw [decide_eq_true least, decide_eq_true most]
        rfl
      exact both
  exact cases

theorem isAlpha_of_toLower {c : Char} (letter : c.toLower.isAlpha = true) : c.isAlpha = true := by
  unfold Char.toLower at letter
  split at letter
  · rename_i upper
    have low : 65 ≤ c.toNat := upper.1
    have high : c.toNat ≤ 90 := upper.2
    exact isAlpha_of_bounds (.inl ⟨low, high⟩)
  · exact letter

theorem isDigit_of_bounds {c : Char} (low : 48 ≤ c.toNat) (high : c.toNat ≤ 57) :
    c.isDigit = true := by
  have least : '0'.val ≤ c.val := low
  have most : c.val ≤ '9'.val := high
  have both : (decide ('0'.val ≤ c.val) && decide (c.val ≤ '9'.val)) = true := by
    rw [decide_eq_true least, decide_eq_true most]
    rfl
  exact both

/-- A character that an immediate operand may hold. -/
def isTokenChar (c : Char) : Bool :=
  isNameRest c || c == '+' || c == '-' || c == '.'

theorem tokenChar_of_isNameRest {c : Char} (part : isNameRest c = true) : isTokenChar c = true := by
  simp [isTokenChar, part]

theorem tokenChar_of_isAlpha {c : Char} (letter : c.isAlpha = true) : isTokenChar c = true := by
  refine tokenChar_of_isNameRest ?_
  have both : c.isAlphanum = true := by
    show (c.isAlpha || c.isDigit) = true
    rw [letter]
    rfl
  rw [isNameRest, both]
  rfl

theorem tokenChar_of_isDigit {c : Char} (digit : Text.isDigit c = true) : isTokenChar c = true := by
  refine tokenChar_of_isNameRest ?_
  simp only [Text.isDigit, Bool.and_eq_true, decide_eq_true_eq] at digit
  have both : c.isAlphanum = true := by
    show (c.isAlpha || c.isDigit) = true
    rw [isDigit_of_bounds digit.1 digit.2, Bool.or_true]
  rw [isNameRest, both]
  rfl

theorem tokenChar_separates_nothing {c : Char} (part : isTokenChar c = true) :
    Text.isBlank c = false ∧ c ≠ ';' ∧ c ≠ '"' ∧ c ≠ ':' ∧ c ≠ ',' := by
  simp only [isTokenChar, Bool.or_eq_true, beq_iff_eq] at part
  rcases part with ((inName | rfl) | rfl) | rfl
  · have letter := letter_of_isNameRest inName
    refine ⟨letter.sharp, letter.semicolon, letter.quote, letter.colon, ?_⟩
    rintro rfl
    exact absurd inName (by decide)
  all_goals decide

/-- Characters that make up one operand. -/
structure Token (cs : List Char) : Prop where
  filled : cs ≠ []
  chars : ∀ c ∈ cs, isTokenChar c = true

theorem Token.of_isName {name : List Char} (named : isName name = true) : Token name where
  filled := by
    rintro rfl
    cases named
  chars c member := tokenChar_of_isNameRest (isNameRest_of_isName named c member)

theorem Token.sharp {cs : List Char} (token : Token cs) : ∀ c ∈ cs, Text.isBlank c = false :=
  fun c member => (tokenChar_separates_nothing (token.chars c member)).1

/-! ### Integers -/

theorem tokenChar_of_hexValue? {c : Char} {value : Nat} (read : Text.hexValue? c = some value) :
    isTokenChar c = true := by
  unfold Text.hexValue? at read
  dsimp only at read
  split at read
  · rename_i digit
    exact tokenChar_of_isDigit digit
  · split at read
    · rename_i lower
      simp only [Bool.and_eq_true, decide_eq_true_eq] at lower
      exact tokenChar_of_isAlpha (isAlpha_of_bounds (by omega))
    · split at read
      · rename_i upper
        simp only [Bool.and_eq_true, decide_eq_true_eq] at upper
        exact tokenChar_of_isAlpha (isAlpha_of_bounds (by omega))
      · cases read

theorem tokenChars_of_readHex? {digits : List Char} {n : Nat} (read : Text.readHex? digits = some n) :
    ∀ c ∈ digits, isTokenChar c = true := by
  unfold Text.readHex? at read
  -- What is read so far is a number, or else nothing would be read in the end.
  have all : ∀ start : Option Nat, digits.foldl
      (fun acc c => do return (← acc) * 16 + (← Text.hexValue? c)) start = some n →
      start.isSome = true ∧ ∀ c ∈ digits, isTokenChar c = true := by
    clear read
    induction digits with
    | nil =>
      intro start read
      exact ⟨by rw [List.foldl_nil] at read; rw [read]; rfl, List.forall_mem_nil _⟩
    | cons c rest ih =>
      intro start read
      obtain ⟨step, later⟩ := ih _ read
      cases start with
      | none => cases step
      | some acc =>
        cases digit : Text.hexValue? c with
        | none =>
          dsimp only at step
          rw [digit] at step
          cases step
        | some value =>
          exact ⟨rfl, List.forall_mem_cons.mpr ⟨tokenChar_of_hexValue? digit, later⟩⟩
  exact (all _ read).2

theorem tokenChars_of_digits {cs : List Char} (digits : cs.all Text.isDigit = true) :
    ∀ c ∈ cs, isTokenChar c = true :=
  fun c member => tokenChar_of_isDigit (List.all_eq_true.mp digits c member)

theorem tokenChars_of_readHexMagnitude? {cs : List Char} {n : Int}
    (read : readHexMagnitude? cs = some n) : ∀ c ∈ cs, isTokenChar c = true := by
  have bare : ∀ {limit digits} {m : Int}, readHexMagnitude?.readDigits? limit digits = some m →
      ∀ c ∈ digits, isTokenChar c = true := by
    intro limit digits m read
    obtain ⟨value, hex, _⟩ := Option.bind_eq_some_iff.mp read
    exact tokenChars_of_readHex? hex
  unfold readHexMagnitude? at read
  split at read
  · cases read
  · cases read
  · cases read
  · exact List.forall_mem_cons.mpr ⟨by decide, bare read⟩
  · obtain ⟨m, digits, _⟩ := Option.map_eq_some_iff.mp read
    exact List.forall_mem_cons.mpr ⟨by decide, bare digits⟩
  · exact bare read

theorem token_of_readMagnitude? {cs : List Char} {n : Int} (read : readMagnitude? cs = some n) :
    Token cs := by
  unfold readMagnitude? at read
  split at read
  · rename_i digits hex
    rw [Text.eq_append_of_dropHead? hex]
    refine ⟨List.cons_ne_nil _ _, ?_⟩
    refine List.forall_mem_cons.mpr ⟨by decide, List.forall_mem_cons.mpr ⟨by decide, ?_⟩⟩
    exact tokenChars_of_readHexMagnitude? read
  · split at read
    · rename_i digits
      rw [Bool.and_eq_true] at digits
      exact ⟨by simpa using digits.1, tokenChars_of_digits digits.2⟩
    · cases read

theorem token_of_readInteger? {cs : List Char} {n : Int} (read : readInteger? cs = some n) :
    Token cs := by
  unfold readInteger? at read
  split at read
  · obtain ⟨m, magnitude, _⟩ := Option.map_eq_some_iff.mp read
    have later := (token_of_readMagnitude? magnitude).chars
    exact ⟨List.cons_ne_nil _ _, List.forall_mem_cons.mpr ⟨by decide, later⟩⟩
  · exact token_of_readMagnitude? read

/-! ### Numbers -/

theorem tokenChars_of_word {cs word : List Char} (letters : word.all Char.isAlpha = true)
    (same : cs.map Char.toLower = word) : ∀ c ∈ cs, isTokenChar c = true := by
  intro c member
  have lower : c.toLower ∈ word := same ▸ List.mem_map_of_mem member
  exact tokenChar_of_isAlpha (isAlpha_of_toLower (List.all_eq_true.mp letters _ lower))

theorem tokenChars_of_readExponent? {cs : List Char} {n : Int}
    (read : Binary32.readExponent? cs = some n) : ∀ c ∈ cs, isTokenChar c = true := by
  have bare : ∀ {digits} {m : Int}, Binary32.readExponent?.magnitude? digits = some m →
      ∀ c ∈ digits, isTokenChar c = true := by
    intro digits m read
    unfold Binary32.readExponent?.magnitude? at read
    split at read
    · rename_i both
      exact tokenChars_of_digits (Bool.and_eq_true _ _ ▸ both).2
    · cases read
  unfold Binary32.readExponent? at read
  split at read
  · exact List.forall_mem_cons.mpr ⟨by decide, bare read⟩
  · obtain ⟨m, digits, _⟩ := Option.map_eq_some_iff.mp read
    exact List.forall_mem_cons.mpr ⟨by decide, bare digits⟩
  · exact bare read

theorem tokenChars_of_exponent {c : Char} {rest : List Char} {n : Int}
    (mark : (c == 'e' || c == 'E') = true) (read : Binary32.readExponent? rest = some n) :
    ∀ d ∈ c :: rest, isTokenChar d = true := by
  refine List.forall_mem_cons.mpr ⟨?_, tokenChars_of_readExponent? read⟩
  rw [Bool.or_eq_true, beq_iff_eq, beq_iff_eq] at mark
  rcases mark with rfl | rfl <;> decide

theorem tokenChars_of_takeWhile (cs : List Char) :
    ∀ c ∈ cs.takeWhile Text.isDigit, isTokenChar c = true :=
  tokenChars_of_digits List.all_takeWhile

theorem tokenChars_of_readUnsigned? {cs : List Char} {x : Binary32}
    (read : Binary32.readUnsigned? cs = some x) : ∀ c ∈ cs, isTokenChar c = true := by
  unfold Binary32.readUnsigned? at read
  dsimp only at read
  rw [← List.takeWhile_append_dropWhile (p := Text.isDigit) (l := cs)]
  refine List.forall_mem_append.mpr ⟨tokenChars_of_takeWhile cs, ?_⟩
  -- Behind the digits there is a point and more digits, or not; then an exponent, or not.
  split at read
  · rename_i _ more point
    rw [point, ← List.takeWhile_append_dropWhile (p := Text.isDigit) (l := more)]
    refine List.forall_mem_cons.mpr ⟨by decide, ?_⟩
    refine List.forall_mem_append.mpr ⟨tokenChars_of_takeWhile more, ?_⟩
    obtain ⟨_, _, read⟩ := Option.bind_eq_some_iff.mp read
    dsimp only at read
    split at read
    · rename_i ends
      rw [ends]
      exact List.forall_mem_nil _
    · rename_i c rest goesOn
      rw [goesOn]
      split at read
      · rename_i mark
        obtain ⟨_, exponent, _⟩ := Option.bind_eq_some_iff.mp read
        exact tokenChars_of_exponent mark exponent
      · cases read
  · obtain ⟨_, _, read⟩ := Option.bind_eq_some_iff.mp read
    dsimp only at read
    split at read
    · rename_i ends
      rw [ends]
      exact List.forall_mem_nil _
    · rename_i c rest goesOn
      rw [goesOn]
      split at read
      · rename_i mark
        obtain ⟨_, exponent, _⟩ := Option.bind_eq_some_iff.mp read
        exact tokenChars_of_exponent mark exponent
      · cases read

theorem tokenChars_of_readLiteral {cs : List Char} {x : Binary32}
    (read : (Binary32.readLiteral cs).toOption = some x) : ∀ c ∈ cs, isTokenChar c = true := by
  have bare : ∀ {digits} {y : Binary32}, Binary32.readMagnitude? digits = some y →
      ∀ c ∈ digits, isTokenChar c = true := by
    intro digits y read
    unfold Binary32.readMagnitude? at read
    dsimp only at read
    split at read
    · rename_i word
      rw [Bool.or_eq_true, decide_eq_true_eq, decide_eq_true_eq] at word
      rcases word with word | word
      · exact tokenChars_of_word rfl word
      · exact tokenChars_of_word rfl word
    · split at read
      · rename_i word
        exact tokenChars_of_word rfl word
      · exact tokenChars_of_readUnsigned? read
  have found : ∀ {o : Option Binary32} {y : Binary32},
      (o.elim (.error Binary32.LiteralError.invalid) Except.ok).toOption = some y → o = some y := by
    intro o y read
    cases o with
    | none => cases read
    | some z => exact read
  unfold Binary32.readLiteral at read
  split at read
  · exact List.forall_mem_nil _
  · obtain ⟨y, magnitude, _⟩ := Option.map_eq_some_iff.mp (found read)
    exact List.forall_mem_cons.mpr ⟨by decide, bare magnitude⟩
  · exact List.forall_mem_cons.mpr ⟨by decide, bare (found read)⟩
  · exact bare (found read)

theorem token_of_readNumber? {cs : List Char} {x : Binary32} (read : readNumber? cs = some x) :
    Token cs := by
  have literal : ∃ body, (cs = body ∨ cs = body ++ ['f']) ∧
      (Binary32.readLiteral body).toOption = some x := by
    refine ⟨if cs.getLast? == some 'f' then cs.dropLast else cs, ?_, ?_⟩
    · split
      · rename_i marked
        obtain ⟨front, rfl⟩ := List.getLast?_eq_some_iff.mp (eq_of_beq marked)
        exact .inr (by rw [List.dropLast_concat])
      · exact .inl rfl
    · unfold readNumber? at read
      dsimp only at read
      split at read
      all_goals
        split at read
        · exact read
        · cases read
  obtain ⟨body, shape, number⟩ := literal
  have chars := tokenChars_of_readLiteral number
  rcases shape with rfl | rfl
  · refine ⟨?_, chars⟩
    rintro rfl
    cases number
  · refine ⟨by simp, List.forall_mem_append.mpr ⟨chars, ?_⟩⟩
    exact List.forall_mem_singleton.mpr (by decide)

end RobotArena.Assembly
