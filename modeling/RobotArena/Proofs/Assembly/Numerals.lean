import RobotArena.Proofs.Assembly.Names
import RobotArena.Proofs.Text.Lines
import Mathlib.Data.List.Induction

/-!
# Numerals

What digits denote, and which tokens are read as registers and as integers. The grammar of the
language has no sign behind the letter of a register or behind `0x`, but one is read there. The
main statement gives everything that is read, and says that names are no numbers.
-/

namespace RobotArena.Assembly

/-! ### Digits -/

/-- Digits denote a number: each counts as much as `base` of the one behind it. There is at least
one digit. -/
inductive Denotes (base : Nat) (value? : Char → Option Nat) : List Char → Nat → Prop where
  | one {c : Char} {d : Nat} (digit : value? c = some d) : Denotes base value? [c] d
  | more {front : List Char} {c : Char} {n d : Nat} (before : Denotes base value? front n)
      (digit : value? c = some d) : Denotes base value? (front ++ [c]) (n * base + d)

/-- The value of a decimal digit. -/
def decimalDigit? (c : Char) : Option Nat :=
  if Text.isDigit c then some (c.toNat - 48) else none

/-- Decimal digits denote a number. -/
abbrev Decimal : List Char → Nat → Prop :=
  Denotes 10 decimalDigit?

/-- Hexadecimal digits of either case denote a number. -/
abbrev Hexadecimal : List Char → Nat → Prop :=
  Denotes 16 Text.hexValue?

section Digits

variable {base : Nat} {value? : Char → Option Nat} {digits : List Char} {n : Nat}

theorem Denotes.filled (denotes : Denotes base value? digits n) : digits ≠ [] := by
  cases denotes with
  | one digit => exact List.cons_ne_nil _ _
  | more before digit => exact List.concat_ne_nil _ _

theorem Denotes.each (denotes : Denotes base value? digits n) :
    ∀ c ∈ digits, (value? c).isSome = true := by
  induction denotes with
  | one digit => exact List.forall_mem_singleton.mpr (by rw [digit]; rfl)
  | more before digit ih =>
    exact List.forall_mem_append.mpr ⟨ih, List.forall_mem_singleton.mpr (by rw [digit]; rfl)⟩

theorem Denotes.head_ne (denotes : Denotes base value? digits n) {c : Char}
    (sharp : value? c = none) (rest : List Char) : digits ≠ c :: rest := by
  rintro rfl
  have digit := denotes.each c List.mem_cons_self
  rw [sharp] at digit
  cases digit

/-- Reading digits from the left, one more at each step, finds what they denote. -/
theorem foldl_eq_some_iff (base : Nat) (value? : Char → Option Nat) (digits : List Char) (n : Nat) :
    (digits ≠ [] ∧ digits.foldl (fun acc c => do return (← acc) * base + (← value? c)) (some 0) =
      some n) ↔ Denotes base value? digits n := by
  induction digits using List.reverseRecOn generalizing n with
  | nil => exact ⟨fun read => absurd rfl read.1, fun denotes => absurd rfl denotes.filled⟩
  | append_singleton front c ih =>
    rw [List.foldl_append, List.foldl_cons, List.foldl_nil]
    constructor
    · rintro ⟨-, read⟩
      obtain ⟨m, before, read⟩ := Option.bind_eq_some_iff.mp read
      obtain ⟨d, digit, same⟩ := Option.bind_eq_some_iff.mp read
      cases same
      by_cases empty : front = []
      · subst empty
        cases before
        rw [Nat.zero_mul, Nat.zero_add]
        exact .one digit
      · exact .more ((ih m).mp ⟨empty, before⟩) digit
    · intro denotes
      refine ⟨List.concat_ne_nil _ _, ?_⟩
      generalize whole : front ++ [c] = digits at denotes
      cases denotes with
      | one digit =>
        obtain ⟨rfl, same⟩ := List.append_inj' (whole.trans (List.nil_append [_]).symm) rfl
        cases same
        rw [digit]
        show some (0 * base + n) = some n
        rw [Nat.zero_mul, Nat.zero_add]
      | more before digit =>
        obtain ⟨rfl, same⟩ := List.append_inj' whole rfl
        cases same
        rw [((ih _).mpr before).2, digit]
        rfl

end Digits

section Readers

variable {digits : List Char} {n : Nat}

theorem readHex?_iff (digits : List Char) (n : Nat) :
    (digits ≠ [] ∧ Text.readHex? digits = some n) ↔ Hexadecimal digits n :=
  foldl_eq_some_iff 16 Text.hexValue? digits n

theorem decimalDigit?_isSome (c : Char) : (decimalDigit? c).isSome = Text.isDigit c := by
  unfold decimalDigit?
  cases Text.isDigit c <;> rfl

theorem decimalValue_append (front : List Char) (c : Char) :
    Text.decimalValue (front ++ [c]) = Text.decimalValue front * 10 + (c.toNat - 48) := by
  unfold Text.decimalValue
  rw [List.foldl_append, List.foldl_cons, List.foldl_nil]

theorem Denotes.decimalValue (denotes : Decimal digits n) : Text.decimalValue digits = n := by
  have value : ∀ {c d}, decimalDigit? c = some d → c.toNat - 48 = d := by
    intro c d digit
    unfold decimalDigit? at digit
    split at digit
    · exact Option.some.inj digit
    · cases digit
  induction denotes with
  | one digit => rw [← value digit]; exact Nat.zero_add _
  | more before digit ih => rw [decimalValue_append, ih, value digit]

theorem decimal_of_digits (filled : digits ≠ []) (all : ∀ c ∈ digits, Text.isDigit c = true) :
    Decimal digits (Text.decimalValue digits) := by
  induction digits using List.reverseRecOn with
  | nil => exact absurd rfl filled
  | append_singleton front c ih =>
    have last : Text.isDigit c = true := all c (List.mem_concat_self)
    have digit : decimalDigit? c = some (c.toNat - 48) := if_pos last
    rw [decimalValue_append]
    by_cases empty : front = []
    · subst empty
      have alone : Text.decimalValue [] * 10 + (c.toNat - 48) = c.toNat - 48 := Nat.zero_add _
      rw [alone]
      exact .one digit
    · exact .more (ih empty fun d member => all d (List.mem_append_left _ member)) digit

theorem decimal_iff (digits : List Char) (n : Nat) :
    (digits ≠ [] ∧ (∀ c ∈ digits, Text.isDigit c = true) ∧ Text.decimalValue digits = n) ↔
      Decimal digits n := by
  constructor
  · rintro ⟨filled, all, rfl⟩
    exact decimal_of_digits filled all
  · intro denotes
    refine ⟨denotes.filled, fun c member => ?_, denotes.decimalValue⟩
    rw [← decimalDigit?_isSome]
    exact denotes.each c member

theorem le_foldl_decimal (acc : Nat) (digits : List Char) :
    acc ≤ digits.foldl (fun acc c => acc * 10 + (c.toNat - 48)) acc := by
  induction digits generalizing acc with
  | nil => exact Nat.le_refl _
  | cons c rest ih =>
    rw [List.foldl_cons]
    have later := ih (acc * 10 + (c.toNat - 48))
    omega

theorem readDigits_eq_ok_iff {limit acc : Nat} (small : acc ≤ limit) :
    Text.readDigits limit acc digits = .ok n ↔ (∀ c ∈ digits, Text.isDigit c = true) ∧
      digits.foldl (fun acc c => acc * 10 + (c.toNat - 48)) acc = n ∧ n ≤ limit := by
  induction digits generalizing acc with
  | nil =>
    rw [Text.readDigits, List.foldl_nil]
    constructor
    · intro read
      cases read
      exact ⟨List.forall_mem_nil _, rfl, small⟩
    · rintro ⟨-, rfl, -⟩
      rfl
  | cons c rest ih =>
    rw [Text.readDigits, List.foldl_cons, List.forall_mem_cons]
    dsimp only
    by_cases digit : Text.isDigit c = true
    · rw [if_pos digit]
      by_cases fits : acc * 10 + (c.toNat - 48) ≤ limit
      · rw [if_pos fits, ih fits]
        simp only [digit, true_and]
      · -- What is read further on only makes the number greater.
        rw [if_neg fits]
        refine ⟨nofun, ?_⟩
        rintro ⟨-, rfl, most⟩
        exact absurd (Nat.le_trans (le_foldl_decimal _ rest) most) fits
    · rw [if_neg digit]
      exact ⟨nofun, fun read => absurd read.1.1 digit⟩

theorem readDigits_iff (limit : Nat) (filled : digits ≠ []) :
    (Text.readDigits limit 0 digits).toOption = some n ↔ Decimal digits n ∧ n ≤ limit := by
  have ok : (Text.readDigits limit 0 digits).toOption = some n ↔
      Text.readDigits limit 0 digits = .ok n := by
    cases Text.readDigits limit 0 digits with
    | error fault => exact ⟨nofun, nofun⟩
    | ok m => exact ⟨fun same => by cases same; rfl, fun same => by cases same; rfl⟩
  rw [ok, readDigits_eq_ok_iff (Nat.zero_le limit), ← decimal_iff, ← and_assoc, and_assoc (a := _ ≠ _)]
  simp only [filled, true_and, ne_eq, not_false_eq_true]
  exact Iff.rfl

/-- An unsigned number may have one plus sign. -/
theorem readUnsigned?_iff (limit : Nat) (cs : List Char) (n : Nat) :
    Text.readUnsigned? limit cs = some n ↔
      ∃ digits, (cs = digits ∨ cs = '+' :: digits) ∧ Decimal digits n ∧ n ≤ limit := by
  unfold Text.readUnsigned? Text.readUnsigned
  split
  · refine ⟨nofun, ?_⟩
    rintro ⟨digits, rfl | signed, denotes, -⟩
    · exact absurd rfl denotes.filled
    · cases signed
  · refine ⟨nofun, ?_⟩
    rintro ⟨digits, rfl | signed, denotes, -⟩
    · exact absurd rfl (denotes.head_ne (by decide) [])
    · cases signed
      exact absurd rfl denotes.filled
  · rename_i digits more
    have filled : digits ≠ [] := by
      rintro rfl
      exact more rfl
    rw [readDigits_iff limit filled]
    constructor
    · exact fun read => ⟨digits, .inr rfl, read⟩
    · rintro ⟨others, rfl | same, denotes, fits⟩
      · exact absurd rfl (denotes.head_ne (by decide) digits)
      · cases same
        exact ⟨denotes, fits⟩
  · rename_i filled _ unsigned
    rw [readDigits_iff limit filled]
    constructor
    · exact fun read => ⟨cs, .inl rfl, read⟩
    · rintro ⟨others, rfl | same, read⟩
      · exact read
      · exact absurd same (unsigned others)

end Readers

/-! ### Registers -/

/-- Registers: the letter `r` and the digits of a number below sixteen. -/
def RegisterForm (token : List Char) (index : UInt8) : Prop :=
  ∃ digits, token = 'r' :: digits ∧ Decimal digits index.toNat ∧ index.toNat < registerCount

/-- Registers with a plus sign behind the letter. -/
def SignedRegister (token : List Char) (index : UInt8) : Prop :=
  ∃ digits, token = 'r' :: '+' :: digits ∧ Decimal digits index.toNat ∧
    index.toNat < registerCount

theorem readRegister?_letter (digits : List Char) (index : UInt8) :
    readRegister? ('r' :: digits) = some index ↔
      Text.readUnsigned? 255 digits = some index.toNat ∧ index.toNat < registerCount := by
  have opened : readRegister? ('r' :: digits) = (Text.readUnsigned? 255 digits).bind fun n =>
      if n < registerCount then some (UInt8.ofNat n) else none := rfl
  rw [opened, Option.bind_eq_some_iff]
  constructor
  · rintro ⟨n, read, found⟩
    split at found
    · rename_i below
      cases found
      have small : (UInt8.ofNat n).toNat = n := by
        rw [UInt8.toNat_ofNat']
        exact Nat.mod_eq_of_lt (Nat.lt_trans below (by decide))
      rw [small]
      exact ⟨read, below⟩
    · cases found
  · rintro ⟨read, below⟩
    exact ⟨_, read, by rw [if_pos below, UInt8.ofNat_toNat]⟩

theorem readRegister?_iff (token : List Char) (index : UInt8) :
    readRegister? token = some index ↔ RegisterForm token index ∨ SignedRegister token index := by
  constructor
  · intro read
    obtain ⟨digits, rfl⟩ : ∃ digits, token = 'r' :: digits := by
      unfold readRegister? at read
      split at read
      · exact ⟨_, rfl⟩
      · cases read
    obtain ⟨read, below⟩ := (readRegister?_letter digits index).mp read
    obtain ⟨bare, rfl | rfl, denotes, -⟩ := (readUnsigned?_iff 255 _ _).mp read
    · exact .inl ⟨_, rfl, denotes, below⟩
    · exact .inr ⟨_, rfl, denotes, below⟩
  · have fits : index.toNat ≤ 255 := Nat.le_of_lt_succ index.toNat_lt
    rintro (⟨digits, rfl, denotes, below⟩ | ⟨digits, rfl, denotes, below⟩)
    · have read := (readUnsigned?_iff 255 _ _).mpr ⟨digits, .inl rfl, denotes, fits⟩
      exact (readRegister?_letter _ index).mpr ⟨read, below⟩
    · have read := (readUnsigned?_iff 255 _ _).mpr ⟨digits, .inr rfl, denotes, fits⟩
      exact (readRegister?_letter _ index).mpr ⟨read, below⟩

/-! ### Integers -/

/-- Magnitudes: decimal digits, or `0x` and hexadecimal digits. -/
inductive Magnitude : List Char → Nat → Prop where
  | decimal {digits : List Char} {n : Nat} (denotes : Decimal digits n) : Magnitude digits n
  | hexadecimal {digits : List Char} {n : Nat} (denotes : Hexadecimal digits n) :
      Magnitude ('0' :: 'x' :: digits) n

/-- Integers: an optional minus sign and a magnitude that 64 bits with a sign can hold. -/
inductive IntegerForm : List Char → Int → Prop where
  | plain {body : List Char} {n : Nat} (magnitude : Magnitude body n) (fits : n ≤ integerLimit) :
      IntegerForm body n
  | minus {body : List Char} {n : Nat} (magnitude : Magnitude body n) (fits : n ≤ integerLimit) :
      IntegerForm ('-' :: body) (-n)

/-- Magnitudes with a sign behind `0x`. The least integer of 64 bits is one of them. -/
inductive SignedMagnitude : List Char → Int → Prop where
  | plus {digits : List Char} {n : Nat} (denotes : Hexadecimal digits n)
      (fits : n ≤ integerLimit) : SignedMagnitude ('0' :: 'x' :: '+' :: digits) n
  | minus {digits : List Char} {n : Nat} (denotes : Hexadecimal digits n)
      (fits : n ≤ integerLimit + 1) : SignedMagnitude ('0' :: 'x' :: '-' :: digits) (-n)

/-- Integers with a sign behind `0x`, and perhaps a minus sign in front of it. -/
inductive SignedInteger : List Char → Int → Prop where
  | plain {body : List Char} {v : Int} (magnitude : SignedMagnitude body v) : SignedInteger body v
  | minus {body : List Char} {v : Int} (magnitude : SignedMagnitude body v) :
      SignedInteger ('-' :: body) (-v)

theorem readDigits?_iff (limit : Nat) (digits : List Char) (v : Int) :
    readHexMagnitude?.readDigits? limit digits = some v ↔
      ∃ n : Nat, Text.readHex? digits = some n ∧ n ≤ limit ∧ v = n := by
  unfold readHexMagnitude?.readDigits?
  rw [Option.bind_eq_bind, Option.bind_eq_some_iff]
  constructor
  · rintro ⟨n, read, found⟩
    split at found
    · rename_i fits
      cases found
      exact ⟨n, read, fits, rfl⟩
    · cases found
  · rintro ⟨n, read, fits, rfl⟩
    exact ⟨n, read, if_pos fits⟩

theorem readHexMagnitude?_iff (cs : List Char) (v : Int) :
    readHexMagnitude? cs = some v ↔
      (∃ n : Nat, Hexadecimal cs n ∧ n ≤ integerLimit ∧ v = n) ∨
        SignedMagnitude ('0' :: 'x' :: cs) v := by
  unfold readHexMagnitude?
  split
  · refine ⟨nofun, ?_⟩
    rintro (⟨n, denotes, -⟩ | signed)
    · exact absurd rfl denotes.filled
    · cases signed
  · refine ⟨nofun, ?_⟩
    rintro (⟨n, denotes, -⟩ | signed)
    · exact absurd rfl (denotes.head_ne (by decide) [])
    · cases signed with
      | plus denotes fits => exact absurd rfl denotes.filled
  · refine ⟨nofun, ?_⟩
    rintro (⟨n, denotes, -⟩ | signed)
    · exact absurd rfl (denotes.head_ne (by decide) [])
    · cases signed with
      | minus denotes fits => exact absurd rfl denotes.filled
  · rename_i digits more
    rw [readDigits?_iff]
    constructor
    · rintro ⟨n, read, fits, rfl⟩
      exact .inr (.plus ((readHex?_iff digits n).mp ⟨by rintro rfl; exact more rfl, read⟩) fits)
    · rintro (⟨n, denotes, -⟩ | signed)
      · exact absurd rfl (denotes.head_ne (by decide) digits)
      · cases signed with
        | plus denotes fits => exact ⟨_, ((readHex?_iff digits _).mpr denotes).2, fits, rfl⟩
  · rename_i digits more
    rw [Option.map_eq_some_iff]
    constructor
    · rintro ⟨w, found, rfl⟩
      obtain ⟨n, read, fits, rfl⟩ := (readDigits?_iff _ _ _).mp found
      exact .inr (.minus ((readHex?_iff digits n).mp ⟨by rintro rfl; exact more rfl, read⟩) fits)
    · rintro (⟨n, denotes, -⟩ | signed)
      · exact absurd rfl (denotes.head_ne (by decide) digits)
      · cases signed with
        | minus denotes fits =>
          have read := ((readHex?_iff digits _).mpr denotes).2
          exact ⟨_, (readDigits?_iff _ _ _).mpr ⟨_, read, fits, rfl⟩, rfl⟩
  · rename_i filled _ _ noPlus noMinus
    rw [readDigits?_iff]
    constructor
    · rintro ⟨n, read, fits, rfl⟩
      exact .inl ⟨n, (readHex?_iff cs n).mp ⟨filled, read⟩, fits, rfl⟩
    · rintro (⟨n, denotes, fits, rfl⟩ | signed)
      · exact ⟨n, ((readHex?_iff cs n).mpr denotes).2, fits, rfl⟩
      · cases signed with
        | plus denotes fits => exact absurd rfl (noPlus _)
        | minus denotes fits => exact absurd rfl (noMinus _)

section Forms

variable {body token : List Char} {n : Nat} {v : Int}

theorem Magnitude.not_minus (cs : List Char) : ¬ Magnitude ('-' :: cs) n := by
  intro magnitude
  cases magnitude with
  | decimal denotes => exact denotes.head_ne (by decide) cs rfl

theorem Magnitude.hexadecimal_of (magnitude : Magnitude ('0' :: 'x' :: body) n) :
    Hexadecimal body n := by
  cases magnitude with
  | decimal denotes =>
    have letter := denotes.each 'x' (List.mem_cons_of_mem _ List.mem_cons_self)
    exact absurd letter (by decide)
  | hexadecimal denotes => exact denotes

theorem SignedMagnitude.not_magnitude (signed : SignedMagnitude body v) : ¬ Magnitude body n := by
  intro magnitude
  cases signed with
  | plus denotes fits => exact magnitude.hexadecimal_of.head_ne (by decide) _ rfl
  | minus denotes fits => exact magnitude.hexadecimal_of.head_ne (by decide) _ rfl

theorem SignedInteger.not_integer (signed : SignedInteger token v) (w : Int) :
    ¬ IntegerForm token w := by
  intro form
  cases signed with
  | plain signed =>
    cases form with
    | plain magnitude fits => exact signed.not_magnitude magnitude
    | minus magnitude fits => cases signed
  | minus signed =>
    cases form with
    | plain magnitude fits => exact magnitude.not_minus _
    | minus magnitude fits => exact signed.not_magnitude magnitude

theorem SignedRegister.not_register {index : UInt8} (signed : SignedRegister token index)
    (other : UInt8) : ¬ RegisterForm token other := by
  obtain ⟨digits, rfl, -⟩ := signed
  rintro ⟨others, same, denotes, -⟩
  exact denotes.head_ne (by decide) digits (List.cons.inj same).2.symm

theorem readMagnitude?_iff (cs : List Char) (v : Int) :
    readMagnitude? cs = some v ↔
      (∃ n : Nat, Magnitude cs n ∧ n ≤ integerLimit ∧ v = n) ∨ SignedMagnitude cs v := by
  unfold readMagnitude?
  split
  · rename_i digits hex
    obtain rfl : cs = '0' :: 'x' :: digits := Text.eq_append_of_dropHead? hex
    rw [readHexMagnitude?_iff]
    refine or_congr ⟨?_, ?_⟩ Iff.rfl
    · rintro ⟨n, denotes, read⟩
      exact ⟨n, .hexadecimal denotes, read⟩
    · rintro ⟨n, magnitude, read⟩
      exact ⟨n, magnitude.hexadecimal_of, read⟩
  · rename_i noHex
    have noHex : ∀ digits, cs ≠ '0' :: 'x' :: digits := by
      rintro digits rfl
      simp [Text.dropHead?] at noHex
    have signless : ¬ SignedMagnitude cs v := by
      intro signed
      cases signed with
      | plus denotes fits => exact noHex _ rfl
      | minus denotes fits => exact noHex _ rfl
    have decimal : ∀ n, Magnitude cs n ↔ Decimal cs n := by
      refine fun n => ⟨fun magnitude => ?_, .decimal⟩
      cases magnitude with
      | decimal denotes => exact denotes
      | hexadecimal denotes => exact absurd rfl (noHex _)
    simp only [signless, or_false, decimal]
    by_cases digits : (!cs.isEmpty && cs.all Text.isDigit) = true
    · rw [if_pos digits]
      rw [Bool.and_eq_true, List.all_eq_true] at digits
      have filled : cs ≠ [] := by simpa using digits.1
      have denotes := decimal_of_digits filled digits.2
      constructor
      · intro read
        split at read
        · rename_i fits
          cases read
          exact ⟨_, denotes, fits, rfl⟩
        · cases read
      · rintro ⟨n, other, fits, rfl⟩
        rw [← other.decimalValue] at fits ⊢
        exact if_pos fits
    · rw [if_neg digits]
      refine ⟨fun read => absurd read.symm (Option.some_ne_none v), ?_⟩
      rintro ⟨n, denotes, -⟩
      obtain ⟨filled, all, -⟩ := (decimal_iff cs n).mpr denotes
      refine absurd ?_ digits
      rw [Bool.and_eq_true, List.all_eq_true]
      exact ⟨by simpa using filled, all⟩

theorem readInteger?_iff (token : List Char) (v : Int) :
    readInteger? token = some v ↔ IntegerForm token v ∨ SignedInteger token v := by
  unfold readInteger?
  split
  · rename_i body
    rw [Option.map_eq_some_iff]
    constructor
    · rintro ⟨w, read, rfl⟩
      rcases (readMagnitude?_iff body w).mp read with ⟨n, magnitude, fits, rfl⟩ | signed
      · exact .inl (.minus magnitude fits)
      · exact .inr (.minus signed)
    · rintro (form | signed)
      · cases form with
        | plain magnitude fits => exact absurd magnitude (Magnitude.not_minus body)
        | minus magnitude fits =>
          exact ⟨_, (readMagnitude?_iff body _).mpr (.inl ⟨_, magnitude, fits, rfl⟩), rfl⟩
      · cases signed with
        | plain signed => cases signed
        | minus signed => exact ⟨_, (readMagnitude?_iff body _).mpr (.inr signed), rfl⟩
  · rename_i unsigned
    rw [readMagnitude?_iff]
    constructor
    · rintro (⟨n, magnitude, fits, rfl⟩ | signed)
      · exact .inl (.plain magnitude fits)
      · exact .inr (.plain signed)
    · rintro (form | signed)
      · cases form with
        | plain magnitude fits => exact .inl ⟨_, magnitude, fits, rfl⟩
        | minus magnitude fits => exact absurd rfl (unsigned _)
      · cases signed with
        | plain signed => exact .inr signed
        | minus signed => exact absurd rfl (unsigned _)

end Forms

/-! ### What is read -/

/-- The token is read with a sign behind the letter of a register or behind `0x`. -/
def HasInnerSign (token : List Char) : Prop :=
  (∃ index, SignedRegister token index) ∨ ∃ v, SignedInteger token v

/-- A token is read by the grammar exactly if it has no sign inside. One that has is read too, as the
number that its digits denote. A name is never read as a number, so that an operand that is a name
means what the name stands for. -/
theorem read_by_grammar_iff (token : List Char) :
    (∀ index, readRegister? token = some index ↔
        RegisterForm token index ∨ SignedRegister token index) ∧
      (∀ v, readInteger? token = some v ↔ IntegerForm token v ∨ SignedInteger token v) ∧
      ((∀ index, readRegister? token = some index ↔ RegisterForm token index) ∧
          (∀ v, readInteger? token = some v ↔ IntegerForm token v) ↔ ¬ HasInnerSign token) ∧
      (isName token = true → readInteger? token = none ∧ readNumber? token = none ∧
        ∀ scope : Scope, ∀ v, scope.immediate token = .ok v →
          ∃ symbol, scope.symbols.lookup (String.ofList token) = some symbol) := by
  refine ⟨readRegister?_iff token, readInteger?_iff token, ⟨?_, fun plain => ⟨?_, ?_⟩⟩, ?_⟩
  · rintro ⟨registers, integers⟩ (⟨index, signed⟩ | ⟨v, signed⟩)
    · have read := (readRegister?_iff token index).mpr (.inr signed)
      exact signed.not_register index ((registers index).mp read)
    · have read := (readInteger?_iff token v).mpr (.inr signed)
      exact signed.not_integer v ((integers v).mp read)
  · intro index
    rw [readRegister?_iff, or_iff_left fun signed => plain (.inl ⟨index, signed⟩)]
  · intro v
    rw [readInteger?_iff, or_iff_left fun signed => plain (.inr ⟨v, signed⟩)]
  · intro named
    have noInteger := readInteger?_name named
    have noNumber := readNumber?_name named
    refine ⟨noInteger, noNumber, fun scope v means => ?_⟩
    unfold Scope.immediate at means
    rw [noInteger, noNumber] at means
    cases known : scope.symbols.lookup (String.ofList token) with
    | none =>
      rw [known] at means
      cases means
    | some symbol => exact ⟨symbol, rfl⟩

theorem hex_word_is_a_name :
    isName "x10f".toList = true ∧ readInteger? "x10f".toList = none ∧
      readNumber? "x10f".toList = none := by
  have named : isName "x10f".toList = true := by decide
  have read := (read_by_grammar_iff "x10f".toList).2.2.2 named
  exact ⟨named, read.1, read.2.1⟩

theorem inner_signs_are_read :
    (readRegister? "r+1".toList = some 1 ∧ ¬ ∃ index, RegisterForm "r+1".toList index) ∧
      (readInteger? "0x-5".toList = some (-5) ∧ ¬ ∃ v, IntegerForm "0x-5".toList v) := by
  have register : SignedRegister "r+1".toList 1 := ⟨['1'], rfl, .one rfl, by decide⟩
  have integer : SignedInteger "0x-5".toList (-5) :=
    .plain (.minus (.one rfl) (by decide))
  refine ⟨⟨(readRegister?_iff _ _).mpr (.inr register), ?_⟩,
    ⟨(readInteger?_iff _ _).mpr (.inr integer), ?_⟩⟩
  · exact fun ⟨index, form⟩ => register.not_register index form
  · exact fun ⟨v, form⟩ => integer.not_integer v form

end RobotArena.Assembly
