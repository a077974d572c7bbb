import RobotArena.Assembly.Expansion
import RobotArena.Proofs.Text.Lines

/-!
# The code on a line

A reader of a line changes its region with each character, until a comment starts. The code on the
line does not depend on how the line ends.
-/

namespace RobotArena.Assembly

/-! ### Regions -/

/-- The region behind one more character; `none` if the character starts a comment. -/
def Region.next? : Region → Char → Option Region
  | .code, c => if c = ';' then none else if c = '"' then some .quoted else some .code
  | .quoted, c => if c = '\\' then some .escaped else if c = '"' then some .code else some .quoted
  | .escaped, _ => some .quoted

theorem beforeComment_cons (r : Region) (c : Char) (cs : List Char) :
    beforeComment r (c :: cs) =
      match r.next? c with
      | none => []
      | some next => c :: beforeComment next cs := by
  cases r with
  | code =>
    by_cases semi : c = ';'
    · simp [semi, beforeComment, Region.next?]
    · by_cases quote : c = '"'
      · simp [quote, beforeComment, Region.next?]
      · simp [semi, quote, beforeComment, Region.next?]
  | quoted =>
    by_cases back : c = '\\'
    · simp [back, beforeComment, Region.next?]
    · by_cases quote : c = '"'
      · simp [quote, beforeComment, Region.next?]
      · simp [back, quote, beforeComment, Region.next?]
  | escaped => simp [beforeComment, Region.next?]

theorem beforeComment_append {r last : Region} {front : List Char}
    (through : front.foldlM Region.next? r = some last) (cs : List Char) :
    beforeComment r (front ++ cs) = front ++ beforeComment last cs := by
  induction front generalizing r with
  | nil =>
    cases through
    rfl
  | cons c front ih =>
    obtain ⟨next, step, rest⟩ := Option.bind_eq_some_iff.mp through
    rw [List.cons_append, beforeComment_cons, step]
    exact congrArg (c :: ·) (ih rest)

theorem beforeComment_cut {r : Region} {front : List Char}
    (ends : front.foldlM Region.next? r = none) (cs : List Char) :
    beforeComment r (front ++ cs) = beforeComment r front := by
  induction front generalizing r with
  | nil => cases ends
  | cons c front ih =>
    rw [List.cons_append, beforeComment_cons, beforeComment_cons]
    cases step : r.next? c with
    | none => rfl
    | some next =>
      have rest : front.foldlM Region.next? next = none := by
        simpa [List.foldlM_cons, step] using ends
      exact congrArg (c :: ·) (ih rest)

theorem beforeComment_nil (r : Region) : beforeComment r [] = [] := by
  cases r <;> rfl

theorem beforeComment_return (r : Region) : beforeComment r ['\r'] = ['\r'] := by
  cases r <;> rfl

/-! ### Code -/

/-- The code on a line, without the comment and outer blanks; `none` if nothing is left. -/
def codeText? (raw : List Char) : Option (List Char) :=
  let text := Text.trim (dropComment raw)
  if text.isEmpty then none else some text

theorem trim_dropComment_return (raw : List Char) :
    Text.trim (dropComment (raw ++ ['\r'])) = Text.trim (dropComment raw) := by
  have blank : ∀ c ∈ ['\r'], Text.isBlank c = true := by
    intro c member
    cases List.mem_singleton.mp member
    rfl
  unfold dropComment
  cases through : raw.foldlM Region.next? .code with
  | none => rw [beforeComment_cut through]
  | some last =>
    have whole : beforeComment .code raw = raw := by
      simpa [beforeComment_nil] using beforeComment_append through []
    rw [beforeComment_append through, beforeComment_return, whole]
    exact Text.trim_append blank raw

@[simp] theorem codeText?_chomp (raw : List Char) : codeText? (Text.chomp raw) = codeText? raw := by
  rcases Text.eq_chomp_or raw with same | lost
  · rw [same]
  · rw [congrArg codeText? lost]
    unfold codeText?
    rw [trim_dropComment_return]

theorem text_codeLine? (file : UInt16) (number : Nat) (raw : List Char) :
    (Expansion.codeLine? file number raw).map (·.text) = codeText? raw := by
  unfold Expansion.codeLine? codeText?
  dsimp only
  split <;> rfl

end RobotArena.Assembly
