import RobotArena.Assembly.Basic

/-!
# What an expansion asks for

An expansion notes every path that it looks up. The main statement is that unless it ends up
incomplete it has found them all.
-/

namespace RobotArena.Assembly

namespace Expansion

/-- Unless a file is missing, every path that was looked up is at hand. -/
structure Known (texts : Texts) (e : Expansion) : Prop where
  rooted : e.named.toList ≠ []
  found : e.missing = false → ∀ path ∈ e.asked, (texts.lookup path).isSome

variable {texts : Texts} {e : Expansion}
  {take : Expansion → List String → UInt16 → List UInt8 → Expansion}

theorem Known.reject (known : e.Known texts) (line : Line) (fault : Fault) :
    (e.reject line fault).Known texts :=
  ⟨known.rooted, known.found⟩

theorem asked_push (known : e.Known texts) (path : String) :
    ({ e with named := e.named.push path } : Expansion).asked = e.asked ++ [path] := by
  unfold asked
  rw [Array.toList_push]
  exact List.tail_append_of_ne_nil known.rooted

theorem Known.addFile
    (taken : ∀ {e} around file text, e.Known texts → (take e around file text).Known texts)
    (known : e.Known texts) (around : List String) (line : Line) (path : String) :
    (e.addFile texts take around line path).Known texts := by
  unfold Expansion.addFile
  split
  · exact known.reject line _
  · split
    · exact known
    · have asked := asked_push known path
      have rooted : (e.named.push path).toList ≠ [] := by simp
      dsimp only
      split
      · exact ⟨rooted, nofun⟩
      · rename_i text found
        refine taken _ _ _ ⟨rooted, fun complete other member => ?_⟩
        have member : other ∈ e.asked ++ [path] := asked ▸ member
        rcases List.mem_append.mp member with before | new
        · exact known.found complete other before
        · rw [List.mem_singleton.mp new, found]
          rfl

theorem Known.addLine
    (taken : ∀ {e} around file text, e.Known texts → (take e around file text).Known texts)
    (known : e.Known texts) (around : List String) (line : Line) :
    (e.addLine texts take around line).Known texts := by
  unfold Expansion.addLine
  split
  · exact ⟨known.rooted, known.found⟩
  · exact known.reject line _
  · exact known.addFile taken around line _

theorem Known.addText (depth : Nat) (known : e.Known texts) (around : List String) (file : UInt16)
    (text : List UInt8) : (addText texts depth e around file text).Known texts := by
  induction depth generalizing e around file text with
  | zero => exact known
  | succ depth ih =>
    unfold Expansion.addText
    generalize codeLines file text = lines
    induction lines generalizing e with
    | nil => exact known
    | cons line rest later =>
      exact later (known.addLine (fun around file text known => ih known around file text) around line)

end Expansion

/-- Unless a file is missing, every path that an expansion looks up is at hand. -/
theorem asked_at_hand (texts : Texts) (root : String) (text : List UInt8)
    (complete : (expand texts root text).missing = false) :
    ∀ path ∈ (expand texts root text).asked, (texts.lookup path).isSome := by
  have start : (Expansion.start root).Known texts :=
    ⟨List.cons_ne_nil _ _, fun _ path none => by cases none⟩
  exact (start.addText _ _ _ _).found complete

/-- A compile is incomplete exactly if a file is missing. -/
theorem incomplete_iff (externals : List Signature) {e : Expansion} :
    Outcome.ofExpansion externals e = .incomplete ↔ e.missing = true := by
  unfold Outcome.ofExpansion
  cases e.missing with
  | true => simp
  | false =>
    rw [if_neg Bool.false_ne_true]
    dsimp only
    constructor
    · split <;> nofun
    · nofun

/-- A compile that ends with a program or with errors was not incomplete. -/
theorem complete_of_ofExpansion {externals : List Signature} {e : Expansion}
    (ended : Outcome.ofExpansion externals e ≠ .incomplete) : e.missing = false := by
  rwa [Ne, incomplete_iff, Bool.not_eq_true] at ended

end RobotArena.Assembly
