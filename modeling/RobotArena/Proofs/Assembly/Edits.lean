import RobotArena.Proofs.Assembly.Visits
import Mathlib.Data.List.Forall2

/-!
# Texts with edited lines

Lines of a program's texts may be edited without touching what they include. The main statement is
that the texts then come to the same lines, as edited, and that files are at hand and free of
cycles as before.
-/

namespace RobotArena.Assembly

open Expansion Relation

/-- Whether a line includes a file does not depend on an edit. -/
def KeepsIncludes (edit : List Char → List Char → Prop) : Prop :=
  ∀ raw raw', edit raw raw' → includedPath? raw' = includedPath? raw

/-- A text whose lines were edited. -/
def EditedText (edit : List Char → List Char → Prop) (text text' : List UInt8) : Prop :=
  List.Forall₂ edit (fileLines text) (fileLines text')

/-- Files whose lines were edited, under their old names. -/
def EditedTexts (edit : List Char → List Char → Prop) (texts texts' : Texts) : Prop :=
  List.Forall₂ (fun x x' => x'.1 = x.1 ∧ EditedText edit x.2 x'.2) texts texts'

section Edits

variable {edit : List Char → List Char → Prop} {texts texts' : Texts} {root : String}
  {text text' : List UInt8}

theorem EditedTexts.lookup (edited : EditedTexts edit texts texts') (path : String) :
    Option.Rel (EditedText edit) (texts.lookup path) (texts'.lookup path) := by
  induction edited with
  | nil => exact .none
  | @cons x x' rest rest' first _ ih =>
    rw [List.lookup_cons, List.lookup_cons, first.1]
    split
    · exact .some first.2
    · exact ih

theorem EditedTexts.sourceOf? (edited : EditedTexts edit texts texts')
    (own : EditedText edit text text') (root path : String) :
    Option.Rel (EditedText edit) (sourceOf? texts root text path)
      (sourceOf? texts' root text' path) := by
  unfold RobotArena.Assembly.sourceOf?
  split
  · exact .some own
  · exact edited.lookup path

/-- Edited files come to the same lines, as edited. -/
theorem Flattens.edited (keeps : KeepsIncludes edit) (files : EditedTexts edit texts texts')
    {seen named : List String} {raws raws' flat : List (List Char)}
    (h : Flattens texts seen raws flat named) (edits : List.Forall₂ edit raws raws') :
    ∃ flat', Flattens texts' seen raws' flat' named ∧ List.Forall₂ edit flat flat' := by
  induction h generalizing raws' with
  | nil =>
    cases edits
    exact ⟨[], .nil, .nil⟩
  | keep own _ ih =>
    cases edits with
    | @cons _ raw' _ _ first later =>
      obtain ⟨flat', flattens, all⟩ := ih later
      exact ⟨raw' :: flat', .keep ((keeps _ _ first).trans own) flattens, .cons first all⟩
  | again asks old _ ih =>
    cases edits with
    | cons first later =>
      obtain ⟨flat', flattens, all⟩ := ih later
      exact ⟨flat', .again ((keeps _ _ first).trans asks) old flattens, all⟩
  | @first _ _ _ _ _ _ _ path source asks new found _ _ insideIh restIh =>
    cases edits with
    | cons first later =>
      have there := files.lookup path
      rw [found] at there
      generalize looked : texts'.lookup path = source' at there
      cases there with
      | some edited =>
        obtain ⟨inner', inside, allInside⟩ := insideIh edited
        obtain ⟨flat', flattens, all⟩ := restIh later
        exact ⟨inner' ++ flat', .first ((keeps _ _ first).trans asks) new looked inside flattens,
          List.rel_append allInside all⟩

/-- An edited file includes the same files. -/
theorem includes_edited (keeps : KeepsIncludes edit) (files : EditedTexts edit texts texts')
    (own : EditedText edit text text') :
    Includes texts' root text' = Includes texts root text := by
  have same : ∀ {raws raws'}, List.Forall₂ edit raws raws' →
      raws'.filterMap includedPath? = raws.filterMap includedPath? := by
    intro raws raws' edits
    induction edits with
    | nil => rfl
    | cons first _ ih => rw [List.filterMap_cons, List.filterMap_cons, keeps _ _ first, ih]
  have paths : included texts' root text' = included texts root text := by
    funext path
    have there := files.sourceOf? own root path
    unfold included
    generalize sourceOf? texts root text path = source at there
    generalize sourceOf? texts' root text' path = source' at there
    cases there with
    | none => rfl
    | some edited => exact same edited
  funext outer inner
  rw [eq_iff_iff, includes_iff, includes_iff, paths]

theorem NoCycle.edited (keeps : KeepsIncludes edit) (files : EditedTexts edit texts texts')
    (own : EditedText edit text text') (noCycle : NoCycle texts root text) :
    NoCycle texts' root text' := by
  unfold NoCycle at noCycle ⊢
  rwa [includes_edited keeps files own]

theorem AtHand.edited (keeps : KeepsIncludes edit) (files : EditedTexts edit texts texts')
    (own : EditedText edit text text') (atHand : AtHand texts root text) :
    AtHand texts' root text' := by
  unfold AtHand at atHand ⊢
  rw [includes_edited keeps files own]
  intro path reached
  have found := atHand path reached
  have there := files.sourceOf? own root path
  generalize sourceOf? texts root text path = source at there found
  generalize sourceOf? texts' root text' path = source' at there
  cases there with
  | none => exact found
  | some => rfl

end Edits

end RobotArena.Assembly
