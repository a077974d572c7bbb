import RobotArena.Binary32.Basic
import RobotArena.Identity

/-!
# The library of sources

Which sources have their text at hand and which are being fetched from their owners. Asking for a
source that is unknown starts its fetch.
-/

namespace RobotArena

/-- What is known of a source: how much of it has been fetched, or its text. -/
inductive Availability where
  | fetching (fraction : Binary32)
  | available (text : List UInt8)
  deriving DecidableEq

/-- The known sources, and every source for which a fetch was started, in order. -/
structure Library where
  entries : List (SourceId × Availability) := []
  fetches : List SourceId := []

namespace Library

/-- What is known of a source. -/
def find? (l : Library) (source : SourceId) : Option Availability :=
  l.entries.lookup source

/-- Replaces what is known of a source. -/
def set (l : Library) (source : SourceId) (a : Availability) : Library :=
  { l with entries := (source, a) :: l.entries.filter (·.1 ≠ source) }

/-- Forgets a source. -/
def remove (l : Library) (source : SourceId) : Library :=
  { l with entries := l.entries.filter (·.1 ≠ source) }

/-- Starts the fetch of a source, unless something is known of it already. -/
def fetch (l : Library) (source : SourceId) : Library :=
  if (l.find? source).isSome then l
  else { l.set source (.fetching 0) with fetches := l.fetches ++ [source] }

/-- The text of a source that is at hand. -/
def text? (l : Library) (source : SourceId) : Option (List UInt8) :=
  match l.find? source with
  | some (.available text) => some text
  | _ => none

/-- How much of a source has been fetched, from 0 to 1, if it is not at hand. -/
def outstanding? (l : Library) (source : SourceId) : Option Binary32 :=
  match l.find? source with
  | some (.available _) => none
  | some (.fetching fraction) => some (fraction.clamp 0 1)
  | none => some 0

/-- The texts at hand that an owner serves, by path. -/
def textsOf (l : Library) (owner : PeerId) : List (String × List UInt8) :=
  l.entries.filterMap fun (source, a) =>
    match a with
    | .available text => if source.owner = owner then some (source.path, text) else none
    | .fetching _ => none

/-! ### What each operation does to what is known -/

theorem lookup_filter_ne (entries : List (SourceId × Availability)) {s t : SourceId}
    (h : t ≠ s) : (entries.filter (·.1 ≠ s)).lookup t = entries.lookup t := by
  induction entries with
  | nil => rfl
  | cons e rest ih =>
    by_cases hk : e.1 = s
    · have hn : (t == e.1) = false := by rw [hk]; simpa using h
      rw [List.filter_cons_of_neg (by simp [hk]), ih, List.lookup_cons, hn]
    · rw [List.filter_cons_of_pos (by simpa using hk), List.lookup_cons, List.lookup_cons, ih]

theorem lookup_filter_self (entries : List (SourceId × Availability)) (s : SourceId) :
    (entries.filter (·.1 ≠ s)).lookup s = none := by
  induction entries with
  | nil => rfl
  | cons e rest ih =>
    by_cases hk : e.1 = s
    · rw [List.filter_cons_of_neg (by simp [hk]), ih]
    · have hn : (s == e.1) = false := by simpa using Ne.symm hk
      rw [List.filter_cons_of_pos (by simpa using hk), List.lookup_cons, hn, ih]

theorem find?_set (l : Library) (s t : SourceId) (a : Availability) :
    (l.set s a).find? t = if t = s then some a else l.find? t := by
  by_cases h : t = s
  · subst h
    simp [set, find?]
  · have hn : (t == s) = false := by simpa using h
    simp only [set, find?, List.lookup_cons, hn, h, if_false]
    exact lookup_filter_ne l.entries h

theorem find?_remove (l : Library) (s t : SourceId) :
    (l.remove s).find? t = if t = s then none else l.find? t := by
  by_cases h : t = s
  · subst h
    simp only [remove, find?, if_true]
    exact lookup_filter_self l.entries t
  · simp only [remove, find?, h, if_false]
    exact lookup_filter_ne l.entries h

theorem find?_fetch (l : Library) (s t : SourceId) :
    (l.fetch s).find? t =
      if t = s then some ((l.find? s).getD (.fetching 0)) else l.find? t := by
  unfold fetch
  split
  · rename_i h
    obtain ⟨a, ha⟩ := Option.isSome_iff_exists.1 h
    by_cases e : t = s <;> simp [e, ha]
  · rename_i h
    have hn : l.find? s = none := by simpa using h
    rw [hn]
    exact find?_set l s t (.fetching 0)

end Library

end RobotArena
