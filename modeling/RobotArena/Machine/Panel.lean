import RobotArena.External.Error
import RobotArena.Geometry
import RobotArena.Identity

/-!
# The panel

The buttons, labels and gauges that programs put up for their team's players. Programs name an
element by its number and can touch only elements of their own team. Elements are kept in the
order of their numbers; zero is never a number.
-/

namespace RobotArena

/-- What an element looks like. -/
inductive ElementKind where
  | button
  | label
  | gauge
  deriving DecidableEq, Repr

/-- The number that stands for the kind in a call. -/
def ElementKind.code : ElementKind → UInt32
  | .button => 0
  | .label => 1
  | .gauge => 2

/-- The kind that a number stands for. -/
def ElementKind.ofCode? (code : UInt32) : Option ElementKind :=
  [.button, .label, .gauge].find? (·.code == code)

/-- An element of the panel. -/
structure Element where
  owner : EntityId
  team : TeamId
  kind : ElementKind
  position : Vec2
  value : Binary32 := 0
  label : String := ""
  deriving DecidableEq, Repr

/-- The elements by number, and the number of the next one. -/
structure Panel where
  elements : List (UInt32 × Element) := []
  nextId : UInt32 := 1
  deriving DecidableEq, Repr

namespace Panel

/-- Puts an element at the place of its number. -/
def place (id : UInt32) (e : Element) : List (UInt32 × Element) → List (UInt32 × Element)
  | [] => [(id, e)]
  | (i, f) :: rest =>
    if id < i then (id, e) :: (i, f) :: rest
    else if id = i then (id, e) :: rest
    else (i, f) :: place id e rest

/-- The number after a number; zero is left out. -/
def following (id : UInt32) : UInt32 :=
  if id + 1 = 0 then 1 else id + 1

/-- Puts up an element. Answers its number. -/
def create (p : Panel) (e : Element) : UInt32 × Panel :=
  (p.nextId, ⟨place p.nextId e p.elements, following p.nextId⟩)

/-- The element with a number. -/
def find? (p : Panel) (id : UInt32) : Option Element :=
  p.elements.lookup id

/-- The element with a number, if it belongs to a team. -/
def owned (p : Panel) (team : TeamId) (id : UInt32) : Except CallError Element :=
  match p.find? id with
  | none => .error (.unknownElement id)
  | some e => if e.team = team then .ok e else .error (.notOwner id)

/-- Changes the value and the label of a team's element. -/
def update (p : Panel) (team : TeamId) (id : UInt32) (value : Binary32) (label : String) :
    Except CallError Panel := do
  let e ← p.owned team id
  return { p with elements := place id { e with value, label } p.elements }

/-- Takes a team's element down. Answers what it was. -/
def destroy (p : Panel) (team : TeamId) (id : UInt32) : Except CallError (Element × Panel) := do
  let e ← p.owned team id
  return (e, { p with elements := p.elements.filter (·.1 ≠ id) })

/-- Takes down every element that an entity put up. -/
def removeOwner (p : Panel) (owner : EntityId) : Panel :=
  { p with elements := p.elements.filter (·.2.owner ≠ owner) }

/-! ### What each operation does to the element with a number -/

theorem lookup_place (id i : UInt32) (e : Element) (es : List (UInt32 × Element)) :
    (place id e es).lookup i = if i = id then some e else es.lookup i := by
  induction es with
  | nil =>
    by_cases h : i = id
    · simp [place, h]
    · have hn : (i == id) = false := by simpa using h
      simp [place, List.lookup_cons, h, hn]
  | cons f rest ih =>
    obtain ⟨j, f⟩ := f
    simp only [place]
    split
    · by_cases h : i = id
      · simp [h]
      · have hn : (i == id) = false := by simpa using h
        simp [List.lookup_cons, h, hn]
    · split
      · rename_i h
        subst h
        by_cases h : i = id
        · simp [h]
        · have hn : (i == id) = false := by simpa using h
          simp [List.lookup_cons, h, hn]
      · rename_i hne
        simp only [List.lookup_cons, ih]
        by_cases hj : i = j
        · simp [hj, Ne.symm hne]
        · have hn : (i == j) = false := by simpa using hj
          simp [hn]

theorem find?_create (p : Panel) (e : Element) (i : UInt32) :
    (p.create e).2.find? i = if i = p.nextId then some e else p.find? i :=
  lookup_place p.nextId i e p.elements

end Panel

end RobotArena
