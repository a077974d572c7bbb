/-!
# Bounded queues

A queue takes an item only while it is shorter than its capacity. `items` is its view, oldest
first.
-/

namespace RobotArena

/-- A queue with a capacity. -/
structure Queue (α : Type) where
  capacity : Nat
  items : List α := []

namespace Queue

variable {α : Type}

/-- Adds an item at the end; nothing if the queue is full. -/
def push? (q : Queue α) (item : α) : Option (Queue α) :=
  if q.items.length < q.capacity then some { q with items := q.items ++ [item] } else none

/-- Removes the oldest item. -/
def pop (q : Queue α) : Queue α :=
  { q with items := q.items.tail }

/-- Removes every item. -/
def clear (q : Queue α) : Queue α :=
  { q with items := [] }

/-- The oldest item. -/
def front? (q : Queue α) : Option α :=
  q.items.head?

/-- Whether nothing can be added. -/
def isFull (q : Queue α) : Bool :=
  q.capacity ≤ q.items.length

theorem items_push? {q r : Queue α} {item : α} (h : q.push? item = some r) :
    r.items = q.items ++ [item] := by
  unfold push? at h
  split at h
  · cases h; rfl
  · cases h

theorem push?_eq_none_iff {q : Queue α} {item : α} : q.push? item = none ↔ q.isFull = true := by
  unfold push? isFull
  split <;> simp <;> omega

end Queue

end RobotArena
