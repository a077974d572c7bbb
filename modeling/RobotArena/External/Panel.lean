import RobotArena.External.Call

/-!
# Panel functions

Putting up, changing and taking down elements of the panel, and hearing of clicks on them.
-/

namespace RobotArena.External

/-- The greatest number of bytes of an element's label. -/
def maxElementLabel : UInt32 := 64

/-- Puts up an element of a kind at a point. Answers its number. -/
def guiCreate : External :=
  ofWords 27 "gui_create" 12 4 fun args => do
    match ElementKind.ofCode? (args 0) with
    | none => throw (.invalidArgument "gui kind")
    | some kind =>
      let h ← Call.host
      let (id, panel) := h.panel.create
        { owner := h.entity, team := h.team, kind := kind, position := args.point 1 }
      Call.setHost { h with panel }
      return [id]

/-- Changes the value of an element, and its label to the text at an address. -/
def guiUpdate : External :=
  ofWords 28 "gui_update" 16 0 fun args => do
    Call.requireLength (args 3) maxElementLabel
    let h ← Call.host
    let bytes ← Call.read (args 2) (args 3)
    let panel ← Call.ofExcept
      (h.panel.update h.team (args 0) (args.number 1) (Text.ofBytesLossy bytes))
    Call.setHost { h with panel }
    return []

/-- Takes an element down. -/
def guiDestroy : External :=
  ofWords 29 "gui_destroy" 4 0 fun args => do
    let h ← Call.host
    let (_, panel) ← Call.ofExcept (h.panel.destroy h.team (args 0))
    Call.setHost { h with panel }
    return []

/-- Takes the number of the element of the oldest click; zero if there is none. -/
def guiPoll : External :=
  ofWords 32 "gui_poll" 0 4 fun _ => do
    let _ ← Call.host
    let id := (← get).queues.uiEvents.front?.getD 0
    modify fun c => { c with queues := { c.queues with uiEvents := c.queues.uiEvents.pop } }
    return [id]

/-- The panel functions. -/
def panel : List External :=
  [guiCreate, guiUpdate, guiDestroy, guiPoll]

end RobotArena.External
