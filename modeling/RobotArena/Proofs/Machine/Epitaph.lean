import RobotArena.Proofs.Machine.Stopping

/-!
# The text of a trap

A trap leaves its text in the memory of the robot, cut to the room for it and ended by a byte of zero. As long
as a signal keeps the processor still, no tick of the engine changes it.
-/

namespace RobotArena

namespace Memory

open Layout

/-- What is read up to a byte of zero does not go past it. -/
theorem takeWhile_terminated (bs rest : List UInt8) :
    (bs ++ 0 :: rest).takeWhile (· != 0) = bs.takeWhile (· != 0) := by
  induction bs with
  | nil => rfl
  | cons b bs ih => rw [List.cons_append, List.takeWhile_cons, List.takeWhile_cons, ih]

/-- As much of a text as there is room for, up to its first byte of zero. -/
def legible (message : String) : List UInt8 :=
  ((Text.toBytes message).take 127).takeWhile (· != 0)

theorem readText_eq (m : Memory) :
    m.readText (UInt32.ofNat crashMessage) (UInt32.ofNat crashMessageCapacity) =
      .ok (Text.ofBytesLossy ((m.bytesAt crashMessage crashMessageCapacity).takeWhile (· != 0))) := rfl

theorem readText_setCrashMessage (m : Memory) (message : String) :
    (m.setCrashMessage message).readText (UInt32.ofNat crashMessage) (UInt32.ofNat crashMessageCapacity) =
      .ok (Text.ofBytesLossy (legible message)) := by
  have written : ∀ kept : List UInt8, kept.length ≤ 127 →
      ((m.setBytes crashMessage (kept ++ [0])).bytesAt crashMessage crashMessageCapacity).takeWhile (· != 0) =
        kept.takeWhile (· != 0) := by
    intro kept fits
    have length : (kept ++ [0]).length = kept.length + 1 := List.length_append
    have room : crashMessageCapacity = (kept ++ [0]).length + (127 - kept.length) := by
      rw [length, crashMessageCapacity]
      omega
    have inside : crashMessage + (kept ++ [0]).length ≤ size := by
      rw [length, crashMessage, size]
      omega
    rw [room, bytesAt_add, bytesAt_setBytes_self m _ inside, List.append_assoc]
    exact takeWhile_terminated kept _
  have cut : ((Text.toBytes message).take 127).length ≤ 127 := List.length_take_le _ _
  rw [readText_eq]
  exact congrArg (Except.ok ∘ Text.ofBytesLossy) (written _ cut)

end Memory

/-! ### Processors that recall a trap -/

namespace Processor

/-- What there is to read after a trap. -/
def epitaph (debug : DebugInfo) (t : Trap) : String :=
  Text.ofBytesLossy (Memory.legible (trapText debug t))

/-- The signal and the text of a processor's last trap are still those of another one. -/
structure Recalls (p p' : Processor) : Prop where
  signal : p'.signal = p.signal
  context : p'.crashContext = p.crashContext
  text : ∀ f ∈ Layout.crashFields, ∀ address, f.Has address → p'.memory.byte address = p.memory.byte address

variable {p p' p'' : Processor}

theorem Recalls.refl (p : Processor) : p.Recalls p :=
  ⟨rfl, rfl, fun _ _ _ _ => rfl⟩

theorem Recalls.trans (first : p.Recalls p') (second : p'.Recalls p'') : p.Recalls p'' where
  signal := second.signal.trans first.signal
  context := second.context.trans first.context
  text f member address has := (second.text f member address has).trans (first.text f member address has)

/-- A trap that is no end of the program, and its text, which is read as long as the processor recalls it. -/
structure Reports (p : Processor) (debug : DebugInfo) (t : Trap) : Prop where
  signal : p.signal = t.signal
  context : p.crashContext = some (UInt32.ofNat Layout.crashMessage)
  message : p.crashMessage? = some (epitaph debug t)

variable {debug : DebugInfo} {t : Trap}

theorem reports_raise (p : Processor) (crash : ¬(t.signal = .halt ∨ t.signal = .userCrash)) :
    (p.raise debug t).Reports debug t := by
  rw [p.raise_crash debug crash]
  refine ⟨rfl, rfl, ?_⟩
  exact congrArg Except.toOption (p.memory.readText_setCrashMessage (trapText debug t))

theorem crashMessage?_eq (context : p.crashContext = some (UInt32.ofNat Layout.crashMessage)) :
    p.crashMessage? = some (Text.ofBytesLossy
      ((p.memory.bytesAt Layout.crashMessage Layout.crashMessageCapacity).takeWhile (· != 0))) := by
  unfold crashMessage?
  rw [context]
  exact congrArg Except.toOption (Memory.readText_eq p.memory)

theorem Reports.recalls (h : p.Reports debug t) (recalls : p.Recalls p') : p'.Reports debug t := by
  have context := recalls.context.trans h.context
  have bytes : p'.memory.bytesAt Layout.crashMessage Layout.crashMessageCapacity =
      p.memory.bytesAt Layout.crashMessage Layout.crashMessageCapacity :=
    Memory.bytesAt_congr _ fun i low high => recalls.text _ List.mem_cons_self i ⟨low, high⟩
  refine ⟨recalls.signal.trans h.signal, context, ?_⟩
  rw [crashMessage?_eq context, bytes, ← crashMessage?_eq h.context, h.message]

theorem signal_ne_none (t : Trap) : t.signal ≠ .none := by
  cases t <;> nofun

end Processor

/-! ### Ticks -/

/-- The trap that ends a slice, if one does. -/
def SliceEnd.trap? : SliceEnd → Option Trap
  | .stopped t => some t
  | .exhausted | .yielded => none

theorem SliceEnd.trap?_eq_some {ending : SliceEnd} {t : Trap} : ending.trap? = some t ↔ ending = .stopped t := by
  cases ending <;> simp [trap?]

namespace Engine

variable (e : Engine) (g : Registry) (p : Processor) (host : Option Host)

/-- The trap that a processor's program runs into in a tick, and where the program's text comes from. -/
def trap? : Option (DebugInfo × Trap) := do
  let program ← p.running? g
  let t ← (e.slice program p host).2.trap?
  return (program.debug, t)

variable {e g p host}

theorem trap?_eq_some {debug : DebugInfo} {t : Trap} : e.trap? g p host = some (debug, t) ↔
    ∃ program, p.running? g = some program ∧ (e.slice program p host).2 = .stopped t ∧ program.debug = debug := by
  simp only [trap?, Option.bind_eq_bind, Option.bind_eq_some_iff, Option.pure_def, Option.some.injEq, Prod.mk.injEq]
  constructor
  · rintro ⟨program, runs, _, stopped, rfl, rfl⟩
    exact ⟨program, runs, SliceEnd.trap?_eq_some.mp stopped, rfl⟩
  · rintro ⟨program, runs, stopped, rfl⟩
    exact ⟨program, runs, t, SliceEnd.trap?_eq_some.mpr stopped, rfl, rfl⟩

theorem tick_of_trap {debug : DebugInfo} {t : Trap} (trapped : e.trap? g p host = some (debug, t)) :
    ∃ s, e.tick g p host = (.signaled t.signal s.executed, (p.left s).raise debug t, s.state.context.host) := by
  obtain ⟨program, runs, stopped, rfl⟩ := trap?_eq_some.mp trapped
  rw [e.tick_running host runs, runSlice_eq]
  rcases done : e.slice program p host with ⟨s, ending⟩
  rw [done] at stopped
  cases stopped
  exact ⟨s, rfl⟩

/-- A tick that loads no program leaves a processor alone that a signal keeps still. -/
theorem tick_of_signal (signal : p.signal ≠ .none) (stays : ∀ v, (e.tick g p host).1 ≠ .reloaded v) :
    (e.tick g p host).2.1 = p := by
  rcases e.tick_cases g p host with idle | ⟨v, _, _, _, reloaded⟩ | ⟨_, _, none, _⟩
  · rw [idle]
  · exact absurd (congrArg (·.1) reloaded) (stays v)
  · exact absurd none signal

theorem reports_of_trap {debug : DebugInfo} {t : Trap} (trapped : e.trap? g p host = some (debug, t))
    (crash : ¬(t.signal = .halt ∨ t.signal = .userCrash)) : (e.tick g p host).2.1.Reports debug t := by
  obtain ⟨s, ticked⟩ := tick_of_trap trapped
  rw [ticked]
  exact (p.left s).reports_raise crash

end Engine

end RobotArena
