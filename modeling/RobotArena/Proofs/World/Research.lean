import RobotArena.Proofs.World.Passes

/-!
# Research queues

A facility takes technologies into its queue when its program asks for that, and they leave it at the front:
the program takes them out, or they are researched. A tick has one pass of the facilities, and what it accepts
and removes is read off the registers and the stock before and after it. The main statement is that what was
accepted is what was removed, in the same order, and then what is still in the queue.
-/

namespace RobotArena

/-! ### The registers of a facility -/

namespace Memory

/-- How the last operation ended. -/
def facilityStatus (m : Memory) : UInt8 :=
  m.byte Layout.facilityStatus

/-- How many technologies are shown to be queued. -/
def queueLength (m : Memory) : UInt32 :=
  m.wordAt Layout.facilityQueueLength

/-- The technology in the hash register. -/
def technology (m : Memory) : TechHash :=
  ⟨m.bytesAt Layout.facilityHash 32, m.length_bytesAt _ _⟩

variable (m : Memory)

theorem facilityOp_answerFacility (status : UInt8) : (m.answerFacility status).byte Layout.facilityOp = 0 := by
  unfold answerFacility
  rw [byte_setByte, if_pos ⟨rfl, by decide⟩]

theorem facilityStatus_answerFacility (status : UInt8) :
    (m.answerFacility status).facilityStatus = status := by
  have apart : ¬(Layout.facilityStatus = Layout.facilityOp ∧ Layout.facilityStatus < size) := by decide
  unfold answerFacility facilityStatus
  rw [byte_setByte, if_neg apart, byte_setByte, if_pos ⟨rfl, by decide⟩]

theorem technology_congr {m m' : Memory}
    (same : m'.bytesAt Layout.facilityHash 32 = m.bytesAt Layout.facilityHash 32) : m'.technology = m.technology := by
  unfold technology
  simp only [same]

theorem technology_setBytes {address : Nat} {bs : List UInt8}
    (apart : address + bs.length ≤ Layout.facilityHash) : (m.setBytes address bs).technology = m.technology :=
  technology_congr (m.bytesAt_setBytes_outside address (.inr apart))

theorem technology_setFacilityHash (hash : TechHash) : (m.setFacilityHash hash.bytes).technology = hash := by
  have room : Layout.facilityHash + hash.bytes.length ≤ size := by
    rw [hash.size]
    decide
  have read : (m.setFacilityHash hash.bytes).bytesAt Layout.facilityHash 32 = hash.bytes := by
    have bytes := m.bytesAt_setBytes_self Layout.facilityHash room
    rwa [hash.size] at bytes
  unfold technology
  simp only [read]

theorem technology_answerFacility (status : UInt8) : (m.answerFacility status).technology = m.technology := by
  have op : Layout.facilityOp + [(0 : UInt8)].length ≤ Layout.facilityHash := by decide
  have ended : Layout.facilityStatus + [status].length ≤ Layout.facilityHash := Nat.le_of_ble_eq_true rfl
  exact (technology_setBytes _ op).trans (m.technology_setBytes ended)

theorem facilityOp_setQueueLength (length : UInt32) :
    (m.setQueueLength length).byte Layout.facilityOp = m.byte Layout.facilityOp := by
  have apart : Layout.facilityOp < Layout.facilityQueueLength := by decide
  unfold setQueueLength setWord
  exact byte_setBytes_outside _ _ (.inl apart)

theorem facilityStatus_setQueueLength (length : UInt32) :
    (m.setQueueLength length).facilityStatus = m.facilityStatus := by
  have apart : Layout.facilityStatus < Layout.facilityQueueLength := by decide
  unfold facilityStatus setQueueLength setWord
  exact byte_setBytes_outside _ _ (.inl apart)

theorem technology_setQueueLength (length : UInt32) : (m.setQueueLength length).technology = m.technology := by
  have apart : Layout.facilityQueueLength + (Word.toBytes length).length ≤ Layout.facilityHash := by
    rw [Word.length_toBytes]
    decide
  exact m.technology_setBytes apart

theorem queueLength_setQueueLength (length : UInt32) : (m.setQueueLength length).queueLength = length := by
  have room : Layout.facilityQueueLength + 4 ≤ size := by decide
  unfold queueLength setQueueLength setWord
  exact wordAt_setBytes_toBytes _ _ _ room

end Memory

namespace Facility

/-! ### Visits -/

/-- A technology that has left a queue, and how. -/
inductive Removal where
  | returned (hash : TechHash)
  | researched (hash : TechHash)
  deriving DecidableEq

/-- The technology that has left. -/
def Removal.hash : Removal → TechHash
  | returned hash | researched hash => hash

/-- The technology, if it was researched. -/
def Removal.researched? : Removal → Option TechHash
  | returned _ => none
  | researched hash => some hash

/-- What is seen of a facility in a pass: its stock and the memory of its program, before and after it. -/
structure Visit where
  before : Stock
  after : Stock
  asked : Option Memory
  answered : Option Memory

namespace Visit

variable (v : Visit)

/-- The technology that the pass has put in the queue: the one in the hash register, if the program asked for
that and was told that all is well. -/
def accepted : List TechHash :=
  match v.asked, v.answered with
  | some m, some m' =>
    if m.byte Layout.facilityOp = 1 ∧ m'.facilityStatus = 1 then [m.technology] else []
  | _, _ => []

/-- The technology that the program has got from the queue: the one in the hash register afterwards, if it
asked for that and was told that all is well. -/
def returned : List TechHash :=
  match v.asked, v.answered with
  | some m, some m' =>
    if m.byte Layout.facilityOp = 2 ∧ m'.facilityStatus = 1 then [m'.technology] else []
  | _, _ => []

/-- The technologies that have been researched in the pass. -/
def researched : List TechHash :=
  v.after.researched.drop v.before.researched.length

/-- What has left the queue. -/
def removed : List Removal :=
  v.returned.map .returned ++ v.researched.map .researched

end Visit

variable (settings : Settings) (technologies : List TechHash)

/-- The status with which an operation has to end: 1 if it can be carried out, 2 if the queue is full, 3 if the
technology is not known, 4 if nothing is queued, and 5 if there is no such operation. -/
def verdict (queue : List TechHash) (m : Memory) : UInt8 :=
  if m.byte Layout.facilityOp = 1 then
    if m.technology ∉ technologies then 3 else if settings.facilityQueueLength ≤ queue.length then 2 else 1
  else if m.byte Layout.facilityOp = 2 then if queue = [] then 4 else 1
  else 5

/-- What a program finds after a pass: an operation has ended, with a status, and without one the status is as
it was. The queue's length is shown, as far as a word can count it. -/
structure Visit.Answers (v : Visit) (m m' : Memory) : Prop where
  cleared : m'.byte Layout.facilityOp = 0
  status : m.byte Layout.facilityOp ≠ 0 → m'.facilityStatus = verdict settings technologies v.before.queue m
  idle : m.byte Layout.facilityOp = 0 → m'.facilityStatus = m.facilityStatus
  length : m'.queueLength = UInt32.ofNat v.after.queue.length
  exact : v.after.queue.length < UInt32.size → m'.queueLength.toNat = v.after.queue.length

/-- A pass keeps the order of the queue, and finds room in it for what it accepts, which it knows. It researches
at most one technology, and pays for it out of the stored units. It does so whenever there are enough of them and
the program has left something in the queue, and then researches what stands at its front. A program that was
there is there afterwards, with its answer. -/
structure Visit.Proper (v : Visit) : Prop where
  queued : v.before.queue ++ v.accepted = v.removed.map Removal.hash ++ v.after.queue
  known : ∀ hash ∈ v.accepted, hash ∈ technologies
  room : v.before.queue.length ≤ settings.facilityQueueLength →
    v.after.queue.length ≤ settings.facilityQueueLength
  earned : v.after.researched = v.before.researched ++ v.researched
  single : v.researched.length ≤ 1
  paid : v.after.stored.toNat + v.researched.length * settings.researchCost.toNat = v.before.stored.toNat
  prompt : ∀ hash queue, v.before.queue ++ v.accepted = v.returned ++ hash :: queue →
    settings.researchCost ≤ v.before.stored → v.researched = [hash]
  answers : ∀ m, v.asked = some m → ∃ m', v.answered = some m' ∧ v.Answers settings technologies m m'

/-- What has been accepted in some visits of a facility is what has been removed and then what is in the queue.
All of it is known, and there is room for what is in the queue. -/
structure Balanced (visits : List Visit) (queue researched : List TechHash) : Prop where
  queued : visits.flatMap Visit.accepted = (visits.flatMap Visit.removed).map Removal.hash ++ queue
  earned : researched = (visits.flatMap Visit.removed).filterMap Removal.researched?
  room : queue.length ≤ settings.facilityQueueLength
  known : ∀ hash ∈ queue ++ researched, hash ∈ technologies

/-! ### One pass -/

/-- What an operation can do: nothing, where none is asked for; a technology is put in the queue, or it is
taken out; or the operation is refused. -/
theorem operate_cases (s : Stock) (m : Memory) :
    (m.byte Layout.facilityOp = 0 ∧ operate settings technologies s m = (s, m)) ∨
    (m.byte Layout.facilityOp = 1 ∧ m.technology ∈ technologies ∧ s.queue.length < settings.facilityQueueLength ∧
      verdict settings technologies s.queue m = 1 ∧ operate settings technologies s m =
        ({ s with queue := s.queue ++ [m.technology] }, m.answerFacility 1)) ∨
    (∃ hash queue, m.byte Layout.facilityOp = 2 ∧ s.queue = hash :: queue ∧
      verdict settings technologies s.queue m = 1 ∧ operate settings technologies s m =
        ({ s with queue }, (m.setFacilityHash hash.bytes).answerFacility 1)) ∨
    (m.byte Layout.facilityOp ≠ 0 ∧ verdict settings technologies s.queue m ≠ 1 ∧
      operate settings technologies s m = (s, m.answerFacility (verdict settings technologies s.queue m))) := by
  by_cases idle : m.byte Layout.facilityOp = 0
  · exact .inl ⟨idle, if_pos idle⟩
  right
  have op : m.facilityOp = m.byte Layout.facilityOp := rfl
  unfold operate verdict
  rw [op, if_neg idle]
  by_cases first : m.byte Layout.facilityOp = 1
  · have hash : (⟨m.facilityHash, m.length_facilityHash⟩ : TechHash) = m.technology := rfl
    rw [if_pos first, if_pos first, hash, enqueue]
    by_cases known : m.technology ∈ technologies
    · have contains : technologies.contains m.technology = true := List.contains_iff_mem.mpr known
      rw [contains, if_neg (not_not_intro known)]
      by_cases full : settings.facilityQueueLength ≤ s.queue.length
      · rw [if_pos full, if_pos full]
        exact .inr (.inr ⟨idle, by decide, rfl⟩)
      · rw [if_neg full, if_neg full]
        exact .inl ⟨first, known, Nat.lt_of_not_le full, rfl, rfl⟩
    · have contains : technologies.contains m.technology = false :=
        Bool.eq_false_iff.mpr fun contains => known (List.contains_iff_mem.mp contains)
      rw [contains, if_pos known]
      exact .inr (.inr ⟨idle, by decide, rfl⟩)
  · rw [if_neg first, if_neg first]
    by_cases second : m.byte Layout.facilityOp = 2
    · rw [if_pos second, if_pos second]
      cases waiting : s.queue with
      | nil => exact .inr (.inr ⟨idle, by decide, rfl⟩)
      | cons hash queue => exact .inr (.inl ⟨hash, queue, second, rfl, rfl, rfl⟩)
    · rw [if_neg second, if_neg second]
      exact .inr (.inr ⟨idle, by decide, rfl⟩)

/-- An operation has left a stock for research: it moved the queue, and no more. -/
structure Visit.Works (v : Visit) (worked : Stock) : Prop where
  queued : v.before.queue ++ v.accepted = v.returned ++ worked.queue
  known : ∀ hash ∈ v.accepted, hash ∈ technologies
  room : v.before.queue.length ≤ settings.facilityQueueLength →
    worked.queue.length ≤ settings.facilityQueueLength
  stored : worked.stored = v.before.stored
  researched : worked.researched = v.before.researched

/-- What an operation does to the queue, told by what is read off the registers. -/
theorem works_operate (s : Stock) (m : Memory) (length : UInt32) (after : Stock) :
    Visit.Works settings technologies
      ⟨s, after, some m, some ((operate settings technologies s m).2.setQueueLength length)⟩
      (operate settings technologies s m).1 := by
  rcases operate_cases settings technologies s m with
    ⟨idle, done⟩ | ⟨first, known, room, _, done⟩ | ⟨hash, queue, second, waiting, _, done⟩ |
      ⟨_, refused, done⟩ <;> rw [done]
  · exact {
      queued := by simp [Visit.accepted, Visit.returned, idle]
      known := by simp [Visit.accepted, idle]
      room := id
      stored := rfl
      researched := rfl }
  · exact {
      queued := by
        simp [Visit.accepted, Visit.returned, first, Memory.facilityStatus_setQueueLength,
          Memory.facilityStatus_answerFacility]
      known := by simp [Visit.accepted, first, known]
      room := fun _ => by
        rw [List.length_append]
        exact room
      stored := rfl
      researched := rfl }
  · exact {
      queued := by
        simp [Visit.accepted, Visit.returned, second, waiting, Memory.facilityStatus_setQueueLength,
          Memory.facilityStatus_answerFacility, Memory.technology_setQueueLength,
          Memory.technology_answerFacility, Memory.technology_setFacilityHash]
      known := by simp [Visit.accepted, second]
      room := fun fits => by
        rw [waiting] at fits
        exact Nat.le_of_succ_le fits
      stored := rfl
      researched := rfl }
  · have status : ((m.answerFacility (verdict settings technologies s.queue m)).setQueueLength
        length).facilityStatus ≠ 1 := by
      rwa [Memory.facilityStatus_setQueueLength, Memory.facilityStatus_answerFacility]
    exact {
      queued := by simp [Visit.accepted, Visit.returned, status]
      known := by simp [Visit.accepted, status]
      room := id
      stored := rfl
      researched := rfl }

/-- What research does to the queue. -/
theorem research_moves (s : Stock) :
    ∃ done, s.queue = done ++ (research settings s).queue ∧
      (research settings s).researched = s.researched ++ done ∧ done.length ≤ 1 ∧
      (research settings s).stored.toNat + done.length * settings.researchCost.toNat = s.stored.toNat ∧
      ∀ hash queue, s.queue = hash :: queue → settings.researchCost ≤ s.stored → done = [hash] := by
  obtain ⟨stored, queue, researched⟩ := s
  unfold research
  cases queue with
  | nil => exact ⟨[], rfl, (List.append_nil _).symm, Nat.zero_le 1, by simp, nofun⟩
  | cons hash queue =>
    dsimp only
    split
    · rename_i enough
      have paid := UInt32.toNat_sub_of_le _ _ enough
      rw [UInt32.le_iff_toNat_le] at enough
      refine ⟨[hash], rfl, rfl, Nat.le_refl 1, ?_, ?_⟩
      · rw [paid, List.length_singleton, Nat.one_mul, Nat.sub_add_cancel enough]
      · intro front rest waiting _
        cases waiting
        rfl
    · rename_i less
      exact ⟨[], rfl, (List.append_nil _).symm, Nat.zero_le 1, by simp, fun _ _ _ enough => absurd enough less⟩

/-- What a pass does for a facility. -/
def visit (s : Stock) : Option Memory → Visit
  | none => ⟨s, research settings s, none, none⟩
  | some m =>
    let worked := operate settings technologies s m
    let after := research settings worked.1
    ⟨s, after, some m, some (worked.2.setQueueLength (UInt32.ofNat after.queue.length))⟩

theorem before_visit (s : Stock) (asked : Option Memory) :
    (visit settings technologies s asked).before = s := by
  cases asked <;> rfl

theorem asked_visit (s : Stock) (asked : Option Memory) :
    (visit settings technologies s asked).asked = asked := by
  cases asked <;> rfl

/-- How an operation ends, told by the registers. -/
theorem operate_ends (s : Stock) (m : Memory) :
    (operate settings technologies s m).2.byte Layout.facilityOp = 0 ∧
      (m.byte Layout.facilityOp ≠ 0 → (operate settings technologies s m).2.facilityStatus =
        verdict settings technologies s.queue m) ∧
      (m.byte Layout.facilityOp = 0 →
        (operate settings technologies s m).2.facilityStatus = m.facilityStatus) := by
  rcases operate_cases settings technologies s m with
    ⟨idle, done⟩ | ⟨first, _, _, fine, done⟩ | ⟨hash, queue, second, _, fine, done⟩ | ⟨some, _, done⟩ <;>
    rw [done]
  · exact ⟨idle, fun some => absurd idle some, fun _ => rfl⟩
  · rw [fine]
    exact ⟨m.facilityOp_answerFacility _, fun _ => m.facilityStatus_answerFacility _,
      fun idle => absurd (first.symm.trans idle) (by decide)⟩
  · rw [fine]
    exact ⟨Memory.facilityOp_answerFacility _ _, fun _ => Memory.facilityStatus_answerFacility _ _,
      fun idle => absurd (second.symm.trans idle) (by decide)⟩
  · exact ⟨m.facilityOp_answerFacility _, fun _ => m.facilityStatus_answerFacility _,
      fun idle => absurd idle some⟩

theorem answers_visit (s : Stock) (m : Memory) :
    ∃ m', (visit settings technologies s (some m)).answered = some m' ∧
      (visit settings technologies s (some m)).Answers settings technologies m m' := by
  obtain ⟨cleared, status, idle⟩ := operate_ends settings technologies s m
  refine ⟨_, rfl, ?_⟩
  exact {
    cleared := (Memory.facilityOp_setQueueLength _ _).trans cleared
    status := fun some => (Memory.facilityStatus_setQueueLength _ _).trans (status some)
    idle := fun none => (Memory.facilityStatus_setQueueLength _ _).trans (idle none)
    length := Memory.queueLength_setQueueLength _ _
    exact := fun small => (congrArg UInt32.toNat (Memory.queueLength_setQueueLength _ _)).trans
      (UInt32.toNat_ofNat_of_lt' small) }

variable {settings technologies} in
/-- Research ends what an operation has begun. -/
theorem Visit.Works.proper {v : Visit} {worked : Stock} (h : v.Works settings technologies worked)
    (after : v.after = research settings worked)
    (answers : ∀ m, v.asked = some m → ∃ m', v.answered = some m' ∧ v.Answers settings technologies m m') :
    v.Proper settings technologies := by
  obtain ⟨done, left, earned, single, paid, prompt⟩ := research_moves settings worked
  rw [← after] at left
  rw [← after, h.researched] at earned
  rw [← after, h.stored] at paid
  have new : v.researched = done := by
    rw [Visit.researched, earned, List.drop_left]
  have removed : v.removed.map Removal.hash = v.returned ++ done := by
    simp [Visit.removed, new, Function.comp_def, Removal.hash]
  have queued : v.before.queue ++ v.accepted = v.removed.map Removal.hash ++ v.after.queue := by
    rw [h.queued, removed, left, List.append_assoc]
  have room : v.before.queue.length ≤ settings.facilityQueueLength →
      v.after.queue.length ≤ settings.facilityQueueLength := by
    intro fits
    have fits := h.room fits
    rw [left, List.length_append] at fits
    omega
  subst new
  refine ⟨queued, h.known, room, earned, single, paid, fun hash queue waiting enough => ?_, answers⟩
  rw [h.queued] at waiting
  exact prompt hash queue (List.append_cancel_left waiting) (h.stored ▸ enough)

theorem proper_visit (s : Stock) (asked : Option Memory) :
    (visit settings technologies s asked).Proper settings technologies := by
  cases asked with
  | none =>
    have idle : Visit.Works settings technologies ⟨s, research settings s, none, none⟩ s :=
      ⟨List.append_nil _, fun _ none => absurd none List.not_mem_nil, id, rfl, rfl⟩
    exact idle.proper rfl nofun
  | some m =>
    refine (works_operate settings technologies s m _ _).proper rfl ?_
    rintro m' same
    cases same
    exact answers_visit settings technologies s m

/-! ### Pass after pass -/

variable {settings technologies}

theorem Balanced.new : Balanced settings technologies [] [] [] :=
  ⟨rfl, rfl, Nat.zero_le _, fun _ none => absurd none List.not_mem_nil⟩

theorem Balanced.visit {visits : List Visit} {v : Visit}
    (h : Balanced settings technologies visits v.before.queue v.before.researched)
    (proper : v.Proper settings technologies) :
    Balanced settings technologies (visits ++ [v]) v.after.queue v.after.researched := by
  have removed : (visits ++ [v]).flatMap Visit.removed = visits.flatMap Visit.removed ++ v.removed := by
    rw [List.flatMap_append, List.flatMap_singleton]
  have earned : v.researched = v.removed.filterMap Removal.researched? := by
    simp [Visit.removed, List.filterMap_map, Function.comp_def, Removal.researched?]
  constructor
  · rw [removed, List.flatMap_append, List.flatMap_singleton, h.queued, List.append_assoc, proper.queued,
      List.map_append, List.append_assoc]
  · rw [removed, proper.earned, h.earned, earned, List.filterMap_append]
  · exact proper.room h.room
  · have old : ∀ hash ∈ v.before.queue ++ v.accepted, hash ∈ technologies := by
      intro hash member
      rcases List.mem_append.mp member with queued | new
      · exact h.known hash (List.mem_append_left _ queued)
      · exact proper.known hash new
    rw [proper.queued] at old
    intro hash member
    rcases List.mem_append.mp member with queued | done
    · exact old hash (List.mem_append_right _ queued)
    · rw [proper.earned] at done
      rcases List.mem_append.mp done with before | now
      · exact h.known hash (List.mem_append_right _ before)
      · have left : hash ∈ v.removed.map Removal.hash := by
          refine List.mem_map.mpr ⟨.researched hash, ?_, rfl⟩
          exact List.mem_append_right _ (List.mem_map_of_mem now)
        exact old hash (List.mem_append_left _ left)

end Facility

/-- What a facility holds. -/
def Attachment.stock? : Attachment → Option Facility.Stock
  | .facility stored queue researched => some ⟨stored, queue, researched⟩
  | _ => Option.none

namespace Entity

/-- What the entity's facility holds. -/
def stock? (e : Entity) : Option Facility.Stock :=
  e.attachment.stock?

/-- The memory of the entity's program. -/
def memory? (e : Entity) : Option Memory :=
  e.processor.map (·.memory)

/-- The number of an entity, and the queue of its facility with what that has researched. -/
def shelf (e : Entity) : EntityId × Option (List TechHash × List TechHash) :=
  (e.id, e.stock?.map fun s => (s.queue, s.researched))

theorem shelf_eq_of_mount {e e' : Entity} (mount : e'.mount = e.mount) : e'.shelf = e.shelf := by
  have seen : ∀ e : Entity, e.shelf =
      (e.mount.id, e.mount.attachment.stock?.map fun s => (s.queue, s.researched)) := by
    intro e
    unfold shelf stock? Entity.mount
    cases e.attachment <;> rfl
  rw [seen, seen, mount]

theorem shelf_of_build {settings : Settings} {id : EntityId} {b : Blueprint} {shelf : List TechHash × List TechHash}
    (known : (build settings id b).shelf.2 = some shelf) : shelf = ([], []) := by
  have new : ∀ kind, (Attachment.ofKind settings kind).stock?.map (fun s => (s.queue, s.researched)) = some shelf →
      shelf = ([], []) := by
    intro kind known
    cases kind <;> cases known
    rfl
  exact new b.attachment known

variable {settings : Settings} {technologies : List TechHash}

variable (settings technologies) in
theorem visit_research {e : Entity} {s : Facility.Stock} (stock : e.stock? = some s) :
    (e.research settings technologies).stock? = some (Facility.visit settings technologies s e.memory?).after ∧
      (e.research settings technologies).memory? =
        (Facility.visit settings technologies s e.memory?).answered := by
  unfold stock? Attachment.stock? at stock
  split at stock
  · rename_i attachment
    cases stock
    unfold research
    rw [attachment]
    unfold memory? stock?
    cases processor : e.processor with
    | none => exact ⟨rfl, by simp [Facility.visit]⟩
    | some p => exact ⟨rfl, rfl⟩
  · cases stock

theorem research_of_none {e : Entity} (none : e.stock? = none) : e.research settings technologies = e := by
  unfold research
  split
  · rename_i attachment
    rw [stock?, attachment] at none
    cases none
  · rfl

theorem id_research (e : Entity) : (e.research settings technologies).id = e.id := by
  unfold research
  split
  · dsimp only
    split <;> rfl
  · rfl

end Entity

namespace World

open Facility (Visit Balanced)

variable (settings : Settings) (technologies : List TechHash)

/-- What a pass of the facilities does for an entity, if it has a facility. -/
def visit? (w : World) (id : EntityId) : Option Visit := do
  let e ← w.find? id
  let e' ← (w.research settings technologies).find? id
  return ⟨← e.stock?, ← e'.stock?, e.memory?, e'.memory?⟩

/-- What some passes have done for an entity. -/
def visits (passes : List World) (id : EntityId) : List Visit :=
  passes.filterMap (visit? settings technologies · id)

variable {settings technologies} {w : World} {passes : List World}

theorem watches_shelf : Watches .facility Entity.shelf where
  mount _ _ := Entity.shelf_eq_of_mount
  turret _ settings e := by
    unfold Entity.shelf Entity.stock? Entity.fire
    split
    · rename_i turret _
      rw [turret]
      rfl
    · rfl
  facility other := absurd rfl other

variable (settings technologies) in
theorem visit?_of_mem (distinct : (w.entities.map (·.id)).Nodup) {e : Entity} (there : e ∈ w.entities) :
    w.visit? settings technologies e.id = e.stock?.map (Facility.visit settings technologies · e.memory?) := by
  have ids : (w.research settings technologies).entities.map (·.id) = w.entities.map (·.id) :=
    view_mapEntities Entity.id_research w
  have there' : e.research settings technologies ∈ (w.research settings technologies).entities :=
    List.mem_map_of_mem there
  have found := find?_of_mem (ids ▸ distinct) there'
  rw [Entity.id_research] at found
  unfold visit?
  rw [find?_of_mem distinct there, found]
  cases stock : e.stock? with
  | none => simp [stock]
  | some s =>
    obtain ⟨after, answered⟩ := Entity.visit_research settings technologies stock
    simp only [Option.bind_eq_bind, Option.bind_some, Option.map_some, stock, after, answered]
    cases e.memory? <;> rfl

theorem visit?_of_absent {id : EntityId} (absent : id ∉ w.entities.map (·.id)) :
    w.visit? settings technologies id = none := by
  have none : w.find? id = none := by
    refine List.find?_eq_none.mpr fun e there same => absent ?_
    exact of_decide_eq_true same ▸ List.mem_map_of_mem there
  rw [visit?, none]
  rfl

theorem visits_concat (id : EntityId) :
    visits settings technologies (passes ++ [w]) id =
      visits settings technologies passes id ++ (w.visit? settings technologies id).toList := by
  have last : [w].filterMap (visit? settings technologies · id) = (w.visit? settings technologies id).toList := by
    cases visited : w.visit? settings technologies id <;> simp [visited]
  rw [visits, List.filterMap_append, last]
  rfl

theorem visits_singleton {id : EntityId} {v : Visit} (visited : w.visit? settings technologies id = some v) :
    visits settings technologies [w] id = [v] :=
  List.filterMap_cons_some visited

variable (settings technologies) in
/-- A facility is balanced with what the passes so far have done for it. -/
def Audits (passes : List World) (x : EntityId × Option (List TechHash × List TechHash)) : Prop :=
  ∀ queue researched, x.2 = some (queue, researched) →
    Balanced settings technologies (visits settings technologies passes x.1) queue researched

variable (settings technologies) in
/-- Every facility is balanced, and the passes have done nothing for what is not there yet. -/
abbrev Audited : List World → World → Prop :=
  Tracks Entity.shelf (Audits settings technologies) fun passes id => visits settings technologies passes id = []

theorem Audits.balanced {e : Entity} (h : Audits settings technologies passes e.shelf) {s : Facility.Stock}
    (stock : e.stock? = some s) :
    Balanced settings technologies (visits settings technologies passes e.id) s.queue s.researched := by
  refine h s.queue s.researched ?_
  rw [Entity.shelf, stock]
  rfl

theorem Audits.research {e : Entity} (h : Audits settings technologies passes e.shelf)
    (distinct : (w.entities.map (·.id)).Nodup) (there : e ∈ w.entities) :
    Audits settings technologies (passes ++ [w]) (e.research settings technologies).shelf := by
  intro queue researched known
  obtain ⟨s', after, same⟩ := Option.map_eq_some_iff.mp known
  cases same
  cases stock : e.stock? with
  | none =>
    rw [Entity.research_of_none stock, stock] at after
    cases after
  | some s =>
    obtain ⟨known, _⟩ := Entity.visit_research settings technologies stock
    cases after.symm.trans known
    have visited := visit?_of_mem settings technologies distinct there
    rw [Entity.shelf, Entity.id_research, visits_concat, visited, stock]
    have before := h.balanced stock
    rw [← Facility.before_visit settings technologies s e.memory?] at before
    exact before.visit (Facility.proper_visit settings technologies s e.memory?)

theorem Audited.pass (h : Audited settings technologies passes w) (orderly : w.Orderly) :
    Audited settings technologies (passes ++ [w]) (w.research settings technologies) := by
  constructor
  · intro x seen
    obtain ⟨e, there, rfl⟩ := List.mem_map.mp seen
    exact (h.fits e there).research orderly.distinct there
  · intro id new
    rw [visits_concat, visit?_of_absent (orderly.absent_of_new new), h.fresh id new]
    rfl

theorem audits_of_build {id : EntityId} (none : visits settings technologies passes id = []) (b : Blueprint) :
    Audits settings technologies passes (Entity.build settings id b).shelf := by
  intro queue researched known
  cases Entity.shelf_of_build known
  exact none ▸ Balanced.new

/-- Whatever stands in the registers and whatever else happens in a world, each pass of the facilities visits
each of them properly, and what a facility has ever accepted is what has left its queue, in that order, and
then its queue. Of what has left the queue it has researched what its program did not get back. A tick of an
arena has exactly one pass, by `Arena.one_pass_of_tick`, and a course adds no facility with the last number,
where an arena ends. -/
theorem research_queues_are_faithful (settings : Settings) (technologies : List TechHash) (events : List Event) :
    let passes := World.passes settings technologies .facility {} events
    (∀ w ∈ passes, ∀ e ∈ w.entities, ∀ s, e.stock? = some s → ∃ v,
      w.visit? settings technologies e.id = some v ∧ v.before = s ∧ v.asked = e.memory? ∧
      v.Proper settings technologies) ∧
    ∀ e ∈ (World.course settings technologies {} events).entities, ∀ s, e.stock? = some s →
      Balanced settings technologies (visits settings technologies passes e.id) s.queue s.researched := by
  intro passes
  obtain ⟨audited, before⟩ := watches_shelf.tracks
    (fun _ _ orderly (h : Audited settings technologies _ _) => h.pass orderly)
    (fun _ _ b none => audits_of_build none b) (fun _ => rfl) events
  refine ⟨fun w member e there s stock => ?_, fun e there s stock => (audited.fits e there).balanced stock⟩
  obtain ⟨t, found⟩ := List.getElem?_of_mem member
  obtain ⟨orderly, _⟩ := before t w found
  refine ⟨Facility.visit settings technologies s e.memory?, ?_, Facility.before_visit settings technologies s _,
    Facility.asked_visit settings technologies s _, Facility.proper_visit settings technologies s _⟩
  rw [visit?_of_mem settings technologies orderly.distinct there, stock]
  rfl

/-- A memory in which every byte is the same. -/
def uniform (b : UInt8) : Memory :=
  ⟨Vector.replicate 16384 b⟩

theorem byte_uniform {b : UInt8} {address : Nat} (inside : address < 16384) : (uniform b).byte address = b := by
  rw [Memory.byte, dif_pos inside]
  exact Vector.getElem_replicate inside

theorem memory_of_tend {m : Memory} {e : Entity}
    (there : e ∈ (w.happen settings technologies (.tend fun _ p => { p with memory := m })).entities)
    (programmed : e.processor.isSome = true) : e.memory? = some m := by
  obtain ⟨old, _, rfl⟩ := List.mem_map.mp there
  obtain ⟨p, known⟩ := Option.isSome_iff_exists.mp programmed
  obtain ⟨q, _, rfl⟩ := Option.map_eq_some_iff.mp known
  exact congrArg (Option.map Processor.memory) known

/-- Five units are dug out, loaded and brought to a facility. -/
def supplying : List Event :=
  let asks (code : UInt8) : Event := .tend fun _ p => { p with memory := uniform code }
  [.deposit ⟨.zero, 30⟩, .spawn { team := ⟨1⟩, attachment := .extractor },
    .spawn { team := ⟨1⟩, attachment := .transporter }, .spawn { team := ⟨1⟩, attachment := .facility },
    asks 1, .device .extractor, .device .transporter, asks 2, .device .transporter]

/-- The program of the facility then asks for the technology in its hash register. -/
def laboratory : List Event :=
  supplying ++ [.tend fun _ p => { p with memory := uniform 1 }, .device .facility]

theorem laboratory_researches :
    let hash := (uniform 1).technology
    let passes := World.passes { researchCost := 5 } [hash] .facility {} laboratory
    ∃ v, visits { researchCost := 5 } [hash] passes ⟨3⟩ = [v] ∧ v.before = ⟨5, [], []⟩ ∧
      v.accepted = [hash] ∧ v.researched = [hash] := by
  intro hash passes
  let supplied := World.course { researchCost := 5 } [hash] {} supplying
  let w := supplied.happen { researchCost := 5 } [hash] (.tend fun _ p => { p with memory := uniform 1 })
  have once : passes = [w] := passes_append ..
  have here : w ∈ passes := by
    rw [once]
    exact List.mem_cons_self
  have known : (w.find? ⟨3⟩).map (fun e => (e.stock?, e.processor.isSome)) = some (some ⟨5, [], []⟩, true) := by
    decide +kernel
  obtain ⟨e, found, same⟩ := Option.map_eq_some_iff.mp known
  obtain ⟨there, number⟩ := mem_of_find? found
  obtain ⟨stock, programmed⟩ := Prod.mk.injEq _ _ _ _ ▸ same
  have memory : e.memory? = some (uniform 1) := memory_of_tend there programmed
  obtain ⟨visited, _⟩ := research_queues_are_faithful { researchCost := 5 } [hash] laboratory
  obtain ⟨v, visit, before, asked, proper⟩ := visited w here e there _ stock
  rw [memory] at asked
  obtain ⟨m', answered, answers⟩ := proper.answers _ asked
  have op : (uniform 1).byte Layout.facilityOp = 1 := byte_uniform (by decide)
  have fine : m'.facilityStatus = 1 := by
    rw [answers.status (by rw [op]; decide), before]
    simp [Facility.verdict, op, hash]
  have accepted : v.accepted = [hash] := by
    simp [Visit.accepted, asked, answered, op, fine, hash]
  have returned : v.returned = [] := by
    simp [Visit.returned, asked, answered, op]
  refine ⟨v, ?_, before, accepted, proper.prompt hash [] ?_ ?_⟩
  · rw [number] at visit
    rw [once]
    exact visits_singleton visit
  · rw [before, accepted, returned]
  · rw [before]
    exact UInt32.le_refl 5

end World

end RobotArena
