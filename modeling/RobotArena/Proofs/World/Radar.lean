import RobotArena.Proofs.World.Devices

/-!
# Radar

A radar that has been asked shows the nearest of what it can see: other entities, and deposits that hold
something. Of two that are as near, it shows an entity before a deposit, and the one with the lower number
first. `Survey` says which ones are shown, and `Memory.Reports` how a program finds them.
-/

namespace RobotArena

/-! ### Sorting by a key -/

theorem pairwise_zipIdx {α : Type} (l : List α) : l.zipIdx.Pairwise (·.2 < ·.2) := by
  have places : (l.zipIdx.map (·.2)).Pairwise (· < ·) := by
    rw [List.zipIdx_map_snd]
    exact List.pairwise_lt_range' 1
  exact List.pairwise_map.mp places

/-- What is sorted by a key stands in the order of the keys, and where they are equal, in the order in which
it stood. -/
theorem pairwise_mergeSort_key {α : Type} (key : α → Int) {before : α → α → Prop} {l : List α}
    (order : l.Pairwise before) :
    (l.mergeSort fun a b => decide (key a ≤ key b)).Pairwise fun a b =>
      key a < key b ∨ key a = key b ∧ before a b := by
  have trans : ∀ a b c : α, decide (key a ≤ key b) = true → decide (key b ≤ key c) = true →
      decide (key a ≤ key c) = true := by
    intro a b c
    simpa only [decide_eq_true_eq] using Int.le_trans
  have total : ∀ a b : α, (decide (key a ≤ key b) || decide (key b ≤ key a)) = true := by
    intro a b
    simpa only [Bool.or_eq_true, decide_eq_true_eq] using Int.le_total (key a) (key b)
  -- with their places, the things are sorted by key and place, and no two have the same place
  have perm := List.mergeSort_perm l.zipIdx (List.zipIdxLE fun a b => decide (key a ≤ key b))
  have apart : (l.zipIdx.mergeSort (List.zipIdxLE fun a b => decide (key a ≤ key b))).Pairwise (·.2 ≠ ·.2) := by
    refine perm.symm.pairwise (R := (·.2 ≠ ·.2)) ?_ fun other => other.symm
    exact (pairwise_zipIdx l).imp Nat.ne_of_lt
  have sorted := List.pairwise_mergeSort (List.zipIdxLE_trans trans) (List.zipIdxLE_total total) l.zipIdx
  rw [← List.mergeSort_zipIdx]
  refine List.pairwise_map.mpr ((sorted.and apart).imp_of_mem ?_)
  rintro ⟨a, i⟩ ⟨b, j⟩ first second ⟨le, other⟩
  have here := List.mem_zipIdx_iff_getElem?.mp (perm.mem_iff.mp first)
  have there := List.mem_zipIdx_iff_getElem?.mp (perm.mem_iff.mp second)
  unfold List.zipIdxLE at le
  simp only [decide_eq_true_eq] at le
  split at le
  · rename_i near
    split at le
    · rename_i far
      obtain ⟨low, found⟩ := List.getElem?_eq_some_iff.mp here
      obtain ⟨high, found'⟩ := List.getElem?_eq_some_iff.mp there
      have earlier : i < j := Nat.lt_of_le_of_ne (of_decide_eq_true le) other
      refine .inr ⟨Int.le_antisymm near far, ?_⟩
      rw [← found, ← found']
      exact List.pairwise_iff_getElem.mp order i j low high earlier
    · rename_i far
      exact .inl (Int.not_le.mp far)
  · cases le

/-! ### What a program finds -/

namespace Memory

/-- The contact in a slot. -/
def contactAt (m : Memory) (slot : Nat) : Contact :=
  let address := Layout.radarResults + slot * Layout.radarSlotSize
  ⟨⟨m.numberAt address, m.numberAt (address + 4)⟩, m.wordAt (address + 8)⟩

/-- A radar has answered a program with some contacts: they stand in the first slots, the count says how many
they are, the request byte is 2, and all else is as it was. -/
structure Reports (m m' : Memory) (contacts : List Contact) : Prop where
  slots : ∀ i c, contacts[i]? = some c → m'.contactAt i = c
  count : (m'.wordAt Layout.radarCount).toNat = contacts.length
  ready : m'.byte Layout.radarRequest = 2
  kept : ∀ address, address ≠ Layout.radarRequest →
    (address < Layout.radarCount ∨ Layout.radarCount + 4 ≤ address) →
    (address < Layout.radarResults ∨
      Layout.radarResults + contacts.length * Layout.radarSlotSize ≤ address) →
    m'.byte address = m.byte address

variable (m : Memory)

theorem contactAt_congr {m m' : Memory} {slot : Nat}
    (same : ∀ i, Layout.radarResults + slot * Layout.radarSlotSize ≤ i →
      i < Layout.radarResults + slot * Layout.radarSlotSize + Layout.radarSlotSize → m'.byte i = m.byte i) :
    m'.contactAt slot = m.contactAt slot := by
  have word : ∀ k, k + 4 ≤ Layout.radarSlotSize →
      m'.wordAt (Layout.radarResults + slot * Layout.radarSlotSize + k) =
        m.wordAt (Layout.radarResults + slot * Layout.radarSlotSize + k) := by
    intro k inside
    exact wordAt_congr _ fun i low high => same i (by omega) (by omega)
  have x := word 0 (by decide)
  have y := word 4 (by decide)
  have code := word 8 (by decide)
  rw [Nat.add_zero] at x
  unfold contactAt numberAt
  dsimp only
  rw [x, y, code]

theorem contactAt_setBytes (c : Contact) {slot : Nat} {before : List UInt8} (behind : List UInt8)
    (place : before.length = slot * Layout.radarSlotSize)
    (room : Layout.radarResults + before.length + Layout.radarSlotSize ≤ size) :
    (m.setBytes Layout.radarResults (before ++ (c.encode ++ behind))).contactAt slot = c := by
  obtain ⟨⟨⟨x⟩, ⟨y⟩⟩, code⟩ := c
  have four := Word.length_toBytes
  have twelve : Layout.radarSlotSize = 12 := rfl
  have first := m.wordAt_setBytes_within Layout.radarResults before
    (Word.toBytes y ++ (Word.toBytes code ++ behind)) x (by omega)
  have second := m.wordAt_setBytes_within Layout.radarResults (before ++ Word.toBytes x)
    (Word.toBytes code ++ behind) y (by rw [List.length_append, four]; omega)
  have third := m.wordAt_setBytes_within Layout.radarResults (before ++ Word.toBytes x ++ Word.toBytes y)
    behind code (by rw [List.length_append, List.length_append, four, four]; omega)
  simp only [List.length_append, List.append_assoc, four, place, ← Nat.add_assoc] at first second third
  simp only [contactAt, numberAt, Contact.encode, List.append_assoc, first, second, third]

theorem reports_answerRadar (contacts : List Contact) :
    m.Reports (m.answerRadar contacts) (contacts.take Layout.radarSlots) := by
  have few : (contacts.take Layout.radarSlots).length ≤ Layout.radarSlots := List.length_take_le _ _
  have order : Layout.radarRequest < Layout.radarCount ∧ Layout.radarCount + 4 ≤ Layout.radarResults := by decide
  have last : Layout.radarResults + Layout.radarSlots * Layout.radarSlotSize ≤ size := by decide
  unfold answerRadar
  generalize contacts.take Layout.radarSlots = shown at few ⊢
  dsimp only
  generalize counted : UInt32.ofNat shown.length = count
  generalize filled : m.setBytes Layout.radarResults (shown.flatMap Contact.encode) = results
  -- the count and the request stand before the slots, and are written after them
  have outside : ∀ i, i ≠ Layout.radarRequest → (i < Layout.radarCount ∨ Layout.radarCount + 4 ≤ i) →
      ((results.setWord Layout.radarCount count).setByte Layout.radarRequest radarReady).byte i =
        results.byte i := by
    intro i other apart
    rw [byte_setByte, if_neg fun same => other same.1]
    exact results.byte_setBytes_outside _ apart
  constructor
  · intro i c found
    obtain ⟨inside, same⟩ := List.getElem?_eq_some_iff.mp found
    have split : shown = shown.take i ++ c :: shown.drop (i + 1) := by
      rw [← same, List.getElem_cons_drop, List.take_append_drop]
    have place : ((shown.take i).flatMap Contact.encode).length = i * Layout.radarSlotSize := by
      rw [length_encode, List.length_take_of_le (Nat.le_of_lt inside)]
    have room : i * Layout.radarSlotSize + Layout.radarSlotSize ≤ Layout.radarSlots * Layout.radarSlotSize := by
      rw [← Nat.succ_mul]
      exact Nat.mul_le_mul_right _ (Nat.lt_of_lt_of_le inside few)
    rw [contactAt_congr fun j low high => outside j (by omega) (by omega), ← filled, split, List.flatMap_append,
      List.flatMap_cons]
    exact m.contactAt_setBytes c _ place (by omega)
  · have small : shown.length < UInt32.size := Nat.lt_of_le_of_lt few (by decide)
    have kept : ((results.setWord Layout.radarCount count).setByte Layout.radarRequest radarReady).wordAt
        Layout.radarCount = (results.setWord Layout.radarCount count).wordAt Layout.radarCount := by
      refine wordAt_congr _ fun j low _ => ?_
      rw [byte_setByte, if_neg (by omega)]
    rw [kept, setWord, wordAt_setBytes_toBytes _ _ _ (by omega), ← counted, UInt32.toNat_ofNat_of_lt' small]
  · rw [byte_setByte]
    exact if_pos ⟨rfl, by omega⟩
  · intro i other apart beyond
    rw [outside i other apart, ← filled]
    rw [← length_encode] at beyond
    exact m.byte_setBytes_outside _ beyond

end Memory

theorem Entity.onMemory_of_same {e : Entity} {f : Memory → Memory}
    (same : ∀ p, e.processor = some p → f p.memory = p.memory) : e.onMemory f = e := by
  have kept : e.processor.map (fun p => { p with memory := f p.memory }) = e.processor := by
    cases known : e.processor with
    | none => rfl
    | some p => rw [Option.map_some, same p known]
  exact congrArg (fun processor => { e with processor }) kept

/-! ### How far a radar looks -/

/-- How far a radar looks for a program that wants to see so far. If that is finite and positive, it is as far as
that, unless the hardware can do less; otherwise it is as far as the hardware can. -/
structure Reach (hardware wanted range : Binary32) : Prop where
  clamped : wanted.isFinite = true → Binary32.lt 0 wanted = true →
    range = if hardware.isNaN = false ∧ hardware.lt wanted = true then hardware else wanted
  whole : ¬(wanted.isFinite = true ∧ Binary32.lt 0 wanted = true) → range = hardware

theorem Binary32.isNaN_of_isFinite {x : Binary32} (finite : x.isFinite = true) : x.isNaN = false := by
  have small : x.magnitude < 0x7F800000 := of_decide_eq_true finite
  exact decide_eq_false (UInt32.not_lt.mpr (UInt32.le_of_lt small))

theorem reach_range (hardware wanted : Binary32) : Reach hardware wanted (Radar.range hardware wanted) := by
  unfold Radar.range
  constructor
  · intro finite positive
    rw [finite, positive, if_pos (Bool.and_self true), Binary32.lesser, Binary32.isNaN_of_isFinite finite]
    cases hardware.isNaN <;> simp
  · intro unusable
    rw [if_neg]
    rwa [Bool.and_eq_true]

/-! ### What can be seen -/

/-- What a radar can see: an entity, by its number, or a deposit, by its place among all of them. -/
inductive Sighting where
  | entity (id : EntityId)
  | deposit (i : Nat)
  deriving DecidableEq

/-- Entities come before deposits. -/
def Sighting.Before : Sighting → Sighting → Prop
  | entity a, entity b => a.number < b.number
  | entity _, deposit _ => True
  | deposit _, entity _ => False
  | deposit i, deposit j => i < j

theorem Sighting.Before.ne {s t : Sighting} (before : s.Before t) : s ≠ t := by
  rintro rfl
  cases s with
  | entity a => exact UInt32.lt_irrefl _ before
  | deposit i => exact Nat.lt_irrefl _ before

namespace World

variable (w : World) (e : Entity)

/-- The contact that an entity has with something, at any distance: with every other entity, which is of class 1
on its own team and of class 2 on another one, and with a deposit that holds something, which is of class 3. -/
def sight? : Sighting → Option Contact
  | .entity id => (w.find? id).bind fun q =>
    if q.id = e.id then none else some ⟨q.position, if q.team = e.team then 1 else 2⟩
  | .deposit i => (w.deposits[i]?).bind fun d => if 0 < d.amount then some ⟨d.position, 3⟩ else none

/-- An entity has a contact with something within a range. -/
def Within (range : Binary32) (s : Sighting) : Prop :=
  ∃ c, w.sight? e s = some c ∧ (e.position.distance c.position).le range = true

/-- An entity has contacts with two things, and the first one is nearer, or as near and comes before the
other. -/
def Nearer (s t : Sighting) : Prop :=
  ∃ c d, w.sight? e s = some c ∧ w.sight? e t = some d ∧
    ((e.position.distance c.position).place < (e.position.distance d.position).place ∨
      (e.position.distance c.position).place = (e.position.distance d.position).place ∧ s.Before t)

/-- A radar shows some things: those within its range that are nearest, in the order of their distances, and up
to eight of them. -/
structure Survey (range : Binary32) (shown : List Sighting) (contacts : List Contact) : Prop where
  contacts : shown.map (w.sight? e) = contacts.map some
  within : ∀ s ∈ shown, w.Within e range s
  distinct : shown.Nodup
  ordered : shown.Pairwise (w.Nearer e)
  nearest : ∀ s, w.Within e range s → s ∉ shown → ∀ t ∈ shown, w.Nearer e t s
  count : ∃ all : List Sighting, all.Nodup ∧ (∀ s, s ∈ all ↔ w.Within e range s) ∧
    shown.length = min 8 all.length

/-- All contacts of an entity, in their order. -/
def sightings : List (Sighting × Contact) :=
  (w.entities.filter (·.id ≠ e.id)).map (fun q =>
    (.entity q.id, ⟨q.position, if q.team = e.team then 1 else 2⟩)) ++
  (w.deposits.zipIdx.filter (0 < ·.1.amount)).map fun x => (.deposit x.2, ⟨x.1.position, 3⟩)

/-- What each radar knows of the entities. -/
def blips : List Blip :=
  w.entities.map fun q => ⟨q.id, q.team, q.position⟩

theorem contactOfBlip_eq (team : TeamId) (b : Blip) :
    Radar.contactOfBlip team b = ⟨b.position, if b.team = team then 1 else 2⟩ := by
  unfold Radar.contactOfBlip
  split <;> rfl

theorem sightings_visible : (w.sightings e).map (·.2) = Radar.visible w.blips w.deposits e := by
  have deposits : (w.deposits.zipIdx.filter (0 < ·.1.amount)).map (·.1) = w.deposits.filter (0 < ·.amount) := by
    have fields := List.filter_map (f := (·.1)) (p := fun d : Deposit => decide (0 < d.amount)) (l := w.deposits.zipIdx)
    rw [List.zipIdx_map_fst] at fields
    exact fields.symm
  unfold sightings Radar.visible blips
  rw [List.map_append, List.map_map, List.map_map, List.filter_map, List.map_map, ← deposits, List.map_map,
    funext (contactOfBlip_eq e.team)]
  rfl

variable {w e}

theorem mem_sightings (distinct : (w.entities.map (·.id)).Nodup) {s : Sighting} {c : Contact} :
    (s, c) ∈ w.sightings e ↔ w.sight? e s = some c := by
  unfold sightings
  rw [List.mem_append, List.mem_map, List.mem_map]
  constructor
  · rintro (⟨q, member, same⟩ | ⟨⟨d, i⟩, member, same⟩)
    · cases same
      obtain ⟨there, other⟩ := List.mem_filter.mp member
      rw [sight?, find?_of_mem distinct there, Option.bind_some, if_neg (of_decide_eq_true other)]
    · cases same
      obtain ⟨there, holds⟩ := List.mem_filter.mp member
      rw [sight?, List.mem_zipIdx_iff_getElem?.mp there, Option.bind_some, if_pos (of_decide_eq_true holds)]
  · intro seen
    cases s with
    | entity id =>
      obtain ⟨q, found, same⟩ := Option.bind_eq_some_iff.mp seen
      obtain ⟨there, rfl⟩ := mem_of_find? found
      split at same
      · cases same
      · rename_i other
        cases same
        exact .inl ⟨q, List.mem_filter.mpr ⟨there, decide_eq_true other⟩, rfl⟩
    | deposit i =>
      obtain ⟨d, found, same⟩ := Option.bind_eq_some_iff.mp seen
      split at same
      · rename_i holds
        cases same
        have there : (d, i) ∈ w.deposits.zipIdx := List.mem_zipIdx_iff_getElem?.mpr found
        exact .inr ⟨(d, i), List.mem_filter.mpr ⟨there, decide_eq_true holds⟩, rfl⟩
      · cases same

theorem sightings_ordered (sorted : (w.entities.map (·.id)).Pairwise (·.number < ·.number)) :
    (w.sightings e).Pairwise fun a b => a.1.Before b.1 := by
  unfold sightings
  refine List.pairwise_append.mpr ⟨?_, ?_, ?_⟩
  · exact List.pairwise_map.mpr ((List.pairwise_map.mp sorted).filter _)
  · refine List.pairwise_map.mpr (List.Pairwise.filter _ ?_)
    exact pairwise_zipIdx w.deposits
  · intro a first b second
    obtain ⟨q, _, rfl⟩ := List.mem_map.mp first
    obtain ⟨d, _, rfl⟩ := List.mem_map.mp second
    trivial

theorem scan_sightings (origin : Vec2) (range : Binary32) (seen : List (Sighting × Contact)) :
    Radar.scan origin range (seen.map (·.2)) =
      ((seen.filter fun x => (origin.distance x.2.position).le range).mergeSort fun a b =>
        decide ((origin.distance a.2.position).place ≤ (origin.distance b.2.position).place)).map (·.2) := by
  let near (x : Sighting × Contact) : Bool := (origin.distance x.2.position).le range
  let measure (x : Sighting × Contact) : Binary32 × Contact := (origin.distance x.2.position, x.2)
  have sorted := List.map_mergeSort (f := measure) (l := seen.filter near)
    (r := fun a b => decide ((origin.distance a.2.position).place ≤ (origin.distance b.2.position).place))
    (s := fun a b => a.1.placeLe b.1) fun a _ b _ => rfl
  have within : (seen.map measure).filter (fun c => c.1.le range) = (seen.filter near).map measure :=
    List.filter_map
  unfold Radar.scan
  dsimp only
  rw [List.map_map]
  show ((((seen.map measure).filter fun c => c.1.le range).mergeSort fun a b => a.1.placeLe b.1).map (·.2)) = _
  rw [within, ← sorted, List.map_map]
  rfl

/-- All that is within a range, ranked, is surveyed by what comes first. -/
theorem survey_of_ranked {range : Binary32} {all : List (Sighting × Contact)}
    (seen : ∀ s c, (s, c) ∈ all ↔ w.sight? e s = some c ∧ (e.position.distance c.position).le range = true)
    (distinct : (all.map (·.1)).Nodup) (ranked : all.Pairwise fun a b => w.Nearer e a.1 b.1) :
    w.Survey e range ((all.take Layout.radarSlots).map (·.1)) ((all.map (·.2)).take Layout.radarSlots) := by
  have within : ∀ s, s ∈ all.map (·.1) ↔ w.Within e range s := by
    intro s
    constructor
    · intro member
      obtain ⟨⟨_, c⟩, inside, rfl⟩ := List.mem_map.mp member
      exact ⟨c, (seen _ c).mp inside⟩
    · rintro ⟨c, inside⟩
      exact List.mem_map_of_mem ((seen s c).mpr inside)
  have first : ((all.take Layout.radarSlots).map (·.1)).Sublist (all.map (·.1)) := (List.take_sublist _ _).map _
  have cut : all.take Layout.radarSlots ++ all.drop Layout.radarSlots = all := List.take_append_drop _ _
  obtain ⟨ordered, _, closest⟩ := List.pairwise_append.mp (cut.symm ▸ ranked)
  constructor
  · rw [← List.map_take, List.map_map, List.map_map]
    exact List.map_congr_left fun x member => ((seen _ _).mp (List.mem_of_mem_take member)).1
  · exact fun s member => (within s).mp (first.subset member)
  · exact distinct.sublist first
  · exact List.pairwise_map.mpr ordered
  · rintro s ⟨c, inside⟩ hidden t member
    obtain ⟨x, early, rfl⟩ := List.mem_map.mp member
    have there : (s, c) ∈ all.take Layout.radarSlots ++ all.drop Layout.radarSlots := by
      rw [cut]
      exact (seen s c).mpr inside
    rcases List.mem_append.mp there with shown | late
    · exact absurd (List.mem_map_of_mem shown) hidden
    · exact closest x early (s, c) late
  · refine ⟨all.map (·.1), distinct, within, ?_⟩
    rw [List.length_map, List.length_map]
    exact List.length_take

variable (w e) in
theorem survey_scan (sorted : (w.entities.map (·.id)).Pairwise (·.number < ·.number)) (range : Binary32) :
    ∃ shown, w.Survey e range shown
      ((Radar.scan e.position range (Radar.visible w.blips w.deposits e)).take Layout.radarSlots) := by
  let near (x : Sighting × Contact) : Bool := (e.position.distance x.2.position).le range
  let place (x : Sighting × Contact) : Int := (e.position.distance x.2.position).place
  have order := (sightings_ordered (e := e) sorted).filter near
  have perm := List.mergeSort_perm ((w.sightings e).filter near) fun a b => decide (place a ≤ place b)
  have ranked := pairwise_mergeSort_key place order
  rw [← sightings_visible, scan_sightings]
  refine ⟨_, survey_of_ranked (fun s c => ?_) ?_ (ranked.imp_of_mem fun {a b} first second rank => ?_)⟩
  · rw [perm.mem_iff, List.mem_filter, mem_sightings (nodup_of_sorted sorted)]
  · exact (perm.map _).nodup_iff.mpr (List.pairwise_map.mpr (order.imp Sighting.Before.ne))
  · have seen : ∀ x ∈ (w.sightings e).filter near, w.sight? e x.1 = some x.2 := fun x member =>
      (mem_sightings (nodup_of_sorted sorted)).mp (List.mem_of_mem_filter member)
    exact ⟨a.2, b.2, seen a (perm.mem_iff.mp first), seen b (perm.mem_iff.mp second), rank⟩

variable (w) in
/-- What becomes of an entity when the radars are run. Its program finds what its radar can see in the range that
it wants, if it has one and the request byte is 1, and otherwise nothing is changed. -/
structure Scanned (e e' : Entity) : Prop where
  idle : (∀ hardware p, e.radar = some hardware → e.processor = some p →
    p.memory.byte Layout.radarRequest ≠ 1) → e' = e
  answered : ∀ hardware p, e.radar = some hardware → e.processor = some p →
    p.memory.byte Layout.radarRequest = 1 →
    ∃ range shown contacts m', Reach hardware (p.memory.numberAt Layout.radarRange) range ∧
      e' = { e with processor := some { p with memory := m' } } ∧ w.Survey e range shown contacts ∧
      p.memory.Reports m' contacts

theorem scanned_sense (sorted : (w.entities.map (·.id)).Pairwise (·.number < ·.number)) (e : Entity) :
    w.Scanned e (e.sense w.blips w.deposits) := by
  constructor
  · intro quiet
    unfold Entity.sense
    split
    · rfl
    · rename_i hardware radar
      refine Entity.onMemory_of_same fun p known => if_neg ?_
      exact fun asked => quiet hardware p radar known (beq_iff_eq.mp asked)
  · intro hardware p radar known asked
    obtain ⟨shown, survey⟩ := w.survey_scan e sorted (Radar.range hardware p.memory.radarRange)
    refine ⟨_, shown, _, _, reach_range hardware p.memory.radarRange, ?_, survey,
      p.memory.reports_answerRadar _⟩
    have sensed : e.sense w.blips w.deposits =
        e.onMemory (Radar.answer (Radar.visible w.blips w.deposits e) e.position hardware) := by
      unfold Entity.sense
      split
      · rename_i none
        cases radar.symm.trans none
      · rename_i same
        cases radar.symm.trans same
        rfl
    have requested : p.memory.radarRequested = true := beq_iff_eq.mpr asked
    rw [sensed, Entity.onMemory, known, Option.map_some, Radar.answer, if_pos requested]

/-- Every radar that has been asked shows the nearest contacts within the range that its program wants and its
hardware can do, and nothing else is changed. -/
theorem radars_report_the_nearest (w : World)
    (sorted : (w.entities.map (·.id)).Pairwise (·.number < ·.number)) :
    ∃ entities, w.sense = { w with entities } ∧ List.Forall₂ w.Scanned w.entities entities :=
  ⟨_, rfl, List.forall₂_map_right_iff.mpr (List.forall₂_same.mpr fun e _ => scanned_sense sorted e)⟩

/-- The memory of a program that has asked its radar to look not too far. -/
def asking : Memory :=
  (Memory.zero.setNumber Layout.radarRange 5).setByte Layout.radarRequest 1

/-- A robot whose program has asked its radar. -/
def sentry : Entity :=
  { Entity.build {} ⟨1⟩ { team := ⟨1⟩, radar := true } with
    processor := some { Processor.create .none {} none with memory := asking } }

/-- The sentry with another robot near it, one that its hardware could see but that is further away than it wants
to look, and a deposit that holds nothing. -/
def outpost : World where
  entities := [sentry, .build {} ⟨2⟩ { team := ⟨2⟩, passive := true, pose := ⟨⟨3, 0⟩, 0⟩ },
    .build {} ⟨3⟩ { team := ⟨2⟩, passive := true, pose := ⟨⟨10, 0⟩, 0⟩ }]
  nextId := 4
  deposits := [⟨⟨1, 0⟩, 0⟩]

theorem eq_of_within_outpost {s : Sighting} (within : outpost.Within sentry 5 s) : s = .entity ⟨2⟩ := by
  obtain ⟨c, seen, near⟩ := within
  cases s with
  | entity id =>
    obtain ⟨q, found, same⟩ := Option.bind_eq_some_iff.mp seen
    obtain ⟨there, rfl⟩ := mem_of_find? found
    split at same
    · cases same
    · cases same
      rcases List.mem_cons.mp there with rfl | there
      · contradiction
      · rcases List.mem_cons.mp there with rfl | there
        · rfl
        · obtain rfl := List.mem_singleton.mp there
          exact absurd near (by decide +kernel)
  | deposit i =>
    obtain ⟨d, found, same⟩ := Option.bind_eq_some_iff.mp seen
    obtain rfl := List.mem_singleton.mp (List.mem_of_getElem? found)
    cases same

theorem sentry_sees_a_robot :
    (outpost.entities.map (·.id)).Pairwise (·.number < ·.number) ∧ ∃ e' p',
      e' ∈ outpost.sense.entities ∧ e'.processor = some p' ∧ asking.Reports p'.memory [⟨⟨3, 0⟩, 2⟩] := by
  have sorted : (outpost.entities.map (·.id)).Pairwise (·.number < ·.number) := by decide
  have asked : asking.byte Layout.radarRequest = 1 := by
    rw [asking, Memory.byte_setByte, if_pos ⟨rfl, by decide⟩]
  have wanted : asking.numberAt Layout.radarRange = 5 := by
    have apart : Layout.radarRequest < Layout.radarRange := by decide
    have room : Layout.radarRange + 4 ≤ Memory.size := by decide
    have kept : asking.wordAt Layout.radarRange =
        (Memory.zero.setNumber Layout.radarRange 5).wordAt Layout.radarRange := by
      refine Memory.wordAt_congr _ fun i low _ => ?_
      rw [asking, Memory.byte_setByte, if_neg (by omega)]
    rw [Memory.numberAt, kept, Memory.setNumber, Memory.setWord, Memory.wordAt_setBytes_toBytes _ _ _ room]
  have seen : outpost.sight? sentry (.entity ⟨2⟩) = some ⟨⟨3, 0⟩, 2⟩ := by decide +kernel
  have close : (sentry.position.distance ⟨3, 0⟩).le 5 = true := by decide +kernel
  obtain ⟨entities, sense, scanned⟩ := radars_report_the_nearest outpost sorted
  rw [sense]
  refine ⟨sorted, ?_⟩
  cases scanned with
  | cons first _ =>
    obtain ⟨range, shown, contacts, m', reach, rfl, survey, reports⟩ := first.answered _ _ rfl rfl asked
    have clamped : range = 5 := by
      rw [wanted] at reach
      exact (reach.clamped (by decide +kernel) (by decide +kernel)).trans (if_neg (by decide +kernel))
    subst clamped
    have same : shown = List.replicate shown.length (.entity ⟨2⟩) :=
      List.eq_replicate_of_mem fun s member => eq_of_within_outpost (survey.within s member)
    have few : shown.length ≤ 1 := List.nodup_replicate.mp (same ▸ survey.distinct)
    obtain ⟨all, _, inside, length⟩ := survey.count
    have some : 0 < all.length := List.length_pos_of_mem ((inside _).mpr ⟨_, seen, close⟩)
    have single : shown.length = 1 := by omega
    rw [single] at same
    have shows := survey.contacts
    rw [same, List.map_replicate, seen] at shows
    obtain rfl : [⟨⟨3, 0⟩, 2⟩] = contacts := List.map_injective_iff.mpr (Option.some_injective _) shows
    exact ⟨_, _, List.mem_cons_self, rfl, reports⟩

end World

end RobotArena
