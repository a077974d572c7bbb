import RobotArena.Proofs.World.Cargo
import RobotArena.Proofs.World.Hits

/-!
# Arithmetic that stays exact

Extractors stop at their capacity, transporters take no more than they have room for, and research is paid
for with what is there. What facilities are given adds up without such a bound, and the damage of projectiles
is a setting of either sign. These two alone can leave their type.
-/

namespace RobotArena

/-! ### Sums and differences of 32 bits -/

theorem toNat_add_eq_iff (a b : UInt32) :
    ((a + b).toNat : Int) = a.toNat + b.toNat ↔ (a.toNat : Int) + b.toNat < 4294967296 := by
  have sum : (a + b).toNat = (a.toNat + b.toNat) % 4294967296 := UInt32.toNat_add a b
  omega

theorem toNat_sub_eq_iff (a b : UInt32) :
    ((a - b).toNat : Int) = a.toNat - b.toNat ↔ 0 ≤ (a.toNat : Int) - b.toNat := by
  have difference : (a - b).toNat = (4294967296 - b.toNat + a.toNat) % 4294967296 := UInt32.toNat_sub a b
  have least : a.toNat < 4294967296 := a.toNat_lt
  have other : b.toNat < 4294967296 := b.toNat_lt
  omega

theorem toInt_sub_eq_iff (a b : Int32) : (a - b).toInt = a.toInt - b.toInt ↔
    -2147483648 ≤ a.toInt - b.toInt ∧ a.toInt - b.toInt ≤ 2147483647 := by
  have difference : (a - b).toInt = (a.toInt - b.toInt).bmod 4294967296 := Int32.toInt_sub a b
  have low : -2147483648 ≤ (a - b).toInt := (a - b).le_toInt
  have high : (a - b).toInt < 2147483648 := (a - b).toInt_lt
  rw [Int.bmod_def] at difference
  split at difference <;> omega

namespace Update

/-- The updates that fit are those of which the exact result is computed. -/
theorem computed_eq_iff (u : Update) : u.computed = u.exact ↔ u.fits = true := by
  cases u with
  | gain a b | load a b | store a b =>
    have sum := toNat_add_eq_iff a b
    simp only [computed, fits, Bool.and_eq_true, decide_eq_true_eq]
    simp only [exact]
    omega
  | draw a b | room a b | give a b | unload a b | spend a b =>
    have difference := toNat_sub_eq_iff a b
    have least : a.toNat < 4294967296 := a.toNat_lt
    simp only [computed, fits, Bool.and_eq_true, decide_eq_true_eq]
    simp only [exact]
    omega
  | hit health damage =>
    have difference := toInt_sub_eq_iff health damage
    simp only [computed, fits, Bool.and_eq_true, decide_eq_true_eq]
    exact difference

theorem fits_store {stored cargo : UInt32} :
    (store stored cargo).fits = true ↔ stored.toNat + cargo.toNat < 4294967296 := by
  simp only [fits, Bool.and_eq_true, decide_eq_true_eq]
  simp only [exact]
  omega

theorem fits_hit {health damage : Int32} : (hit health damage).fits = true ↔
    -2147483648 ≤ health.toInt - damage.toInt ∧ health.toInt - damage.toInt ≤ 2147483647 := by
  simp only [fits, Bool.and_eq_true, decide_eq_true_eq]
  rfl

/-- The second number can be taken from the first one. -/
theorem fits_of_le {a b : UInt32} (le : b ≤ a) : (draw a b).fits = true ∧ (room a b).fits = true ∧
    (give a b).fits = true ∧ (unload a b).fits = true ∧ (spend a b).fits = true := by
  have least : a.toNat < 4294967296 := a.toNat_lt
  rw [UInt32.le_iff_toNat_le] at le
  simp only [fits, Bool.and_eq_true, decide_eq_true_eq]
  simp only [exact]
  omega

/-- The second number fits into the room that the first one leaves. -/
theorem fits_of_room {a b capacity : UInt32} (within : a ≤ capacity) (room : b ≤ capacity - a) :
    (gain a b).fits = true ∧ (load a b).fits = true := by
  have least : capacity.toNat < 4294967296 := capacity.toNat_lt
  rw [UInt32.le_iff_toNat_le, UInt32.toNat_sub_of_le _ _ within] at room
  rw [UInt32.le_iff_toNat_le] at within
  simp only [fits, Bool.and_eq_true, decide_eq_true_eq]
  simp only [exact]
  omega

end Update

theorem min_le_both (a b : UInt32) : min a b ≤ a ∧ min a b ≤ b :=
  ⟨UInt32.le_iff_toNat_le.mpr (toNat_min_le a b).1, UInt32.le_iff_toNat_le.mpr (toNat_min_le a b).2⟩

section

variable (settings : Settings)

/-! ### Extractors -/

namespace Extractor

/-- A drawing moves some units, of which the deposit has enough and for which there is room, or nothing. -/
theorem updates_cases (position : Vec2) (stored capacity : UInt32) (deposits : List Deposit) :
    (updates settings position stored capacity deposits = [] ∧
      (extract settings position stored capacity deposits).2 = (stored, deposits)) ∨
    ∃ i d amount, deposits[i]? = some d ∧ stored ≤ capacity ∧ amount ≤ d.amount ∧ amount ≤ capacity - stored ∧
      updates settings position stored capacity deposits =
        [.room capacity stored, .draw d.amount amount, .gain stored amount] ∧
      (extract settings position stored capacity deposits).2 =
        (stored + amount, deposits.set i { d with amount := d.amount - amount }) := by
  unfold updates extract
  by_cases full : capacity ≤ stored
  · rw [if_pos full, if_pos full]
    exact .inl ⟨rfl, rfl⟩
  · rw [if_neg full, if_neg full]
    cases found : deposit? settings position deposits with
    | none => exact .inl ⟨rfl, rfl⟩
    | some nearest =>
      obtain ⟨i, d⟩ := nearest
      have most := min_le_both settings.extractionAmount d.amount
      have amount := min_le_both (min settings.extractionAmount d.amount) (capacity - stored)
      have within : stored ≤ capacity := UInt32.le_of_lt (UInt32.not_le.mp full)
      exact .inr ⟨i, d, _, getElem?_of_deposit? found, within, UInt32.le_trans amount.1 most.2, amount.2, rfl, rfl⟩

theorem updates_fit (position : Vec2) (stored capacity : UInt32) (deposits : List Deposit) :
    ∀ u ∈ updates settings position stored capacity deposits, u.fits = true := by
  intro u member
  rcases updates_cases settings position stored capacity deposits with
    ⟨none, _⟩ | ⟨i, d, amount, _, within, enough, room, some, _⟩
  · rw [none] at member
    cases member
  · rw [some] at member
    rcases List.mem_cons.mp member with rfl | member
    · exact (Update.fits_of_le within).2.1
    · rcases List.mem_cons.mp member with rfl | member
      · exact (Update.fits_of_le enough).1
      · obtain rfl := List.mem_singleton.mp member
        exact (Update.fits_of_room within room).1

theorem allUpdates_fit (entities : List Entity) (deposits : List Deposit) :
    ∀ u ∈ allUpdates settings entities deposits, u.fits = true := by
  induction entities generalizing deposits with
  | nil => exact List.forall_mem_nil _
  | cons e rest ih =>
    have first : ∀ u ∈ e.extractorUpdates settings deposits, u.fits = true := by
      unfold Entity.extractorUpdates
      split
      · split
        · exact updates_fit settings _ _ _ _
        · exact List.forall_mem_nil _
      · exact List.forall_mem_nil _
    exact List.forall_mem_append.mpr ⟨first, ih _⟩

end Extractor

/-! ### Transporters -/

namespace Transporter

variable {settings}

/-- A trade leaves no transporter and no extractor with more than it has room for. -/
theorem within_trade {cargo capacity : UInt32} (within : cargo ≤ capacity) {a : Attachment} (there : a.Within) :
    (trade cargo capacity a).1 ≤ capacity ∧ (trade cargo capacity a).2.1.Within := by
  cases a with
  | extractor stored limit =>
    obtain ⟨enough, room⟩ := min_le_both stored (capacity - cargo)
    -- of what is moved, only these two bounds matter
    generalize moved : min stored (capacity - cargo) = amount at enough room
    have less := UInt32.toNat_sub_of_le _ _ enough
    rw [UInt32.le_iff_toNat_le, UInt32.toNat_sub_of_le _ _ within] at room
    rw [UInt32.le_iff_toNat_le] at enough within
    have limited : stored.toNat ≤ limit.toNat := UInt32.le_iff_toNat_le.mp there
    have more : (cargo + amount).toNat = cargo.toNat + amount.toNat :=
      toNat_add_of_le (show cargo.toNat + amount.toNat ≤ capacity.toNat by omega)
    simp only [trade, moved]
    exact ⟨UInt32.le_iff_toNat_le.mpr (by omega), UInt32.le_iff_toNat_le.mpr (by omega)⟩
  | facility stored queue researched => exact ⟨UInt32.le_iff_toNat_le.mpr (Nat.zero_le _), trivial⟩
  | none | turret _ _ | transporter _ _ => exact ⟨within, there⟩

/-- Of the updates of a trade, only that of what a facility holds may not fit. -/
theorem tradeUpdates_fit {cargo capacity : UInt32} (within : cargo ≤ capacity) (a : Attachment) :
    ∀ u ∈ tradeUpdates cargo capacity a, u.fits = true ∨
      ∃ stored queue researched, a = .facility stored queue researched ∧ u = .store stored cargo := by
  intro u member
  cases a with
  | extractor stored limit =>
    obtain ⟨enough, room⟩ := min_le_both stored (capacity - cargo)
    refine .inl ?_
    rcases List.mem_cons.mp member with rfl | member
    · exact (Update.fits_of_le within).2.1
    · rcases List.mem_cons.mp member with rfl | member
      · exact (Update.fits_of_le enough).2.2.1
      · split at member
        · cases member
        · obtain rfl := List.mem_singleton.mp member
          exact (Update.fits_of_room within room).2
  | facility stored queue researched =>
    rcases List.mem_cons.mp member with rfl | member
    · exact .inr ⟨stored, queue, researched, rfl, rfl⟩
    · split at member
      · cases member
      · obtain rfl := List.mem_singleton.mp member
        exact .inl (Update.fits_of_le (UInt32.le_refl cargo)).2.2.2.1
  | none | turret _ _ | transporter _ _ => cases member

/-- The updates of a transfer are those of a trade between two entities. -/
theorem updates_cases (w : World) (r : Request) : updates settings w r = [] ∨
    ∃ e ∈ w.entities, ∃ q ∈ w.entities, ∃ cargo capacity, e.attachment = .transporter cargo capacity ∧
      q.id ≠ e.id ∧ updates settings w r = tradeUpdates cargo capacity q.attachment := by
  unfold updates
  split
  · rename_i cargo capacity known
    obtain ⟨e, found, attachment⟩ := Option.map_eq_some_iff.mp known
    obtain ⟨there, number⟩ := World.mem_of_find? found
    cases partner : partner? settings r w.entities with
    | none => exact .inl rfl
    | some q =>
      obtain ⟨partnerIn, other, _⟩ := mem_of_partner? partner
      exact .inr ⟨e, there, q, partnerIn, cargo, capacity, attachment, number ▸ other, rfl⟩
  · exact .inl rfl

/-- What holds of the updates of each transfer holds of those of all of them. -/
theorem forall_allUpdates {P : Update → Prop} (inv : World → List Request → Prop)
    (keeps : ∀ w r later, inv w (r :: later) → inv (transfer settings w r) later)
    (each : ∀ w r later, inv w (r :: later) → ∀ u ∈ updates settings w r, P u) (requests : List Request)
    (w : World) (start : inv w requests) : ∀ u ∈ allUpdates settings requests w, P u := by
  induction requests generalizing w with
  | nil => exact List.forall_mem_nil _
  | cons r later ih =>
    exact List.forall_mem_append.mpr ⟨each w r later start, ih _ (keeps w r later start)⟩

end Transporter

/-! ### Facilities -/

theorem Entity.facilityUpdates_fit (technologies : List TechHash) (e : Entity) :
    ∀ u ∈ e.facilityUpdates settings technologies, u.fits = true := by
  have paid : ∀ s, ∀ u ∈ Facility.updates settings s, u.fits = true := by
    intro s u member
    unfold Facility.updates at member
    split at member
    · cases member
    · split at member
      · rename_i enough
        obtain rfl := List.mem_singleton.mp member
        exact (Update.fits_of_le enough).2.2.2.2
      · cases member
  unfold facilityUpdates
  split
  · split
    · exact paid _
    · exact paid _
  · exact List.forall_mem_nil _

end

/-! ### Flights -/

namespace World

section

variable (settings : Settings)

/-- A projectile is shot at somebody who has health left. -/
theorem launchUpdates_cases {w : World} (sorted : (w.entities.map (·.id)).Pairwise (·.number < ·.number))
    (p : Projectile) : ∀ u ∈ w.launchUpdates settings p, ∃ health, u = .hit health p.damage ∧ 0 < health := by
  intro u member
  unfold launchUpdates at member
  split at member
  · rename_i e found
    obtain rfl := List.mem_singleton.mp member
    obtain ⟨id, target, known⟩ := Option.bind_eq_some_iff.mp found
    have picked := p.advance.picks_target? settings.hitRadius sorted
    rw [target] at picked
    obtain ⟨x, there, rfl, ⟨_, health, _⟩, _⟩ := picked
    obtain rfl := Option.some.inj ((find?_of_mem (nodup_of_sorted sorted) there).symm.trans known)
    exact ⟨x.health, rfl, health⟩
  · cases member

theorem flightUpdates_cases {damage : Int32} {projectiles : List Projectile}
    (armed : ∀ p ∈ projectiles, p.damage = damage) (w : World)
    (sorted : (w.entities.map (·.id)).Pairwise (·.number < ·.number)) :
    ∀ u ∈ flightUpdates settings projectiles w, ∃ health, u = .hit health damage ∧ 0 < health := by
  induction projectiles generalizing w with
  | nil => exact List.forall_mem_nil _
  | cons p rest ih =>
    have first := launchUpdates_cases settings sorted p
    rw [armed p List.mem_cons_self] at first
    obtain ⟨target, _, launched⟩ := launch_spec settings w p sorted
    have still : ((w.launch settings p).1.entities.map (·.id)).Pairwise (·.number < ·.number) := by
      rw [launched, List.map_map]
      exact sorted
    exact List.forall_mem_append.mpr
      ⟨first, ih (fun q later => armed q (List.mem_cons_of_mem _ later)) _ still⟩

/-- Projectiles keep the damage that they do. -/
theorem damage_launchAll (projectiles : List Projectile) (w : World) :
    ∀ p ∈ (launchAll settings projectiles w).2, ∃ q ∈ projectiles, p.damage = q.damage := by
  induction projectiles generalizing w with
  | nil => exact List.forall_mem_nil _
  | cons q rest ih =>
    intro p member
    rcases List.mem_append.mp member with first | later
    · refine ⟨q, List.mem_cons_self, ?_⟩
      have flown := Option.mem_toList.mp first
      split at flown
      · cases flown
      · split at flown
        · cases flown
          rfl
        · cases flown
    · obtain ⟨x, there, same⟩ := ih _ p later
      exact ⟨x, List.mem_cons_of_mem _ there, same⟩

end

/-! ### Every course -/

variable {settings : Settings} (technologies : List TechHash) {w : World}

/-- Numbers are in order, nothing holds more than it has room for, and every projectile does the damage of the
settings. Unlike what is held in total, that needs no bound on what is delivered. -/
structure Regular (settings : Settings) (w : World) : Prop where
  orderly : w.Orderly
  within : ∀ e ∈ w.entities, e.attachment.Within
  armed : ∀ p ∈ w.projectiles, p.damage = settings.projectileDamage

theorem within_transferOne (within : ∀ e ∈ w.entities, e.attachment.Within) (r : Transporter.Request) :
    ∀ e ∈ (Transporter.transfer settings w r).entities, e.attachment.Within := by
  unfold Transporter.transfer
  split
  · rename_i cargo capacity known
    obtain ⟨e, found, attachment⟩ := Option.map_eq_some_iff.mp known
    have room := within e (mem_of_find? found).1
    rw [attachment] at room
    split
    · have told : ∀ x, lot (Transporter.report .noPartner cargo 0 x) = lot x := fun _ => rfl
      exact within_of_lots within (view_modify told w r.entity ▸ .refl _)
    · rename_i q partner
      obtain ⟨mine, yours⟩ := Transporter.within_trade room (within q (Transporter.mem_of_partner? partner).1)
      rcases traded : Transporter.trade cargo capacity q.attachment with ⟨left, gained, moved⟩
      rw [traded] at mine yours
      refine within_modify (within_modify within (fun _ => yours) _) (fun _ => ?_) _
      exact mine
  · exact within

theorem within_cleared (within : ∀ e ∈ w.entities, e.attachment.Within) :
    ∀ e ∈ (w.mapEntities Transporter.clear).entities, e.attachment.Within :=
  within_of_lots within (view_clear blindToProcessor_lot.toBlind w ▸ .refl _)

theorem within_transfer (within : ∀ e ∈ w.entities, e.attachment.Within) :
    ∀ e ∈ (w.transfer settings).entities, e.attachment.Within := by
  have all : ∀ (requests : List Transporter.Request) (w : World), (∀ e ∈ w.entities, e.attachment.Within) →
      ∀ e ∈ (requests.foldl (Transporter.transfer settings) w).entities, e.attachment.Within := by
    intro requests
    induction requests with
    | nil => exact fun w within => within
    | cons r later ih => exact fun w within => ih _ (within_transferOne within r)
  exact all _ _ (within_cleared within)

theorem damage_of_fire {e : Entity} {shot : Projectile} (fired : (e.fire settings).2 = some shot) :
    shot.damage = settings.projectileDamage := by
  unfold Entity.fire at fired
  split at fired
  · dsimp only at fired
    split at fired
    · cases fired
      rfl
    · cases fired
  · cases fired

namespace Regular

theorem new : Regular settings {} :=
  ⟨orderly_course settings [] [], List.forall_mem_nil _, List.forall_mem_nil _⟩

theorem of_lots {w' : World} (h : w.Regular settings) (orderly : w'.Orderly)
    (lots : (w'.entities.map lot).Sublist (w.entities.map lot)) (flying : w'.projectiles = w.projectiles) :
    w'.Regular settings :=
  ⟨orderly, within_of_lots h.within lots, flying ▸ h.armed⟩

theorem within_device (h : w.Regular settings) (d : Device) :
    ∀ e ∈ (d.run settings technologies w).entities, e.attachment.Within := by
  cases plain : handlesCargo d with
  | false =>
    exact within_of_lots h.within
      (view_device blindToProcessor_lot.toBlind settings technologies plain w ▸ .refl _)
  | true =>
    cases d with
    | extractor => exact (Extractor.runAll_spec settings h.within w.deposits 0).1
    | transporter => exact within_transfer h.within
    | facility =>
      intro e member
      obtain ⟨x, there, rfl⟩ := List.mem_map.mp member
      exact (Entity.research_spec settings technologies (h.within x there)).1
    | console | navigation | drive | radar | turret => cases plain

theorem armed_device (h : w.Regular settings) (d : Device) :
    ∀ p ∈ (d.run settings technologies w).projectiles, p.damage = settings.projectileDamage := by
  cases d with
  | turret =>
    refine List.forall_mem_append.mpr ⟨h.armed, fun p new => ?_⟩
    obtain ⟨_, fired, shot⟩ := List.mem_filterMap.mp new
    obtain ⟨e, _, rfl⟩ := List.mem_map.mp fired
    exact damage_of_fire shot
  | transporter =>
    obtain ⟨entities, same⟩ := transfer_eq settings w
    show ∀ p ∈ (w.transfer settings).projectiles, _
    rw [same]
    exact h.armed
  | console | navigation | drive | radar | extractor | facility => exact h.armed

theorem happen (h : w.Regular settings) (event : Event) :
    (w.happen settings technologies event).Regular settings := by
  have orderly := h.orderly.happen settings technologies event
  cases event with
  | spawn b =>
    by_cases last : w.nextId + 1 = 0
    · rw [happen_spawn_last _ _ last]
      exact h
    · rw [happen_spawn _ _ last] at orderly ⊢
      have new := Attachment.within_ofKind settings b.attachment
      exact ⟨orderly, List.forall_mem_append.mpr ⟨h.within, List.forall_mem_singleton.mpr new⟩, h.armed⟩
  | despawn id => exact h.of_lots orderly (List.filter_sublist.map _) rfl
  | deposit d => exact ⟨orderly, h.within, h.armed⟩
  | tend change =>
    have same : ∀ e : Entity, lot (e.tend (change e.id)) = lot e := fun _ => rfl
    exact h.of_lots orderly (view_mapEntities same w ▸ .refl _) rfl
  | programs engine g clock =>
    exact h.of_lots orderly (view_runPrograms blindToProcessor_lot _ g clock w ▸ .refl _) rfl
  | device d => exact ⟨orderly, h.within_device technologies d, h.armed_device technologies d⟩
  | deliver => exact h.of_lots orderly (view_deliver blindToProcessor_lot settings w ▸ .refl _) rfl
  | integrate =>
    have lots := view_integrate blindToProcessor_lot.health settings w
    refine ⟨orderly, within_of_lots h.within lots, fun p flies => ?_⟩
    have projectiles : (w.integrate settings).2.projectiles = (launchAll settings w.projectiles w).2 := by
      rw [integrate_of_launchAll rfl, foldl_despawn]
    obtain ⟨q, there, same⟩ := damage_launchAll settings w.projectiles w p (projectiles ▸ flies)
    exact same.trans (h.armed q there)

theorem course (h : w.Regular settings) (events : List Event) :
    (w.course settings technologies events).Regular settings := by
  induction events generalizing w with
  | nil => exact h
  | cons event later ih => exact ih (h.happen technologies event)

end Regular

/-! ### The updates of a course -/

/-- The updates that an event needs. -/
def Event.updates (settings : Settings) (technologies : List TechHash) (w : World) : Event → List Update
  | .device d => d.updates settings technologies w
  | .integrate => flightUpdates settings w.projectiles w
  | _ => []

/-- The updates of some events, the first one first. -/
def log (settings : Settings) (technologies : List TechHash) (w : World) : List Event → List Update
  | [] => []
  | event :: later =>
    event.updates settings technologies w ++ (w.happen settings technologies event).log settings technologies later

theorem log_append (w : World) (events later : List Event) : w.log settings technologies (events ++ later) =
    w.log settings technologies events ++ (w.course settings technologies events).log settings technologies later := by
  induction events generalizing w with
  | nil => rfl
  | cons event events ih =>
    rw [List.cons_append, log, log, ih, List.append_assoc]
    rfl

theorem deviceUpdates_eq_log (devices : List Device) (w : World) :
    deviceUpdates settings technologies devices w = w.log settings technologies (devices.map .device) := by
  induction devices generalizing w with
  | nil => rfl
  | cons d later ih => exact congrArg (d.updates settings technologies w ++ ·) (ih _)

/-- After the programs have run, a tick is a pass of all devices, the delivery of transmissions and a flight of
all projectiles. -/
theorem updates_eq_log (w : World) : w.updates settings technologies =
    w.log settings technologies (Device.all.map .device ++ [.deliver, .integrate]) := by
  have passed : w.runDevices settings technologies = w.course settings technologies (Device.all.map .device) :=
    List.foldl_map.symm
  unfold updates
  rw [log_append, ← deviceUpdates_eq_log, passed]
  generalize w.course settings technologies (Device.all.map .device) = v
  simp only [log, Event.updates, happen, List.nil_append, List.append_nil]

/-- What holds of the updates of each event holds of those of all of them. -/
theorem forall_log {P : Update → Prop} (inv : World → Prop)
    (keeps : ∀ w event, inv w → inv (happen settings technologies w event))
    (each : ∀ w event, inv w → ∀ u ∈ Event.updates settings technologies w event, P u) (w : World) (start : inv w)
    (events : List Event) : ∀ u ∈ w.log settings technologies events, P u := by
  induction events generalizing w with
  | nil => exact List.forall_mem_nil _
  | cons event later ih => exact List.forall_mem_append.mpr ⟨each w event start, ih _ (keeps w event start)⟩

/-- All devices but transporters make updates that fit. -/
theorem forall_device {P : Update → Prop} (fits : ∀ u : Update, u.fits = true → P u)
    (transfers : ∀ u ∈ Transporter.allUpdates settings (w.entities.filterMap Transporter.request?)
      (w.mapEntities Transporter.clear), P u) (d : Device) :
    ∀ u ∈ d.updates settings technologies w, P u := by
  cases d with
  | extractor => exact fun u member => fits u (Extractor.allUpdates_fit settings _ _ u member)
  | transporter => exact transfers
  | facility =>
    intro u member
    obtain ⟨e, _, made⟩ := List.mem_flatMap.mp member
    exact fits u (e.facilityUpdates_fit settings technologies u made)
  | console | navigation | drive | radar | turret => exact List.forall_mem_nil _

theorem Regular.device_updates (h : w.Regular settings) (d : Device) :
    ∀ u ∈ d.updates settings technologies w, u.fits = true ∨ ∃ stored cargo, u = .store stored cargo := by
  refine forall_device technologies (fun _ => .inl) ?_ d
  refine Transporter.forall_allUpdates (fun w _ => ∀ e ∈ w.entities, e.attachment.Within)
    (fun _ r _ within => within_transferOne within r) ?_ _ _ (within_cleared h.within)
  intro w r _ within u member
  rcases Transporter.updates_cases w r with none | ⟨e, there, q, _, cargo, capacity, attachment, _, same⟩
  · rw [none] at member
    cases member
  · have room := within e there
    rw [attachment] at room
    rw [same] at member
    rcases Transporter.tradeUpdates_fit room q.attachment u member with fit | ⟨stored, _, _, _, store⟩
    · exact .inl fit
    · exact .inr ⟨stored, cargo, store⟩

/-- Only what facilities hold, and the health of somebody who is hit, may not fit. -/
theorem Regular.updates_cases (h : w.Regular settings) (events : List Event) :
    ∀ u ∈ w.log settings technologies events, u.fits = true ∨ (∃ stored cargo, u = .store stored cargo) ∨
      ∃ health, u = .hit health settings.projectileDamage ∧ 0 < health := by
  refine forall_log technologies (Regular settings) (fun _ event h => h.happen technologies event) ?_ w h events
  intro w event h u member
  cases event with
  | device d =>
    rcases h.device_updates technologies d u member with fit | store
    · exact .inl fit
    · exact .inr (.inl store)
  | integrate => exact .inr (.inr (flightUpdates_cases settings h.armed w h.orderly.sorted u member))
  | spawn _ | despawn _ | deposit _ | tend _ | programs _ _ _ | deliver => cases member

/-- What is not computed exactly is a sum of 2^32 or more for a facility, or more health than there can be. -/
theorem Regular.inexact_iff (h : w.Regular settings) {events : List Event} {u : Update}
    (member : u ∈ w.log settings technologies events) : u.computed ≠ u.exact ↔
      (∃ stored cargo, u = .store stored cargo ∧ 4294967296 ≤ stored.toNat + cargo.toNat) ∨
      ∃ health, u = .hit health settings.projectileDamage ∧ 0 < health ∧
        2147483647 < health.toInt - settings.projectileDamage.toInt := by
  rw [Ne, u.computed_eq_iff]
  constructor
  · intro unfit
    rcases h.updates_cases technologies events u member with fit | ⟨stored, cargo, rfl⟩ | ⟨health, rfl, alive⟩
    · exact absurd fit unfit
    · rw [Update.fits_store] at unfit
      exact .inl ⟨stored, cargo, rfl, by omega⟩
    · -- somebody who is hit has health left, so too little of it cannot come out
      rw [Update.fits_hit] at unfit
      have zero : (0 : Int32).toInt = 0 := rfl
      have positive := Int32.lt_iff_toInt_lt.mp alive
      have most := settings.projectileDamage.toInt_lt
      exact .inr ⟨health, rfl, alive, by omega⟩
  · rintro (⟨stored, cargo, rfl, much⟩ | ⟨health, rfl, _, much⟩)
    · rw [Update.fits_store]
      omega
    · rw [Update.fits_hit]
      omega

/-! ### While a word can count all units together -/

theorem Sound.transfer_updates (h : w.Sound settings) (r : Transporter.Request) :
    ∀ u ∈ Transporter.updates settings w r, u.fits = true := by
  intro u member
  rcases Transporter.updates_cases w r with none | ⟨e, there, q, partner, cargo, capacity, attachment, other, same⟩
  · rw [none] at member
    cases member
  · have room := h.within e there
    rw [attachment] at room
    rw [same] at member
    rcases Transporter.tradeUpdates_fit room q.attachment u member with
      fit | ⟨stored, queue, researched, facility, rfl⟩
    · exact fit
    · have both := add_le_tally (f := Entity.share settings.researchCost.toNat fun _ => true) there partner
        fun same => other (congrArg Entity.id same.symm)
      have fits : w.share settings (fun _ => true) < 4294967296 := h.fits
      simp only [Entity.share, attachment, facility, Attachment.units, if_true] at both
      unfold World.share at fits
      exact Update.fits_store.mpr (by omega)

theorem Stocked.device_updates {n : Nat} (h : w.Stocked settings n) (enough : n < UInt32.size) (d : Device) :
    ∀ u ∈ d.updates settings technologies w, u.fits = true := by
  obtain ⟨cleared, fair⟩ := (h.sound enough).cleared
  refine forall_device technologies (fun _ => id) ?_ d
  refine Transporter.forall_allUpdates (fun w requests => w.Sound settings ∧ ∀ r ∈ requests, w.Fair r) ?_
    (fun w r _ inv => inv.1.transfer_updates r) _ _ ⟨cleared, fair⟩
  intro w r later inv
  obtain ⟨sound, fair⟩ := inv
  refine ⟨(transferOne_spec sound (fair r List.mem_cons_self)).1, fun q member => ?_⟩
  exact (fair q (List.mem_cons_of_mem _ member)).transferOne r

/-- Until 2^32 units have been delivered, transfers are exact, and hits are if they do no negative damage. -/
theorem Regular.updates_fit (h : w.Regular settings) (harm : 0 ≤ settings.projectileDamage) (events : List Event)
    (countable : w.total settings + supply events < UInt32.size) :
    ∀ u ∈ w.log settings technologies events, u.fits = true := by
  have stocked : w.Stocked settings (w.total settings) := ⟨h.orderly, h.within, Nat.le_refl _⟩
  -- on the events: what there is and what is still to come can be counted together
  generalize w.total settings = n at countable stocked
  induction events generalizing w n with
  | nil => exact List.forall_mem_nil _
  | cons event later ih =>
    have sum : n + supply (event :: later) = n + supplied event + supply later := (Nat.add_assoc _ _ _).symm
    rw [sum] at countable
    refine List.forall_mem_append.mpr ⟨fun u member => ?_, ?_⟩
    · cases event with
      | device d => exact stocked.device_updates technologies (by omega) d u member
      | integrate =>
        obtain ⟨health, rfl, alive⟩ := flightUpdates_cases settings h.armed w h.orderly.sorted u member
        have zero : (0 : Int32).toInt = 0 := rfl
        have most := health.toInt_lt
        have less := settings.projectileDamage.toInt_lt
        rw [Int32.lt_iff_toInt_lt] at alive
        rw [Int32.le_iff_toInt_le] at harm
        exact Update.fits_hit.mpr (by omega)
      | spawn _ | despawn _ | deposit _ | tend _ | programs _ _ _ | deliver => cases member
    · exact ih (h.happen technologies event) _ countable (stocked.happen technologies (by omega))

end World

end RobotArena
