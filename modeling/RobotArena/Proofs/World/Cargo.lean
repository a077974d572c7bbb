import Mathlib.Data.List.Nodup
import RobotArena.Proofs.World.Course

/-!
# Where resources go

Extractors draw from deposits, transporters carry, and facilities keep and spend. Whatever programs ask
for, devices neither make nor lose a unit, none passes from one team to another, and nothing holds more
than it has room for.
-/

namespace RobotArena

/-- Changing one of some entities with different numbers changes a sum by what that one adds to it. -/
theorem tally_change {f : Entity → Nat} {entities : List Entity} {e : Entity}
    (distinct : (entities.map (·.id)).Nodup) (member : e ∈ entities) (change : Entity → Entity) :
    tally f (entities.map fun x => if x.id = e.id then change x else x) + f e =
      tally f entities + f (change e) := by
  induction entities with
  | nil => cases member
  | cons x rest ih =>
    rw [List.map_cons, List.nodup_cons] at distinct
    obtain ⟨new, distinct⟩ := distinct
    rw [List.map_cons, tally, tally]
    rcases List.mem_cons.mp member with rfl | later
    · have others : (rest.map fun x => if x.id = e.id then change x else x) = rest := by
        refine (List.map_congr_left fun x there => ?_).trans (List.map_id rest)
        have known : x.id ∈ rest.map (·.id) := List.mem_map_of_mem there
        have other : ¬ x.id = e.id := fun same => new (same ▸ known)
        exact if_neg other
      rw [if_pos rfl, others]
      omega
    · have known : e.id ∈ rest.map (·.id) := List.mem_map_of_mem later
      have other : ¬ x.id = e.id := fun same => new (same ▸ known)
      have sum := ih distinct later
      rw [if_neg other]
      omega

/-! ### What is held -/

namespace Attachment

/-- The units that an attachment holds, what has been spent on research included. -/
def units (cost : Nat) : Attachment → Nat
  | .extractor stored _ => stored.toNat
  | .transporter cargo _ => cargo.toNat
  | .facility stored _ researched => stored.toNat + cost * researched.length
  | _ => 0

/-- An extractor or a transporter holds at most as much as it has room for. -/
def Within : Attachment → Prop
  | .extractor stored capacity => stored ≤ capacity
  | .transporter cargo capacity => cargo ≤ capacity
  | _ => True

/-- The attachment without what does not count: the state of a turret. -/
def stock : Attachment → Attachment
  | .turret .. => .none
  | a => a

theorem units_stock (cost : Nat) (a : Attachment) : a.stock.units cost = a.units cost := by
  cases a <;> rfl

theorem within_stock (a : Attachment) : a.stock.Within ↔ a.Within := by
  cases a <;> rfl

theorem units_ofKind (cost : Nat) (settings : Settings) (k : AttachmentKind) :
    (ofKind settings k).units cost = 0 := by
  cases k <;> rfl

theorem within_ofKind (settings : Settings) (k : AttachmentKind) : (ofKind settings k).Within := by
  cases k <;> simp [ofKind, Within]

end Attachment

/-- The units that an entity holds, if its team counts. -/
def Entity.share (cost : Nat) (teams : TeamId → Bool) (e : Entity) : Nat :=
  if teams e.team then e.attachment.units cost else 0

/-- The units in deposits. -/
def Deposit.left (deposits : List Deposit) : Nat :=
  tally (·.amount.toNat) deposits

namespace World

variable (settings : Settings)

/-- The units that the entities of some teams hold. -/
def share (teams : TeamId → Bool) (w : World) : Nat :=
  tally (Entity.share settings.researchCost.toNat teams) w.entities

/-- The units that the entities of a team hold. -/
def holdings (team : TeamId) (w : World) : Nat :=
  w.share settings (· = team)

/-- All units, in deposits and with entities. -/
def total (w : World) : Nat :=
  Deposit.left w.deposits + w.share settings fun _ => true

end World

/-! ### Sums and minima of words -/

theorem toNat_add_of_le {a b limit : UInt32} (room : a.toNat + b.toNat ≤ limit.toNat) :
    (a + b).toNat = a.toNat + b.toNat := by
  have size := limit.toNat_lt
  rw [UInt32.toNat_add]
  exact Nat.mod_eq_of_lt (Nat.lt_of_le_of_lt room size)

theorem toNat_min_le (a b : UInt32) : (min a b).toNat ≤ a.toNat ∧ (min a b).toNat ≤ b.toNat := by
  have less : a ≤ b ↔ a.toNat ≤ b.toNat := UInt32.le_iff_toNat_le
  show (if a ≤ b then a else b).toNat ≤ _ ∧ (if a ≤ b then a else b).toNat ≤ _
  by_cases small : a ≤ b
  · rw [if_pos small]
    exact ⟨Nat.le_refl _, less.mp small⟩
  · rw [if_neg small]
    exact ⟨Nat.le_of_not_le (mt less.mpr small), Nat.le_refl _⟩

/-! ### Extractors -/

theorem mem_of_nearest? {α : Type} {candidates : List (Binary32 × α)} {a : α}
    (found : nearest? candidates = some a) : ∃ d, (d, a) ∈ candidates := by
  have all : ∀ (candidates : List (Binary32 × α)) (best : Option (Binary32 × α)) (x : Binary32 × α),
      candidates.foldl nearest?.closer best = some x → x ∈ candidates ∨ best = some x := by
    intro candidates
    induction candidates with
    | nil => exact fun best x same => .inr same
    | cons c rest ih =>
      intro best x same
      rcases ih _ x same with later | closer
      · exact .inl (List.mem_cons_of_mem _ later)
      · cases best with
        | none =>
          cases closer
          exact .inl List.mem_cons_self
        | some b =>
          rw [nearest?.closer] at closer
          split at closer
          · exact .inr closer
          · cases closer
            exact .inl List.mem_cons_self
  obtain ⟨x, same, rfl⟩ := Option.map_eq_some_iff.mp found
  exact ⟨x.1, (all candidates none x same).resolve_right nofun⟩

namespace Extractor

theorem getElem?_of_deposit? {settings : Settings} {position : Vec2} {deposits : List Deposit}
    {i : Nat} {d : Deposit} (found : deposit? settings position deposits = some (i, d)) :
    deposits[i]? = some d := by
  obtain ⟨distance, member⟩ := mem_of_nearest? found
  obtain ⟨⟨d', j⟩, holding, same⟩ := List.mem_map.mp (List.mem_filter.mp member).1
  cases same
  exact List.mem_zipIdx_iff_getElem?.mp (List.mem_filter.mp holding).1

/-- What the deposits lose at the turns of the entities of some teams. -/
def drawn (settings : Settings) (teams : TeamId → Bool) : List Entity → List Deposit → Nat
  | [], _ => 0
  | e :: rest, deposits =>
    (if teams e.team then Deposit.left deposits - Deposit.left (e.extract settings deposits).2 else 0) +
      drawn settings teams rest (e.extract settings deposits).2

variable {settings : Settings}

theorem units_extract (position : Vec2) {stored capacity : UInt32} (within : stored ≤ capacity)
    (deposits : List Deposit) :
    (extract settings position stored capacity deposits).2.1 ≤ capacity ∧
      (extract settings position stored capacity deposits).2.1.toNat +
          Deposit.left (extract settings position stored capacity deposits).2.2 =
        stored.toNat + Deposit.left deposits ∧
      Deposit.left (extract settings position stored capacity deposits).2.2 ≤
        Deposit.left deposits := by
  unfold extract
  split
  · exact ⟨within, rfl, Nat.le_refl _⟩
  · split
    · exact ⟨within, rfl, Nat.le_refl _⟩
    · rename_i i d found
      generalize given : min (min settings.extractionAmount d.amount) (capacity - stored) = amount
      have fromDeposit : amount.toNat ≤ d.amount.toNat := by
        rw [← given]
        exact Nat.le_trans (toNat_min_le _ _).1 (toNat_min_le _ _).2
      have intoStore : stored.toNat + amount.toNat ≤ capacity.toNat := by
        have room := (toNat_min_le (min settings.extractionAmount d.amount) (capacity - stored)).2
        rw [given, UInt32.toNat_sub_of_le _ _ within] at room
        rw [UInt32.le_iff_toNat_le] at within
        omega
      have taken := tally_set (f := (·.amount.toNat)) (getElem?_of_deposit? found)
        { d with amount := d.amount - amount }
      have rest : (d.amount - amount).toNat = d.amount.toNat - amount.toNat :=
        UInt32.toNat_sub_of_le _ _ (UInt32.le_iff_toNat_le.mpr fromDeposit)
      have sum := toNat_add_of_le intoStore
      simp only [rest] at taken
      refine ⟨UInt32.le_iff_toNat_le.mpr (sum ▸ intoStore), ?_, ?_⟩
      · simp only [Deposit.left, sum]
        omega
      · simp only [Deposit.left]
        omega

end Extractor

section

variable (settings : Settings) {teams : TeamId → Bool}

theorem Entity.extract_cases (e : Entity) (deposits : List Deposit) :
    ((e.extract settings deposits).1.attachment = e.attachment ∧
      (e.extract settings deposits).2 = deposits) ∨
    ∃ stored capacity, e.attachment = .extractor stored capacity ∧
      (e.extract settings deposits).1.attachment = .extractor
        (Extractor.extract settings e.position stored capacity deposits).2.1 capacity ∧
      (e.extract settings deposits).2 =
        (Extractor.extract settings e.position stored capacity deposits).2.2 := by
  unfold Entity.extract
  split
  · rename_i stored capacity p attachment _
    split
    · exact .inr ⟨stored, capacity, attachment, rfl, rfl⟩
    · exact .inl ⟨rfl, rfl⟩
  · exact .inl ⟨rfl, rfl⟩

theorem blindToCargo_team : Entity.BlindToCargo fun e => (e.id, e.team) :=
  { tend := fun _ _ => rfl, pose := fun _ _ => rfl, health := fun _ _ => rfl
    turret := fun _ _ _ _ => rfl, attachment := fun _ _ => rfl }

/-- What an extractor gains is what the deposits lose. -/
theorem Entity.units_extract {e : Entity} (within : e.attachment.Within) (deposits : List Deposit)
    (cost : Nat) :
    (e.extract settings deposits).1.attachment.Within ∧
      (e.extract settings deposits).1.attachment.units cost +
          Deposit.left (e.extract settings deposits).2 =
        e.attachment.units cost + Deposit.left deposits ∧
      Deposit.left (e.extract settings deposits).2 ≤ Deposit.left deposits := by
  rcases e.extract_cases settings deposits with
    ⟨same, still⟩ | ⟨stored, capacity, attachment, after, left⟩
  · rw [same, still]
    exact ⟨within, rfl, Nat.le_refl _⟩
  · rw [attachment] at within ⊢
    rw [after, left]
    exact Extractor.units_extract e.position within deposits

theorem Extractor.runAll_spec {entities : List Entity} (within : ∀ e ∈ entities, e.attachment.Within)
    (deposits : List Deposit) (cost : Nat) :
    (∀ e ∈ (runAll settings entities deposits).1, e.attachment.Within) ∧
      (∀ teams, tally (Entity.share cost teams) (runAll settings entities deposits).1 =
        tally (Entity.share cost teams) entities + drawn settings teams entities deposits) ∧
      Deposit.left (runAll settings entities deposits).2 +
          drawn settings (fun _ => true) entities deposits =
        Deposit.left deposits := by
  induction entities generalizing deposits with
  | nil => exact ⟨within, fun _ => rfl, rfl⟩
  | cons e rest ih =>
    obtain ⟨first, moved, less⟩ := Entity.units_extract settings
      (within e List.mem_cons_self) deposits cost
    obtain ⟨others, sums, left⟩ := ih (fun x member => within x (List.mem_cons_of_mem _ member))
      (e.extract settings deposits).2
    have team : (e.extract settings deposits).1.team = e.team :=
      congrArg Prod.snd (blindToCargo_team.extract settings e deposits)
    simp only [runAll]
    refine ⟨?_, fun teams => ?_, ?_⟩
    · intro x member
      rcases List.mem_cons.mp member with rfl | later
      · exact first
      · exact others x later
    · have sum := sums teams
      simp only [tally, drawn, Entity.share, team]
      split
      · omega
      · omega
    · simp only [drawn, if_true]
      omega

end

/-! ### Transporters -/

namespace Transporter

variable {settings : Settings}

theorem trade_spec {cargo capacity : UInt32} (within : cargo ≤ capacity) {a : Attachment}
    (there : a.Within) {cost : Nat} (fits : cargo.toNat + a.units cost < UInt32.size) :
    (trade cargo capacity a).1 ≤ capacity ∧ (trade cargo capacity a).2.1.Within ∧
      (trade cargo capacity a).1.toNat + (trade cargo capacity a).2.1.units cost =
        cargo.toNat + a.units cost := by
  cases a with
  | none => exact ⟨within, there, rfl⟩
  | turret angle cooldown => exact ⟨within, there, rfl⟩
  | transporter other limit => exact ⟨within, there, rfl⟩
  | extractor stored limit =>
    generalize given : min stored (capacity - cargo) = moved
    have small := toNat_min_le stored (capacity - cargo)
    rw [given, UInt32.toNat_sub_of_le _ _ within] at small
    have limited : stored.toNat ≤ limit.toNat := UInt32.le_iff_toNat_le.mp there
    rw [UInt32.le_iff_toNat_le] at within
    have intoCargo : cargo.toNat + moved.toNat ≤ capacity.toNat := by omega
    have more := toNat_add_of_le intoCargo
    have less : (stored - moved).toNat = stored.toNat - moved.toNat :=
      UInt32.toNat_sub_of_le _ _ (UInt32.le_iff_toNat_le.mpr small.1)
    simp only [trade, given]
    refine ⟨UInt32.le_iff_toNat_le.mpr (by omega), UInt32.le_iff_toNat_le.mpr (by omega), ?_⟩
    simp only [Attachment.units, more, less]
    omega
  | facility stored queue researched =>
    have sum : (stored + cargo).toNat = stored.toNat + cargo.toNat := by
      simp only [Attachment.units] at fits
      rw [UInt32.toNat_add]
      exact Nat.mod_eq_of_lt (show stored.toNat + cargo.toNat < UInt32.size by omega)
    refine ⟨UInt32.le_iff_toNat_le.mpr (Nat.zero_le _), trivial, ?_⟩
    simp only [trade, Attachment.units, sum]
    show 0 + _ = _
    omega

theorem mem_of_partner? {r : Request} {entities : List Entity} {q : Entity}
    (found : partner? settings r entities = some q) :
    q ∈ entities ∧ q.id ≠ r.entity ∧ q.team = r.team := by
  obtain ⟨distance, member⟩ := mem_of_nearest? found
  obtain ⟨x, suitable, same⟩ := List.mem_map.mp (List.mem_filter.mp member).1
  cases same
  obtain ⟨there, fit⟩ := List.mem_filter.mp suitable
  simp only [Bool.and_eq_true, decide_eq_true_eq] at fit
  exact ⟨there, fit.1.1, fit.1.2⟩

end Transporter

namespace World

variable {settings : Settings} {w w' : World}

/-- What of an entity counts here. -/
def lot (e : Entity) : TeamId × Attachment :=
  (e.team, e.attachment.stock)

theorem blindToProcessor_lot : Entity.BlindToProcessor lot :=
  { tend := fun _ _ => rfl, pose := fun _ _ => rfl, health := fun _ _ => rfl
    turret := by
      intro angle cooldown e turret
      show (e.team, Attachment.none) = (e.team, e.attachment.stock)
      cases attachment : e.attachment with
      | turret angle cooldown => rfl
      | _ => rw [attachment] at turret; cases turret
    processor := fun _ _ _ => rfl }

/-- Numbers are in order, nothing holds more than it has room for, and together the entities hold less
than what a word can count. -/
structure Sound (settings : Settings) (w : World) : Prop where
  orderly : w.Orderly
  within : ∀ e ∈ w.entities, e.attachment.Within
  fits : w.share settings (fun _ => true) < UInt32.size

theorem share_eq_lots (teams : TeamId → Bool) : w.share settings teams =
    tally (fun l => if teams l.1 then l.2.units settings.researchCost.toNat else 0)
      (w.entities.map lot) := by
  rw [share, tally_map]
  exact tally_congr fun e _ => by simp only [Entity.share, lot, Attachment.units_stock]

theorem share_of_lots (lots : w'.entities.map lot = w.entities.map lot) (teams : TeamId → Bool) :
    w'.share settings teams = w.share settings teams := by
  rw [share_eq_lots, share_eq_lots, lots]

theorem share_le_of_lots (lots : (w'.entities.map lot).Sublist (w.entities.map lot))
    (teams : TeamId → Bool) : w'.share settings teams ≤ w.share settings teams := by
  rw [share_eq_lots, share_eq_lots]
  exact tally_le_of_sublist lots

theorem within_of_lots (within : ∀ e ∈ w.entities, e.attachment.Within)
    (lots : (w'.entities.map lot).Sublist (w.entities.map lot)) :
    ∀ e ∈ w'.entities, e.attachment.Within := by
  intro e member
  obtain ⟨x, there, same⟩ := List.mem_map.mp (lots.subset (List.mem_map_of_mem member))
  have stock : x.attachment.stock = e.attachment.stock := congrArg Prod.snd same
  rw [← Attachment.within_stock, ← stock, Attachment.within_stock]
  exact within x there

/-- The entity of a request is of the team of the request. -/
def Fair (w : World) (r : Transporter.Request) : Prop :=
  ∀ x ∈ w.entities.map (fun e => (e.id, e.team)), x.1 = r.entity → x.2 = r.team

theorem Sound.of_lots (h : w.Sound settings) (orderly : w'.Orderly)
    (lots : (w'.entities.map lot).Sublist (w.entities.map lot)) : w'.Sound settings :=
  ⟨orderly, within_of_lots h.within lots, Nat.lt_of_le_of_lt (share_le_of_lots lots _) h.fits⟩

theorem share_modify (settings : Settings) (distinct : (w.entities.map (·.id)).Nodup) {e : Entity}
    (there : e ∈ w.entities) (change : Entity → Entity) (teams : TeamId → Bool) :
    (w.modify e.id change).share settings teams + e.share settings.researchCost.toNat teams =
      w.share settings teams + (change e).share settings.researchCost.toNat teams :=
  tally_change distinct there change

theorem within_modify (within : ∀ e ∈ w.entities, e.attachment.Within) {change : Entity → Entity}
    (changed : ∀ e, (change e).attachment.Within) (id : EntityId) :
    ∀ e ∈ (w.modify id change).entities, e.attachment.Within := by
  intro e member
  obtain ⟨x, there, rfl⟩ := List.mem_map.mp member
  split
  · exact changed x
  · exact within x there

/-- Two entities exchange units: what one gives, the other takes. -/
theorem Sound.exchange (h : w.Sound settings) {e q : Entity} (there : e ∈ w.entities)
    (partner : q ∈ w.entities) (other : q.id ≠ e.id) {give take : Entity → Entity}
    (ids : ∀ x, (give x).id = x.id ∧ (take x).id = x.id)
    (within : ∀ x, (give x).attachment.Within ∧ (take x).attachment.Within)
    (sum : ∀ teams, (take e).share settings.researchCost.toNat teams +
        (give q).share settings.researchCost.toNat teams =
      e.share settings.researchCost.toNat teams + q.share settings.researchCost.toNat teams) :
    ((w.modify q.id give).modify e.id take).Sound settings ∧
      ∀ teams, ((w.modify q.id give).modify e.id take).share settings teams =
        w.share settings teams := by
  have given := view_modify (fun x => (ids x).1) w q.id
  have taken := view_modify (fun x => (ids x).2) (w.modify q.id give) e.id
  have stays : e ∈ (w.modify q.id give).entities :=
    List.mem_map.mpr ⟨e, there, if_neg (Ne.symm other)⟩
  have same : ∀ teams, ((w.modify q.id give).modify e.id take).share settings teams =
      w.share settings teams := by
    intro teams
    have first := share_modify settings h.orderly.distinct partner give teams
    have second := share_modify settings (given ▸ h.orderly.distinct) stays take teams
    have both := sum teams
    omega
  refine ⟨⟨h.orderly.of_same (taken.trans given) rfl, ?_, ?_⟩, same⟩
  · exact within_modify (within_modify h.within (fun x => (within x).1) _) (fun x => (within x).2) _
  · rw [same]
    exact h.fits

theorem transferOne_spec (h : w.Sound settings) {r : Transporter.Request} (fair : w.Fair r) :
    (Transporter.transfer settings w r).Sound settings ∧
      ∀ teams, (Transporter.transfer settings w r).share settings teams = w.share settings teams := by
  unfold Transporter.transfer
  split
  · rename_i cargo capacity known
    obtain ⟨e, found, attachment⟩ := Option.map_eq_some_iff.mp known
    obtain ⟨there, number⟩ := mem_of_find? found
    have team : e.team = r.team := fair _ (List.mem_map_of_mem there) number
    split
    · have told : ∀ x, lot (Transporter.report .noPartner cargo 0 x) = lot x := fun _ => rfl
      have kept : ∀ x : Entity, (Transporter.report .noPartner cargo 0 x).id = x.id := fun _ => rfl
      have lots := view_modify told w r.entity
      exact ⟨h.of_lots (h.orderly.of_same (view_modify kept w r.entity) rfl) (lots ▸ .refl _),
        share_of_lots lots⟩
    · rename_i q partner
      obtain ⟨partnerIn, other, sameTeam⟩ := Transporter.mem_of_partner? partner
      have within := h.within e there
      rw [attachment] at within
      have fits : cargo.toNat + q.attachment.units settings.researchCost.toNat < UInt32.size := by
        have both := add_le_tally (f := Entity.share settings.researchCost.toNat fun _ => true)
          there partnerIn fun same => other (by rw [← same, number])
        simp only [Entity.share, attachment, if_true] at both
        exact Nat.lt_of_le_of_lt both h.fits
      obtain ⟨mine, yours, sum⟩ := Transporter.trade_spec within (h.within q partnerIn) fits
      rcases traded : Transporter.trade cargo capacity q.attachment with ⟨left, gained, moved⟩
      rw [traded] at mine yours sum
      rw [← number] at other ⊢
      refine h.exchange there partnerIn other (fun _ => ⟨rfl, rfl⟩) (fun _ => ⟨yours, mine⟩) ?_
      intro teams
      simp only [Entity.share, Transporter.report, Entity.onMemory, attachment, team, sameTeam]
      split
      · exact sum
      · rfl
  · exact ⟨h, fun _ => rfl⟩

theorem fair_of_request? (distinct : (w.entities.map (·.id)).Nodup) {e : Entity} (there : e ∈ w.entities)
    {r : Transporter.Request} (asked : Transporter.request? e = some r) : w.Fair r := by
  have made : r.entity = e.id ∧ r.team = e.team := by
    unfold Transporter.request? at asked
    split at asked
    · obtain ⟨command, _, rfl⟩ := Option.map_eq_some_iff.mp asked
      exact ⟨rfl, rfl⟩
    · cases asked
  intro x member number
  obtain ⟨y, known, rfl⟩ := List.mem_map.mp member
  have same : y = e := List.inj_on_of_nodup_map distinct known there (number.trans made.1)
  rw [made.2, same]

theorem Fair.transferOne {q : Transporter.Request} (fair : w.Fair q) (r : Transporter.Request) :
    (Transporter.transfer settings w r).Fair q := by
  unfold Fair
  rw [view_transferOne blindToCargo_team settings w r]
  exact fair

/-- When all commands of transporters have been taken, the entities of the requests are of their teams. -/
theorem Sound.cleared (h : w.Sound settings) :
    (w.mapEntities Transporter.clear).Sound settings ∧
      ∀ r ∈ w.entities.filterMap Transporter.request?, (w.mapEntities Transporter.clear).Fair r := by
  have lots := view_clear blindToProcessor_lot.toBlind w
  have orderly := h.orderly.of_same (view_clear blindToCargo_id.toBlind w) rfl
  refine ⟨h.of_lots orderly (lots ▸ .refl _), fun r member => ?_⟩
  obtain ⟨e, there, asked⟩ := List.mem_filterMap.mp member
  unfold Fair
  rw [view_clear blindToCargo_team.toBlind w]
  exact fair_of_request? h.orderly.distinct there asked

theorem transfer_spec (h : w.Sound settings) :
    (w.transfer settings).Sound settings ∧
      ∀ teams, (w.transfer settings).share settings teams = w.share settings teams := by
  have all : ∀ (requests : List Transporter.Request) (w : World), w.Sound settings →
      (∀ r ∈ requests, w.Fair r) →
      (requests.foldl (Transporter.transfer settings) w).Sound settings ∧
        ∀ teams, (requests.foldl (Transporter.transfer settings) w).share settings teams =
          w.share settings teams := by
    intro requests
    induction requests with
    | nil => exact fun w h _ => ⟨h, fun _ => rfl⟩
    | cons r later ih =>
      intro w h fair
      obtain ⟨sound, first⟩ := transferOne_spec h (fair r List.mem_cons_self)
      obtain ⟨sound, others⟩ := ih _ sound fun q member =>
        (fair q (List.mem_cons_of_mem _ member)).transferOne r
      exact ⟨sound, fun teams => (others teams).trans (first teams)⟩
  obtain ⟨cleared, fair⟩ := h.cleared
  have lots := view_clear blindToProcessor_lot.toBlind w
  obtain ⟨sound, same⟩ := all _ _ cleared fair
  exact ⟨sound, fun teams => (same teams).trans (share_of_lots lots teams)⟩

end World

/-! ### Facilities -/

namespace Facility

variable (settings : Settings) (technologies : List TechHash)

theorem kept_enqueue (hash : TechHash) (s : Stock) :
    (enqueue settings technologies hash s).2.stored = s.stored ∧
      (enqueue settings technologies hash s).2.researched = s.researched := by
  unfold enqueue
  split
  · exact ⟨rfl, rfl⟩
  · split <;> exact ⟨rfl, rfl⟩

theorem kept_operate (s : Stock) (m : Memory) :
    (operate settings technologies s m).1.stored = s.stored ∧
      (operate settings technologies s m).1.researched = s.researched := by
  unfold operate
  split
  · exact ⟨rfl, rfl⟩
  · split
    · exact kept_enqueue settings technologies _ s
    · split
      · split <;> exact ⟨rfl, rfl⟩
      · exact ⟨rfl, rfl⟩

/-- What research costs is counted with what has been researched. -/
theorem units_research (s : Stock) :
    (research settings s).attachment.units settings.researchCost.toNat =
      s.attachment.units settings.researchCost.toNat := by
  unfold research
  split
  · rfl
  · split
    · rename_i hash queue _ enough
      have less := UInt32.toNat_sub_of_le _ _ enough
      rw [UInt32.le_iff_toNat_le] at enough
      simp only [Stock.attachment, Attachment.units, less, List.length_append, List.length_singleton,
        Nat.mul_add, Nat.mul_one]
      omega
    · rfl

end Facility

section

variable (settings : Settings) (technologies : List TechHash)

theorem Entity.attachment_research {e : Entity} {stored : UInt32} {queue researched : List TechHash}
    (facility : e.attachment = .facility stored queue researched) :
    ∃ s : Facility.Stock, s.stored = stored ∧ s.researched = researched ∧
      (e.research settings technologies).attachment = (Facility.research settings s).attachment := by
  unfold research
  rw [facility]
  cases e.processor with
  | none => exact ⟨⟨stored, queue, researched⟩, rfl, rfl, rfl⟩
  | some p =>
    obtain ⟨same, known⟩ := Facility.kept_operate settings technologies
      ⟨stored, queue, researched⟩ p.memory
    exact ⟨_, same, known, rfl⟩

theorem Entity.research_spec {e : Entity} (within : e.attachment.Within) :
    (e.research settings technologies).attachment.Within ∧
      ∀ teams, (e.research settings technologies).share settings.researchCost.toNat teams =
        e.share settings.researchCost.toNat teams := by
  have team : (e.research settings technologies).team = e.team :=
    congrArg Prod.snd (blindToCargo_team.research settings technologies e)
  simp only [Entity.share, team]
  cases attachment : e.attachment with
  | facility stored queue researched =>
    obtain ⟨s, rfl, rfl, same⟩ := Entity.attachment_research settings technologies attachment
    rw [same, Facility.units_research]
    refine ⟨?_, fun _ => rfl⟩
    unfold Facility.Stock.attachment Attachment.Within
    trivial
  | _ =>
    have same : e.research settings technologies = e := by
      unfold research
      rw [attachment]
    rw [same, attachment]
    exact ⟨attachment ▸ within, fun _ => rfl⟩

end

namespace World

variable {settings : Settings} (technologies : List TechHash) {w : World}

theorem share_mapEntities {change : Entity → Entity} {teams : TeamId → Bool}
    (same : ∀ e ∈ w.entities, (change e).share settings.researchCost.toNat teams =
      e.share settings.researchCost.toNat teams) :
    (w.mapEntities change).share settings teams = w.share settings teams :=
  (tally_map change w.entities).trans (tally_congr same)

theorem research_spec (h : w.Sound settings) :
    (w.research settings technologies).Sound settings ∧
      ∀ teams, (w.research settings technologies).share settings teams = w.share settings teams := by
  have same : ∀ teams, (w.research settings technologies).share settings teams = w.share settings teams :=
    fun teams => share_mapEntities fun e there =>
      (Entity.research_spec settings technologies (h.within e there)).2 teams
  refine ⟨⟨?_, ?_, ?_⟩, same⟩
  · exact h.orderly.of_same (view_mapEntities (blindToCargo_id.research settings technologies) w) rfl
  · intro e member
    obtain ⟨x, there, rfl⟩ := List.mem_map.mp member
    exact (Entity.research_spec settings technologies (h.within x there)).1
  · rw [same]
    exact h.fits

theorem extract_spec (h : w.Sound settings) (fits : w.total settings < UInt32.size) :
    (w.extract settings).Sound settings ∧
      (∀ teams, (w.extract settings).share settings teams =
        w.share settings teams + Extractor.drawn settings teams w.entities w.deposits) ∧
      (w.extract settings).total settings = w.total settings := by
  obtain ⟨within, sums, left⟩ := Extractor.runAll_spec settings h.within w.deposits
    settings.researchCost.toNat
  have total : (w.extract settings).total settings = w.total settings := by
    have deposits : (w.extract settings).deposits =
      (Extractor.runAll settings w.entities w.deposits).2 := rfl
    have all : (w.extract settings).share settings (fun _ => true) = w.share settings (fun _ => true) +
      Extractor.drawn settings (fun _ => true) w.entities w.deposits := sums _
    unfold World.total
    rw [deposits, all]
    omega
  refine ⟨⟨?_, within, ?_⟩, sums, total⟩
  · exact h.orderly.of_same (view_extract blindToCargo_id settings w) rfl
  · have most : (w.extract settings).share settings (fun _ => true) ≤
        (w.extract settings).total settings := Nat.le_add_left _ _
    omega

theorem plain_spec (h : w.Sound settings) {d : Device} (plain : handlesCargo d = false) :
    (d.run settings technologies w).Sound settings ∧
      (∀ teams, (d.run settings technologies w).share settings teams = w.share settings teams) ∧
      (d.run settings technologies w).deposits = w.deposits := by
  have lots := view_device blindToProcessor_lot.toBlind settings technologies plain w
  have orderly := h.orderly.of_same (view_run blindToCargo_id settings technologies w d)
    (nextId_run w d)
  refine ⟨h.of_lots orderly (lots ▸ .refl _), share_of_lots lots, ?_⟩
  have other : d ≠ .extractor := by
    intro same
    rw [same] at plain
    cases plain
  exact congrArg Prod.snd (rest_run other w)

/-! ### Every course -/

/-- A world in which the numbers are in order, nothing holds too much, and there are at most so many
units. -/
structure Stocked (settings : Settings) (supply : Nat) (w : World) : Prop where
  orderly : w.Orderly
  within : ∀ e ∈ w.entities, e.attachment.Within
  bounded : w.total settings ≤ supply

/-- The units that an event adds. -/
def supplied : Event → Nat
  | .deposit d => d.amount.toNat
  | _ => 0

/-- The units that events add. -/
def supply (events : List Event) : Nat :=
  tally supplied events

namespace Stocked

variable {n : Nat}

theorem sound (h : w.Stocked settings n) (enough : n < UInt32.size) : w.Sound settings := by
  refine ⟨h.orderly, h.within, ?_⟩
  have part : w.share settings (fun _ => true) ≤ w.total settings := Nat.le_add_left _ _
  exact Nat.lt_of_le_of_lt (Nat.le_trans part h.bounded) enough

theorem of_lots {w' : World} (h : w.Stocked settings n) (orderly : w'.Orderly)
    (lots : (w'.entities.map lot).Sublist (w.entities.map lot)) (deposits : w'.deposits = w.deposits) :
    w'.Stocked settings n := by
  refine ⟨orderly, within_of_lots h.within lots, Nat.le_trans ?_ h.bounded⟩
  unfold World.total
  rw [deposits]
  exact Nat.add_le_add_left (share_le_of_lots lots _) _

theorem spawn {b : Blueprint} (h : w.Stocked settings n) (orderly : (w.spawn settings b).2.Orderly) :
    (w.spawn settings b).2.Stocked settings n := by
  refine ⟨orderly, ?_, ?_⟩
  · intro e member
    rcases List.mem_append.mp member with old | new
    · exact h.within e old
    · rw [List.mem_singleton.mp new]
      exact Attachment.within_ofKind settings b.attachment
  · have empty : (Entity.build settings ⟨w.nextId⟩ b).share settings.researchCost.toNat
        (fun _ => true) = 0 := Attachment.units_ofKind _ settings b.attachment
    have same : (w.spawn settings b).2.share settings (fun _ => true) =
        w.share settings fun _ => true := by
      refine (tally_append _ _).trans ?_
      rw [tally, empty]
      rfl
    unfold World.total
    rw [same]
    exact h.bounded

theorem device (h : w.Stocked settings n) (enough : n < UInt32.size) (d : Device) :
    (d.run settings technologies w).Stocked settings n ∧
      (d.run settings technologies w).total settings = w.total settings := by
  have sound := h.sound enough
  have spec : (d.run settings technologies w).Sound settings ∧
      (d.run settings technologies w).total settings = w.total settings := by
    have kept : ∀ {w' : World}, w'.deposits = w.deposits →
        (∀ teams, w'.share settings teams = w.share settings teams) →
        w'.total settings = w.total settings := by
      intro w' deposits same
      unfold World.total
      rw [deposits, same]
    cases plain : handlesCargo d with
    | false =>
      obtain ⟨sound, same, deposits⟩ := plain_spec technologies sound plain
      exact ⟨sound, kept deposits same⟩
    | true =>
      cases d with
      | extractor =>
        obtain ⟨sound, _, total⟩ := extract_spec sound (Nat.lt_of_le_of_lt h.bounded enough)
        exact ⟨sound, total⟩
      | transporter =>
        obtain ⟨sound, same⟩ := transfer_spec sound
        exact ⟨sound, kept (congrArg Prod.snd (rest_transfer w)) same⟩
      | facility =>
        obtain ⟨sound, same⟩ := research_spec technologies sound
        exact ⟨sound, kept rfl same⟩
      | _ => cases plain
  obtain ⟨sound, total⟩ := spec
  exact ⟨⟨sound.orderly, sound.within, total ▸ h.bounded⟩, total⟩

theorem happen (h : w.Stocked settings n) {event : Event} (enough : n + supplied event < UInt32.size) :
    (w.happen settings technologies event).Stocked settings (n + supplied event) := by
  have orderly := h.orderly.happen settings technologies event
  cases event with
  | spawn b =>
    by_cases last : w.nextId + 1 = 0
    · rw [happen_spawn_last _ _ last]
      exact h
    · rw [happen_spawn _ _ last] at orderly ⊢
      exact h.spawn orderly
  | despawn id => exact h.of_lots orderly (List.filter_sublist.map _) rfl
  | deposit d =>
    refine ⟨orderly, h.within, ?_⟩
    have bounded := h.bounded
    show Deposit.left (w.deposits ++ [d]) + w.share settings _ ≤ n + d.amount.toNat
    have sum : Deposit.left (w.deposits ++ [d]) = Deposit.left w.deposits + d.amount.toNat :=
      tally_append _ _
    unfold World.total at bounded
    omega
  | tend change =>
    have same : ∀ e : Entity, lot (e.tend (change e.id)) = lot e := fun _ => rfl
    exact h.of_lots orderly (view_mapEntities same w ▸ .refl _) rfl
  | programs engine g clock =>
    exact h.of_lots orderly (view_runPrograms blindToProcessor_lot _ g clock w ▸ .refl _) rfl
  | device d => exact (h.device technologies enough d).1
  | deliver => exact h.of_lots orderly (view_deliver blindToProcessor_lot settings w ▸ .refl _) rfl
  | integrate =>
    exact h.of_lots orderly (view_integrate blindToProcessor_lot.health settings w)
      (congrArg Prod.snd (rest_integrate w))

theorem course (h : w.Stocked settings n) (events : List Event)
    (enough : n + supply events < UInt32.size) :
    (w.course settings technologies events).Stocked settings (n + supply events) := by
  induction events generalizing w n with
  | nil => exact h
  | cons event later ih =>
    have sum : n + supply (event :: later) = n + supplied event + supply later :=
      (Nat.add_assoc _ _ _).symm
    rw [sum] at enough ⊢
    exact ih (h.happen technologies (by omega)) enough

end Stocked

/-- What the extractors of some teams draw in a pass of all devices, when it is their turn. -/
def drawn (settings : Settings) (technologies : List TechHash) (teams : TeamId → Bool) (w : World) : Nat :=
  let v := (Device.all.takeWhile (· ≠ .extractor)).foldl (Device.run settings technologies) w
  Extractor.drawn settings teams v.entities v.deposits

theorem devices_spec {n : Nat} (enough : n < UInt32.size) (devices : List Device)
    (h : w.Stocked settings n) :
    (devices.foldl (Device.run settings technologies) w).Stocked settings n ∧
      (devices.foldl (Device.run settings technologies) w).total settings = w.total settings := by
  induction devices generalizing w with
  | nil => exact ⟨h, rfl⟩
  | cons d later ih =>
    obtain ⟨stocked, first⟩ := h.device technologies enough d
    obtain ⟨stocked, others⟩ := ih stocked
    exact ⟨stocked, others.trans first⟩

variable (settings) in
theorem share_plain {devices : List Device} (plain : ∀ d ∈ devices, handlesCargo d = false) (w : World)
    (teams : TeamId → Bool) :
    (devices.foldl (Device.run settings technologies) w).share settings teams =
      w.share settings teams := by
  induction devices generalizing w with
  | nil => rfl
  | cons d later ih =>
    have first := view_device blindToProcessor_lot.toBlind settings technologies
      (plain d List.mem_cons_self) w
    refine (ih (fun x member => plain x (List.mem_cons_of_mem _ member)) _).trans ?_
    exact share_of_lots first teams

theorem share_runDevices {n : Nat} (h : w.Stocked settings n) (enough : n < UInt32.size)
    (teams : TeamId → Bool) :
    (w.runDevices settings technologies).share settings teams =
      w.share settings teams + w.drawn settings technologies teams := by
  have plain : ∀ d ∈ Device.all.takeWhile (· ≠ .extractor), handlesCargo d = false := by
    simp [Device.all, handlesCargo]
  have before := share_plain settings technologies plain w teams
  have ready := (devices_spec technologies enough
    (Device.all.takeWhile (· ≠ .extractor)) h).1
  unfold drawn
  generalize turn : (Device.all.takeWhile (· ≠ .extractor)).foldl (Device.run settings technologies) w =
    v at before ready
  have rest : w.runDevices settings technologies =
      ((v.extract settings).transfer settings).research settings technologies := by
    rw [← turn]
    rfl
  have extracted := extract_spec (ready.sound enough) (Nat.lt_of_le_of_lt ready.bounded enough)
  have transferred := transfer_spec extracted.1
  have researched := research_spec technologies transferred.1
  rw [rest]
  calc (((v.extract settings).transfer settings).research settings technologies).share settings teams
      = ((v.extract settings).transfer settings).share settings teams := researched.2 teams
    _ = (v.extract settings).share settings teams := transferred.2 teams
    _ = v.share settings teams + Extractor.drawn settings teams v.entities v.deposits :=
        extracted.2.1 teams
    _ = w.share settings teams + Extractor.drawn settings teams v.entities v.deposits := by rw [before]

/-- As long as all deposits together hold less than a word can count, a pass of all devices neither makes
nor loses a unit, whatever programs ask for. Each team ends the pass with what it held before and what its
own extractors have drawn, and nothing ever holds more than it has room for. An arena ends where it would give
out the last number for entities, and so a course adds none there. -/
theorem cargo_is_conserved (settings : Settings) (technologies : List TechHash) (events : List Event)
    (countable : supply events < UInt32.size) :
    (∀ e ∈ (World.course settings technologies {} events).entities, e.attachment.Within) ∧
      ((World.course settings technologies {} events).runDevices settings technologies).total settings =
        (World.course settings technologies {} events).total settings ∧
      ∀ team, ((World.course settings technologies {} events).runDevices settings
          technologies).holdings settings team =
        (World.course settings technologies {} events).holdings settings team +
          (World.course settings technologies {} events).drawn settings technologies (· = team) := by
  have start : Stocked settings 0 {} :=
    ⟨orderly_course settings technologies [],
      fun _ none => absurd none List.not_mem_nil, Nat.le_refl _⟩
  have stocked := start.course technologies events (by omega)
  rw [Nat.zero_add] at stocked
  exact ⟨stocked.within, (devices_spec technologies countable Device.all stocked).2,
    fun team => share_runDevices technologies stocked countable _⟩

/-- A deposit, and an extractor beside it whose program asks for units. -/
def digging : List World.Event :=
  [.deposit ⟨.zero, 30⟩, .spawn { team := ⟨1⟩, attachment := .extractor },
    .tend fun _ p => { p with memory := p.memory.setByte Layout.extractorRequest 1 }]

theorem digging_keeps_thirty :
    supply digging < UInt32.size ∧
      ((World.course {} [] {} digging).runDevices {} []).total {} = 30 := by
  have countable : supply digging < UInt32.size := by decide
  have before : (World.course {} [] {} digging).total {} = 30 := by decide +kernel
  exact ⟨countable, (cargo_is_conserved {} [] digging countable).2.1.trans before⟩

end World

end RobotArena
