import RobotArena.Memory.Attachment
import RobotArena.Memory.Chassis
import RobotArena.Memory.Console
import RobotArena.Proofs.Memory.Blocks

/-!
# The registers that the arena writes

Each operation that the arena's devices make on a program's memory stays within some registers. The
registers of all devices together lie apart from everything that belongs to the program.
-/

namespace RobotArena

/-- Some bytes of memory. -/
structure Field where
  start : Nat
  size : Nat

namespace Field

/-- The address is one of the field's. -/
def Has (f : Field) (address : Nat) : Prop :=
  f.start ≤ address ∧ address < f.start + f.size

/-- No address belongs to both fields. -/
def Apart (f g : Field) : Prop :=
  f.start + f.size ≤ g.start ∨ g.start + g.size ≤ f.start

instance (f g : Field) : Decidable (f.Apart g) :=
  inferInstanceAs (Decidable (_ ∨ _))

theorem Apart.not_has {f g : Field} (apart : f.Apart g) {address : Nat} (has : f.Has address) :
    ¬g.Has address := by
  unfold Apart at apart
  unfold Has at has ⊢
  omega

end Field

/-! ### Staying within fields -/

namespace Memory

/-- Only bytes of the fields differ. -/
def Within (fields : List Field) (m m' : Memory) : Prop :=
  ∀ address, (∀ f ∈ fields, ¬f.Has address) → m'.byte address = m.byte address

variable {fields more : List Field} {m m' m'' : Memory}

theorem Within.refl (m : Memory) : Within fields m m :=
  fun _ _ => rfl

theorem Within.trans (first : Within fields m m') (second : Within fields m' m'') :
    Within fields m m'' :=
  fun address outside => (second address outside).trans (first address outside)

theorem Within.mono (within : Within fields m m') (sub : fields ⊆ more) : Within more m m' :=
  fun address outside => within address fun f member => outside f (sub member)

/-- A field that lies apart from all of them keeps its bytes. -/
theorem Within.kept (within : Within fields m m') {f : Field} (apart : ∀ g ∈ fields, f.Apart g)
    {address : Nat} (has : f.Has address) : m'.byte address = m.byte address :=
  within address fun g member => (apart g member).not_has has

theorem Within.setBytesAt {f : Field} (member : f ∈ fields) {address : Nat} {bs : List UInt8}
    (low : f.start ≤ address) (high : address + bs.length ≤ f.start + f.size) :
    Within fields m (m.setBytes address bs) := by
  intro i outside
  refine byte_setBytes_outside m address ?_
  have out := outside f member
  unfold Field.Has at out
  omega

theorem Within.setBytes {f : Field} (member : f ∈ fields) {bs : List UInt8} (fits : bs.length ≤ f.size) :
    Within fields m (m.setBytes f.start bs) :=
  Within.setBytesAt member (Nat.le_refl _) (Nat.add_le_add_left fits _)

theorem Within.setWord {address : Nat} (member : ⟨address, 4⟩ ∈ fields) (w : UInt32) :
    Within fields m (m.setWord address w) :=
  Within.setBytes member (Nat.le_refl 4)

theorem Within.setNumber {address : Nat} (member : ⟨address, 4⟩ ∈ fields) (x : Binary32) :
    Within fields m (m.setNumber address x) :=
  Within.setWord member x.bits

theorem Within.setByte {address : Nat} (member : ⟨address, 1⟩ ∈ fields) (b : UInt8) :
    Within fields m (m.setByte address b) :=
  Within.setBytes member (show [b].length ≤ 1 from Nat.le_refl 1)

end Memory

/-! ### The fields of each device -/

namespace Layout

/-- The fields of what is printed. -/
def stdoutFields : List Field :=
  [⟨stdout, stdoutCapacity⟩, ⟨stdoutLength, 4⟩]

/-- The fields of a console. -/
def consoleFields : List Field :=
  [⟨stdinRequest, 1⟩, ⟨stdinLength, 4⟩, ⟨stdinData, stdinCapacity⟩]

/-- The field of the text that a trap leaves. -/
def crashFields : List Field :=
  [⟨crashMessage, crashMessageCapacity⟩]

/-- The fields of navigation. -/
def navigationFields : List Field :=
  [⟨navX, 4⟩, ⟨navY, 4⟩, ⟨navHeading, 4⟩]

/-- The fields of a radar. -/
def radarFields : List Field :=
  [⟨radarRequest, 1⟩, ⟨radarCount, 4⟩, ⟨radarResults, radarSlots * radarSlotSize⟩]

/-- The fields that an attachment of a kind writes. -/
def attachmentFields : AttachmentKind → List Field
  | .none => []
  | .turret => [⟨turretShoot, 1⟩, ⟨turretAngle, 4⟩, ⟨turretCooldown, 4⟩]
  | .extractor =>
    [⟨extractorRequest, 1⟩, ⟨extractorStatus, 1⟩, ⟨extractorStored, 4⟩, ⟨extractorCapacity, 4⟩]
  | .transporter =>
    [⟨transporterCommand, 1⟩, ⟨transporterStatus, 1⟩, ⟨transporterAmount, 4⟩, ⟨transporterPartner, 4⟩]
  | .facility =>
    [⟨facilityOp, 1⟩, ⟨facilityStatus, 1⟩, ⟨facilityQueueLength, 4⟩, ⟨facilityHash, hashSize⟩]

/-- The fields that belong to the program of a robot with an attachment of a kind: the heap, the stack, what
is printed, the text of a trap and the wanted values, and without an attachment all that it would have. -/
def programFields (kind : AttachmentKind) : List Field :=
  [⟨heapBase, stackBase⟩, ⟨stackBase, stackTop - stackBase⟩, ⟨stdout, stdoutCapacity⟩, ⟨stdoutLength, 4⟩,
    ⟨crashMessage, crashMessageCapacity⟩, ⟨driveThrottle, 4⟩, ⟨driveTargetHeading, 4⟩, ⟨radarRange, 4⟩] ++
  match kind with
  | .none => [⟨attachmentBase, Memory.size - attachmentBase⟩]
  | .turret => [⟨turretTargetAngle, 4⟩]
  | _ => []

theorem programFields_apart (kind : AttachmentKind) : ∀ f ∈ programFields kind,
    ∀ g ∈ consoleFields ++ navigationFields ++ radarFields ++ attachmentFields kind, f.Apart g := by
  cases kind <;> decide

/-- The request to the radar is in no field of the console or of navigation. -/
theorem radarRequest_apart : ∀ g ∈ consoleFields ++ navigationFields, (⟨radarRequest, 1⟩ : Field).Apart g := by
  decide

end Layout

namespace Memory

open Layout

variable (m : Memory)

theorem within_deliverStdin (line : List UInt8) : Within consoleFields m (m.deliverStdin line) := by
  have fits : (line.take stdinCapacity).length ≤ stdinCapacity := List.length_take_le _ _
  have data : Within consoleFields m (m.setBytes stdinData (line.take stdinCapacity)) :=
    Within.setBytes (f := ⟨stdinData, stdinCapacity⟩) (by simp [consoleFields]) fits
  exact (data.trans (.setWord (by simp [consoleFields]) _)).trans (.setByte (by simp [consoleFields]) _)

theorem within_setCrashMessage (message : String) : Within crashFields m (m.setCrashMessage message) := by
  have cut : ((Text.toBytes message).take (crashMessageCapacity - 1)).length ≤ crashMessageCapacity - 1 :=
    List.length_take_le _ _
  refine Within.setBytes (f := ⟨crashMessage, crashMessageCapacity⟩) (by simp [crashFields]) ?_
  rw [List.length_append, List.length_singleton]
  exact Nat.succ_le_succ cut

theorem within_navigate (position : Vec2) (heading : Binary32) :
    Within navigationFields m ((m.setPosition position).setHeading heading) := by
  unfold setPosition setHeading
  have x : Within navigationFields m (m.setNumber navX position.x) := .setNumber (by simp [navigationFields]) _
  exact (x.trans (.setNumber (by simp [navigationFields]) _)).trans (.setNumber (by simp [navigationFields]) _)

theorem length_encode (contacts : List Contact) :
    (contacts.flatMap Contact.encode).length = contacts.length * radarSlotSize := by
  induction contacts with
  | nil => rfl
  | cons c rest ih =>
    have one : c.encode.length = radarSlotSize := rfl
    rw [List.flatMap_cons, List.length_append, ih, one, List.length_cons, Nat.add_mul, Nat.one_mul, Nat.add_comm]

theorem within_answerRadar (contacts : List Contact) : Within radarFields m (m.answerRadar contacts) := by
  have fits : ((contacts.take radarSlots).flatMap Contact.encode).length ≤ radarSlots * radarSlotSize := by
    rw [length_encode]
    exact Nat.mul_le_mul_right _ (List.length_take_le _ _)
  unfold answerRadar
  generalize contacts.take radarSlots = shown at fits ⊢
  have results : Within radarFields m (m.setBytes radarResults (shown.flatMap Contact.encode)) :=
    Within.setBytes (f := ⟨radarResults, radarSlots * radarSlotSize⟩) (by simp [radarFields]) fits
  exact (results.trans (.setWord (by simp [radarFields]) _)).trans (.setByte (by simp [radarFields]) _)

theorem within_showTurret (angle : Binary32) (cooldown : UInt32) :
    Within (attachmentFields .turret) m (m.clearShoot.showTurret angle cooldown) := by
  have shoot : Within (attachmentFields .turret) m m.clearShoot := .setByte (by simp [attachmentFields]) _
  exact (shoot.trans (.setNumber (by simp [attachmentFields]) _)).trans (.setWord (by simp [attachmentFields]) _)

theorem within_clearExtraction : Within (attachmentFields .extractor) m m.clearExtraction :=
  .setByte (by simp [attachmentFields]) _

theorem within_setExtractorStatus (status : UInt8) :
    Within (attachmentFields .extractor) m (m.setExtractorStatus status) :=
  .setByte (by simp [attachmentFields]) _

theorem within_showStorage (stored capacity : UInt32) :
    Within (attachmentFields .extractor) m (m.showStorage stored capacity) := by
  have first : Within (attachmentFields .extractor) m (m.setWord extractorStored stored) :=
    .setWord (by simp [attachmentFields]) _
  exact first.trans (.setWord (by simp [attachmentFields]) _)

theorem within_clearTransfer : Within (attachmentFields .transporter) m m.clearTransfer :=
  .setByte (by simp [attachmentFields]) _

theorem within_showTransfer (status : UInt8) (amount partner : UInt32) :
    Within (attachmentFields .transporter) m (m.showTransfer status amount partner) := by
  have first : Within (attachmentFields .transporter) m (m.setByte transporterStatus status) :=
    .setByte (by simp [attachmentFields]) _
  exact (first.trans (.setWord (by simp [attachmentFields]) _)).trans (.setWord (by simp [attachmentFields]) _)

theorem within_setFacilityHash {hash : List UInt8} (size : hash.length = hashSize) :
    Within (attachmentFields .facility) m (m.setFacilityHash hash) :=
  Within.setBytes (f := ⟨Layout.facilityHash, hashSize⟩) (by simp [attachmentFields]) (Nat.le_of_eq size)

theorem within_answerFacility (status : UInt8) :
    Within (attachmentFields .facility) m (m.answerFacility status) := by
  have first : Within (attachmentFields .facility) m (m.setByte facilityStatus status) :=
    .setByte (by simp [attachmentFields]) _
  exact first.trans (.setByte (by simp [attachmentFields]) _)

theorem within_setQueueLength (length : UInt32) :
    Within (attachmentFields .facility) m (m.setQueueLength length) :=
  .setWord (by simp [attachmentFields]) _

end Memory

end RobotArena
