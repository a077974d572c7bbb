import RobotArena.Text.Hex

/-!
# Identities

The names of peers, program sources, robots and teams. A source belongs to the peer that serves
its text, and the same path on two peers names two sources.
-/

namespace RobotArena

/-- A peer: a player's client, or the server. -/
structure PeerId where
  bits : BitVec 128
  deriving DecidableEq, Repr

namespace PeerId

/-- The server, which owns the sources that are at hand locally. -/
def server : PeerId := ⟨0⟩

/-- The peer's number as 32 hexadecimal digits in groups of 8, 4, 4, 4 and 12. -/
def render (p : PeerId) : String :=
  let digits := Text.hexPadded 32 p.bits.toNat
  let group (start size : Nat) := (digits.drop start).take size
  String.ofList (group 0 8 ++ '-' :: group 8 4 ++ '-' :: group 12 4 ++ '-' :: group 16 4 ++
    '-' :: group 20 12)

/-- Reads 32 hexadecimal digits of either case. -/
def ofDigits? (digits : List Char) : Option PeerId :=
  if digits.length = 32 then (Text.readHex? digits).map fun n => ⟨BitVec.ofNat 128 n⟩ else none

/-- Reads hexadecimal digits in groups of 8, 4, 4, 4 and 12. -/
def ofGroups? (cs : List Char) : Option PeerId :=
  let hyphens := [8, 13, 18, 23].all fun i => cs[i]? == some '-'
  let digits := cs.filter (· != '-')
  if cs.length = 36 ∧ hyphens then ofDigits? digits else none

/-- Reads a peer's number: 32 digits, or digits in groups, which may stand in braces or behind the
words `urn:uuid:` in either case. -/
def read? (s : String) : Option PeerId :=
  let cs := s.toList
  if cs.length = 32 then ofDigits? cs
  else if cs.length = 36 then ofGroups? cs
  else if cs.length = 38 ∧ cs.head? = some '\x7b' ∧ cs.getLast? = some '\x7d' then
    ofGroups? cs.tail.dropLast
  else if cs.length = 45 ∧ (cs.take 9).map Char.toLower = "urn:uuid:".toList then
    ofGroups? (cs.drop 9)
  else none

end PeerId

/-- A program source: a path on the peer that owns it. -/
structure SourceId where
  path : String
  owner : PeerId
  deriving DecidableEq, Repr

namespace SourceId

/-- A source of the server. -/
def ofPath (path : String) : SourceId :=
  ⟨path, .server⟩

/-- Another path on the same peer. -/
def sibling (s : SourceId) (path : String) : SourceId :=
  ⟨path, s.owner⟩

/-- The path, followed by the owner if that is not the server. -/
def render (s : SourceId) : String :=
  if s.owner = .server then s.path else s!"{s.path}@{s.owner.render}"

/-- The order by path and then by owner. -/
def le (s t : SourceId) : Bool :=
  if s.path = t.path then s.owner.bits.toNat ≤ t.owner.bits.toNat else s.path < t.path

/-- The sources by path and then by owner. -/
def sort (sources : List SourceId) : List SourceId :=
  sources.mergeSort le

end SourceId

/-- A robot or another thing in the arena. -/
structure EntityId where
  number : UInt32
  deriving DecidableEq, Inhabited, Repr

/-- A team of entities. -/
structure TeamId where
  number : UInt16
  deriving DecidableEq, Inhabited, Repr

end RobotArena
