import RobotArena.Technology.Blake3
import RobotArena.Text.Hex
import RobotArena.Text.Utf8

/-!
# Technologies

A technology is known to programs by the hash of its name.
-/

namespace RobotArena

/-- The hash of a technology's name: 32 bytes. -/
structure TechHash where
  bytes : List UInt8
  size : bytes.length = 32
  deriving DecidableEq, Repr

namespace TechHash

/-- The hash of a name. -/
def ofName (name : String) : TechHash :=
  ⟨Blake3.hash (Text.toBytes name), Blake3.length_hash _⟩

/-- The first six bytes, in hexadecimal. -/
def render (h : TechHash) : String :=
  Text.hexBytes (h.bytes.take 6)

/-- The short text with the name of its type, for logs. -/
def describe (h : TechHash) : String :=
  s!"TechHash({h.render})"

end TechHash

end RobotArena
