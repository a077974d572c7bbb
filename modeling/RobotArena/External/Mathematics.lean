import RobotArena.External.Call
import RobotArena.Pseudorandom

/-!
# Mathematical functions

Functions of their arguments alone. Angles are in degrees.
-/

namespace RobotArena.External

/-- The square root. -/
def sqrt : External :=
  ofPure 0 "sqrt" 4 4 fun args => (args.number 0).sqrt.bits

/-- The sine. -/
def sin : External :=
  ofPure 1 "sin" 4 4 fun args => (args.number 0).toRadians.sin.bits

/-- The cosine. -/
def cos : External :=
  ofPure 2 "cos" 4 4 fun args => (args.number 0).toRadians.cos.bits

/-- The direction of the point whose second coordinate comes first. -/
def atan2 : External :=
  ofPure 3 "atan2" 8 4 fun args =>
    (Binary32.atan2 (args.number 0) (args.number 1)).toDegrees.bits

/-- A pseudorandom word for a seed. -/
def random : External :=
  ofPure 4 "random" 4 4 fun args => Pseudorandom.word (args 0)

/-- The mathematical functions. -/
def mathematics : List External :=
  [sqrt, sin, cos, atan2, random]

end RobotArena.External
