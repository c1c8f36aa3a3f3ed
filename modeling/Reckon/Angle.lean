/-! Angles are entered and shown in one of two units. -/

namespace Reckon

inductive AngleMode where
  | degrees
  | radians
deriving DecidableEq, Repr

def pi : Float := 3.141592653589793

def euler : Float := 2.718281828459045

namespace AngleMode

def radiansPerDegree : Float := pi / 180.0

def degreesPerRadian : Float := 180.0 / pi

/-- The angle that a number entered in this unit means. -/
def toRadians (mode : AngleMode) (angle : Float) : Float :=
  match mode with
  | degrees => angle * radiansPerDegree
  | radians => angle

/-- The number that shows an angle in this unit. -/
def ofRadians (mode : AngleMode) (angle : Float) : Float :=
  match mode with
  | degrees => angle * degreesPerRadian
  | radians => angle

end AngleMode

end Reckon
