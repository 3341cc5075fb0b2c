import EERDiagram.Decimal.Binary

/-! Automatic placement. Nodes without a position are put on a spiral around a fixed center:
each one turns the spiral by a fixed angle, and the distance grows with the angle. -/
namespace EERDiagram

/-- The radius is the distance at angle zero; `growth` is added to it for each radian. -/
structure Spiral where
  centerX : Float := 400.0
  centerY : Float := 300.0
  radius : Float := 250.0
  angleStep : Float := 0.6
  growth : Float := 15.0
  deriving DecidableEq, Repr

inductive PlacementError where
  /-- The sine and cosine of an infinite angle do not exist. -/
  | infiniteAngle
  | rounding (error : Decimal.RoundingError)
  deriving DecidableEq, Repr

def PlacementError.message : PlacementError → String
  | .infiniteAngle => "math domain error"
  | .rounding error => error.message

namespace Spiral

def turn (s : Spiral) (angle : Float) : Float := angle + s.angleStep

def wholeCoordinate (x : Float) : Except PlacementError Int :=
  match Decimal.roundHalfUp x with
  | .ok n => .ok n
  | .error e => .error (.rounding e)

def point (s : Spiral) (angle : Float) : Except PlacementError (Int × Int) :=
  let distance := s.radius + angle * s.growth
  if angle.isInf then .error .infiniteAngle
  else do
    let x ← wholeCoordinate (s.centerX + angle.cos * distance)
    let y ← wholeCoordinate (s.centerY + angle.sin * distance)
    return (x, y)

def angleAfter (s : Spiral) : Nat → Float
  | 0 => 0.0
  | n + 1 => s.turn (s.angleAfter n)

/-- The point for the node that comes after `index` others without a position. -/
def place (s : Spiral) (index : Nat) : Except PlacementError (Int × Int) :=
  s.point (s.angleAfter (index + 1))

end Spiral
end EERDiagram
