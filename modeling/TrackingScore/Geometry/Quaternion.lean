import TrackingScore.Geometry.Vector3

/-!
Quaternions as orientations and rotations. A rotation is represented by a quaternion of norm one
and equally by its negative; no operation changes the sign.
-/

namespace TrackingScore

structure Quaternion (α : Type) where
  w : α
  x : α
  y : α
  z : α
  deriving Repr, DecidableEq

namespace Quaternion

def mapM {m : Type → Type} [Monad m] {β γ : Type} (f : β → m γ) (q : Quaternion β) :
    m (Quaternion γ) := do
  return ⟨← f q.w, ← f q.x, ← f q.y, ← f q.z⟩

open Scalar

variable {α : Type} [Scalar α]

def identity : Quaternion α := ⟨1.0, 0.0, 0.0, 0.0⟩

instance : Add (Quaternion α) where
  add a b := ⟨a.w + b.w, a.x + b.x, a.y + b.y, a.z + b.z⟩

instance : Sub (Quaternion α) where
  sub a b := ⟨a.w - b.w, a.x - b.x, a.y - b.y, a.z - b.z⟩

instance : Neg (Quaternion α) where
  neg a := ⟨-a.w, -a.x, -a.y, -a.z⟩

instance : Mul (Quaternion α) where
  mul a b :=
    ⟨a.w * b.w - a.x * b.x - a.y * b.y - a.z * b.z,
      a.w * b.x + a.x * b.w + a.y * b.z - a.z * b.y,
      a.w * b.y - a.x * b.z + a.y * b.w + a.z * b.x,
      a.w * b.z + a.x * b.y - a.y * b.x + a.z * b.w⟩

def scale (q : Quaternion α) (s : α) : Quaternion α := ⟨q.w * s, q.x * s, q.y * s, q.z * s⟩

def divide (q : Quaternion α) (s : α) : Quaternion α := ⟨q.w / s, q.x / s, q.y / s, q.z / s⟩

def dot (a b : Quaternion α) : α := (a.x * b.x + a.z * b.z) + (a.y * b.y + a.w * b.w)

def norm (q : Quaternion α) : α := sqrt (q.dot q)

def normalize (q : Quaternion α) : Quaternion α := q.divide q.norm

def conjugate (q : Quaternion α) : Quaternion α := ⟨q.w, -q.x, -q.y, -q.z⟩

def imaginary (q : Quaternion α) : Vector3 α := ⟨q.x, q.y, q.z⟩

def ofAxisAngle (axis : Vector3 α) (angle : α) : Quaternion α :=
  let half := angle / 2.0
  let v := axis.scale (sin half)
  ⟨cos half, v.x, v.y, v.z⟩

def rotate (q : Quaternion α) (v : Vector3 α) : Vector3 α :=
  let t := (q.imaginary.cross v).scale 2.0
  t.scale q.w + q.imaginary.cross t + v

def angle (q : Quaternion α) : α := atan2 q.imaginary.norm (abs q.w) * 2.0

/-- Componentwise interpolation brought back to norm one. The way is a chord of the sphere of
rotations and not an arc of it. -/
def lerp (a b : Quaternion α) (fraction : α) : Quaternion α :=
  (a + (b - a).scale fraction).normalize

/-- Numerical equality as rotations, where `q` and `-q` are one. -/
def sameRotation (a b : Quaternion α) : Bool :=
  (same a.w b.w && same a.x b.x && same a.y b.y && same a.z b.z) ||
    (same a.w (-b.w) && same a.x (-b.x) && same a.y (-b.y) && same a.z (-b.z))

end Quaternion
end TrackingScore
