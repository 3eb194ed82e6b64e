import TrackingScore.Scalar

/-!
Vectors of three coordinates. The order of the operations in `dot` and `cross` is part of the
definition, because binary arithmetic tells orders apart.
-/

namespace TrackingScore

structure Vector3 (α : Type) where
  x : α
  y : α
  z : α
  deriving Repr, DecidableEq

namespace Vector3

def mapM {m : Type → Type} [Monad m] {β γ : Type} (f : β → m γ) (v : Vector3 β) :
    m (Vector3 γ) := do
  return ⟨← f v.x, ← f v.y, ← f v.z⟩

open Scalar

variable {α : Type} [Scalar α]

def zero : Vector3 α := ⟨0.0, 0.0, 0.0⟩

instance : Add (Vector3 α) where
  add a b := ⟨a.x + b.x, a.y + b.y, a.z + b.z⟩

instance : Sub (Vector3 α) where
  sub a b := ⟨a.x - b.x, a.y - b.y, a.z - b.z⟩

instance : Neg (Vector3 α) where
  neg a := ⟨-a.x, -a.y, -a.z⟩

def scale (v : Vector3 α) (s : α) : Vector3 α := ⟨v.x * s, v.y * s, v.z * s⟩

def dot (a b : Vector3 α) : α := a.x * b.x + a.y * b.y + a.z * b.z

def cross (a b : Vector3 α) : Vector3 α :=
  ⟨a.y * b.z - a.z * b.y, a.z * b.x - a.x * b.z, a.x * b.y - a.y * b.x⟩

def norm (v : Vector3 α) : α := sqrt (v.dot v)

def normalize (v : Vector3 α) : Vector3 α :=
  let n := v.norm
  ⟨v.x / n, v.y / n, v.z / n⟩

def lerp (a b : Vector3 α) (fraction : α) : Vector3 α := a + (b - a).scale fraction

def isFinite (v : Vector3 α) : Bool :=
  Scalar.isFinite v.x && Scalar.isFinite v.y && Scalar.isFinite v.z

def same (a b : Vector3 α) : Bool :=
  Scalar.same a.x b.x && Scalar.same a.y b.y && Scalar.same a.z b.z

end Vector3
end TrackingScore
