import TrackingScore.Scalar

/-!
Points of interest of an image and the numbers that describe their surroundings.
-/

namespace TrackingScore

structure Keypoint (ρ : Type) where
  row : Nat
  col : Nat
  response : ρ
  deriving Repr, DecidableEq

structure Descriptors (ρ : Type) where
  size : Nat
  rows : List (List ρ)
  length_eq : ∀ row ∈ rows, row.length = size

structure Features (ρ : Type) where
  keypoints : List (Keypoint ρ)
  descriptors : Descriptors ρ

namespace Descriptors

variable {ρ : Type}

def empty (size : Nat) : Descriptors ρ := ⟨size, [], by simp⟩

def ofRows? (size : Nat) (rows : List (List ρ)) : Option (Descriptors ρ) :=
  if h : ∀ row ∈ rows, row.length = size then some ⟨size, rows, h⟩ else none

end Descriptors
end TrackingScore
