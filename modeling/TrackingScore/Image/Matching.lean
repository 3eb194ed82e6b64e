import TrackingScore.Error
import TrackingScore.Image.Features

/-!
Exhaustive matching of descriptors by distance. A query is matched with the first of its nearest
candidates; a cross check keeps only pairs that are so in both directions.
-/

namespace TrackingScore

open Scalar

structure DescriptorMatch (ρ : Type) where
  query : Nat
  train : Nat
  distance : ρ
  deriving Repr, DecidableEq

structure DescriptorMatcher (ρ α : Type) where
  run : Descriptors ρ → Descriptors ρ → Except (EvalError α) (List (DescriptorMatch ρ))

variable {ρ : Type} [Scalar ρ]

def rowDistance (a b : List ρ) : ρ :=
  sqrt (total (List.zipWith (fun x y => (x - y) * (x - y)) a b))

def nearer (best : Option (Nat × ρ)) (candidate : Nat × ρ) : Option (Nat × ρ) :=
  match best with
  | some (index, distance) =>
    if atMost distance candidate.2 then some (index, distance) else some candidate
  | none => some candidate

/-- Index and distance of the row nearest to a descriptor, the first among equals. -/
def nearestRow? (descriptor : List ρ) (rows : List (List ρ)) : Option (Nat × ρ) :=
  (rows.mapIdx fun index row => (index, rowDistance descriptor row)).foldl nearer none

structure BruteForceMatcher where
  crossCheck : Bool
  deriving Repr, DecidableEq

namespace BruteForceMatcher

/-- Whether a query row is the nearest one of the row it was matched with. -/
def isMutual (query train : List (List ρ)) (i j : Nat) : Bool :=
  match train[j]? with
  | none => false
  | some row =>
    match nearestRow? row query with
    | some (back, _) => back = i
    | none => false

def matchOf? (m : BruteForceMatcher) (query train : List (List ρ)) (i : Nat) (row : List ρ) :
    Option (DescriptorMatch ρ) :=
  match nearestRow? row train with
  | none => none
  | some (j, distance) =>
    if m.crossCheck && !isMutual query train i j then none else some ⟨i, j, distance⟩

def matchRows {α : Type} (m : BruteForceMatcher) (query train : Descriptors ρ) :
    Except (EvalError α) (List (DescriptorMatch ρ)) :=
  if query.size = train.size then
    .ok ((query.rows.mapIdx (m.matchOf? query.rows train.rows)).filterMap id)
  else .error (.invalidParameter (.descriptorSizes query.size train.size))

def matcher (ρ α : Type) [Scalar ρ] (m : BruteForceMatcher) : DescriptorMatcher ρ α :=
  ⟨m.matchRows⟩

end BruteForceMatcher
end TrackingScore
