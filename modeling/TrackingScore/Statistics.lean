import TrackingScore.Scalar

/-!
Figures that sum up a list of numbers.
-/

namespace TrackingScore

open Scalar

variable {α : Type} [Scalar α]

structure Summary (α : Type) where
  median : α
  mean : α
  max : α
  deriving Repr, DecidableEq

def sorted (values : List α) : List α := values.mergeSort sortsBefore

def middle (values : List α) : α :=
  let mid := values.length / 2
  if values.length % 2 = 0 then (values.getD (mid - 1) 0.0 + values.getD mid 0.0) * 0.5
  else values.getD mid 0.0

def average (values : List α) : α := total values / ofNat values.length

/-- Root of the mean of the squares, zero for an empty list. -/
def rms (values : List α) : α :=
  if values.isEmpty then 0.0 else sqrt (average (values.map fun v => v * v))

/-- All zero for an empty list. -/
def Summary.ofValues (values : List α) : Summary α :=
  if values.isEmpty then ⟨0.0, 0.0, 0.0⟩
  else ⟨middle (sorted values), average values, (sorted values).getLastD 0.0⟩

structure ColumnSummary (α : Type) where
  mean : α
  rmse : α
  median : α
  max : α
  deriving Repr, DecidableEq

def ColumnSummary.ofValues (values : List α) : ColumnSummary α :=
  let summary := Summary.ofValues values
  ⟨summary.mean, rms values, summary.median, summary.max⟩

end TrackingScore
