import TrackingScore.Executor
import TrackingScore.Scalar

/-!
Parameters of the comparison of frames, and their JSON form. The folder diagnostics go to by
default belongs to the machine, so the defaults are those of a given folder.
-/

namespace TrackingScore

open Json (Reader)

structure FrameDistanceParams (α : Type) where
  diagnosticProbability : α
  /-- Where diagnostics go; nowhere if absent. -/
  diagnosticDir : Option String
  executor : ExecutorKind
  maxFeatures : UInt64
  deriving Repr, DecidableEq

namespace FrameDistanceParams

variable {α : Type}

def default [Scalar α] (folder : String) : FrameDistanceParams α :=
  ⟨1.0 / 200.0, some folder, .threadPool none, 500⟩

def same [Scalar α] (p q : FrameDistanceParams α) : Bool :=
  Scalar.same p.diagnosticProbability q.diagnosticProbability &&
    p.diagnosticDir = q.diagnosticDir && p.executor = q.executor && p.maxFeatures = q.maxFeatures

variable (format : Json.NumberFormat α)

def toJson (p : FrameDistanceParams α) : Json :=
  .object [("diagnostic_probability", format.write p.diagnosticProbability),
    ("diagnostic_dir", .ofOption .string p.diagnosticDir),
    ("executor", p.executor.toJson),
    ("max_features", .ofUInt64 p.maxFeatures)]

def fields : List (Reader.Field (FrameDistanceParams α)) :=
  [Reader.field "diagnostic_probability" (Reader.number format) fun x p =>
      { p with diagnosticProbability := x },
    Reader.field "diagnostic_dir" (Reader.nullable (Reader.text format)) fun s p =>
      { p with diagnosticDir := s },
    Reader.field "executor" (ExecutorKind.ofDraft format) fun e p => { p with executor := e },
    Reader.field "max_features" (Reader.uint64 format) fun n p => { p with maxFeatures := n }]

def ofDraft [Scalar α] (folder : String) : Reader (FrameDistanceParams α) :=
  Reader.record format (fields format) (default folder)

end FrameDistanceParams
end TrackingScore
