import TrackingScore.Alignment
import TrackingScore.Frame.Matching
import TrackingScore.FrameDistance.Params
import TrackingScore.Table.Field

/-!
All parameters of an evaluation. They are kept as JSON text; a field that a text leaves out has its
default.
-/

namespace TrackingScore

open Json (Reader)

structure EvalParams (α : Type) where
  alignment : AlignmentParams α
  matching : MatchParams
  frameDistance : FrameDistanceParams α
  deriving Repr, DecidableEq

section Defaults

variable {α : Type} [Scalar α]

def EvalParams.default (folder : String) : EvalParams α :=
  ⟨.default, .default, .default folder⟩

def AlignmentParams.same (p q : AlignmentParams α) : Bool :=
  Scalar.same p.minDirectionNorm q.minDirectionNorm &&
    Scalar.same p.parallelTolerance q.parallelTolerance

def EvalParams.same (p q : EvalParams α) : Bool :=
  p.alignment.same q.alignment && p.matching = q.matching && p.frameDistance.same q.frameDistance

end Defaults

variable {α : Type} (format : Json.NumberFormat α)

def AlignmentParams.toJson (p : AlignmentParams α) : Json :=
  .object [("min_direction_norm", format.write p.minDirectionNorm),
    ("parallel_tolerance", format.write p.parallelTolerance)]

def AlignmentParams.fields : List (Reader.Field (AlignmentParams α)) :=
  [Reader.field "min_direction_norm" (Reader.number format) fun x p => { p with minDirectionNorm := x },
    Reader.field "parallel_tolerance" (Reader.number format) fun x p => { p with parallelTolerance := x }]

def MatchParams.toJson (p : MatchParams) : Json := .object [("warmup_ns", .ofInt64 p.warmupNs)]

def MatchParams.fields : List (Reader.Field MatchParams) :=
  [Reader.field "warmup_ns" (Reader.int64 format) fun t _ => ⟨t⟩]

namespace EvalParams

def toJson (p : EvalParams α) : Json :=
  .object [("alignment", p.alignment.toJson format), ("matching", p.matching.toJson),
    ("frame_distance", p.frameDistance.toJson format)]

def toText (p : EvalParams α) : String := (p.toJson format).indented

variable [Scalar α] (folder : String)

def fields : List (Reader.Field (EvalParams α)) :=
  [Reader.field "alignment"
      (Reader.record format (AlignmentParams.fields format) AlignmentParams.default)
      fun a p => { p with alignment := a },
    Reader.field "matching" (Reader.record format (MatchParams.fields format) MatchParams.default)
      fun m p => { p with matching := m },
    Reader.field "frame_distance" (FrameDistanceParams.ofDraft format folder)
      fun d p => { p with frameDistance := d }]

def ofDraft : Reader (EvalParams α) := Reader.record format (fields format folder) (default folder)

def ofText (bytes : List UInt8) : Except (EvalError α) (EvalParams α) :=
  match Json.read (ofDraft format folder) bytes with
  | .ok params => .ok params
  | .error fault => .error (.json fault)

def ofFile (file : Table.File) : Except (EvalError α) (EvalParams α) :=
  match file with
  | none => .error (.io .notFound)
  | some bytes => ofText format folder bytes

end EvalParams
end TrackingScore
