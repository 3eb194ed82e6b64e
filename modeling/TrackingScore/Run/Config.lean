import TrackingScore.Error
import TrackingScore.Json.Decode
import TrackingScore.Scalar

/-!
What a run of the tracker was: which streams it captured, where its poses come from, and the label
it goes by. Every field has a default.
-/

namespace TrackingScore

open Json (Reader)

structure Noise (α : Type) where
  positionOffset : α
  positionStddev : α
  orientationOffset : α
  orientationStddev : α
  deriving Repr, DecidableEq

structure ApproxConfig where
  numPts : UInt64
  rk4 : Bool
  stereo : Bool
  klt : Bool
  timewarp : Bool
  deriving Repr, DecidableEq

namespace ApproxConfig

def exact : ApproxConfig := ⟨150, true, true, true, true⟩

/-- The standard sweep; each member turns a single knob. -/
def sweep : List ApproxConfig :=
  [{ exact with numPts := 100 }, { exact with numPts := 70 }, { exact with rk4 := false },
    { exact with stereo := false }, { exact with klt := false }]

def changes (c : ApproxConfig) : List String :=
  (if c.numPts = exact.numPts then [] else [s!"pts={c.numPts}"]) ++
    (if c.rk4 then [] else ["!rk4"]) ++ (if c.stereo then [] else ["!stereo"]) ++
    (if c.klt then [] else ["!klt"]) ++ (if c.timewarp then [] else ["!tw"])

def label (c : ApproxConfig) : String :=
  if c.changes.isEmpty then "exact" else String.intercalate "," c.changes

def flag (b : Bool) : String := if b then "1" else "0"

def envVars (c : ApproxConfig) : List (String × String) :=
  [("num_pts", toString c.numPts), ("use_rk4_integration", flag c.rk4),
    ("use_stereo", flag c.stereo), ("use_klt", flag c.klt), ("use_timewarp", flag c.timewarp)]

def toJson (c : ApproxConfig) : Json :=
  .object [("num_pts", .ofUInt64 c.numPts), ("use_rk4_integration", .bool c.rk4),
    ("use_stereo", .bool c.stereo), ("use_klt", .bool c.klt), ("use_timewarp", .bool c.timewarp)]

def ofDraft {α : Type} (format : Json.NumberFormat α) : Reader ApproxConfig :=
  Reader.record format
    [Reader.field "num_pts" (Reader.uint64 format) fun n c => { c with numPts := n },
      Reader.field "use_rk4_integration" (Reader.boolean format) fun b c => { c with rk4 := b },
      Reader.field "use_stereo" (Reader.boolean format) fun b c => { c with stereo := b },
      Reader.field "use_klt" (Reader.boolean format) fun b c => { c with klt := b },
      Reader.field "use_timewarp" (Reader.boolean format) fun b c => { c with timewarp := b }]
    exact

end ApproxConfig

namespace Noise

variable {α : Type}

def zero [Scalar α] : Noise α := ⟨0.0, 0.0, 0.0, 0.0⟩

def label (spell : α → String) (n : Noise α) : String :=
  s!"noise pos={spell n.positionOffset}±{spell n.positionStddev}," ++
    s!"ori={spell n.orientationOffset}±{spell n.orientationStddev}"

variable (format : Json.NumberFormat α)

def toJson (n : Noise α) : Json :=
  .object [("position_offset", format.write n.positionOffset),
    ("position_stddev", format.write n.positionStddev),
    ("orientation_offset", format.write n.orientationOffset),
    ("orientation_stddev", format.write n.orientationStddev)]

def ofDraft [Scalar α] : Reader (Noise α) :=
  Reader.record format
    [Reader.field "position_offset" (Reader.number format) fun x n => { n with positionOffset := x },
      Reader.field "position_stddev" (Reader.number format) fun x n => { n with positionStddev := x },
      Reader.field "orientation_offset" (Reader.number format) fun x n =>
        { n with orientationOffset := x },
      Reader.field "orientation_stddev" (Reader.number format) fun x n =>
        { n with orientationStddev := x }]
    zero

end Noise

/-- A run. Its poses come from the ground truth, from an approximate tracker or from a noisy ground
truth, and a valid run says which one. -/
structure RunConfig (α : Type) where
  captureFrames : Bool
  capturePoses : Bool
  noise : Option (Noise α)
  approx : Option ApproxConfig
  groundTruth : Bool
  startTimeNs : Int64
  deriving Repr, DecidableEq

namespace RunConfig

variable {α : Type}

def default : RunConfig α := ⟨false, false, none, none, false, 5000000000⟩

def reference : RunConfig α :=
  { default with captureFrames := true, capturePoses := true, groundTruth := true }

def approximate (approx : ApproxConfig) : RunConfig α :=
  { default with captureFrames := true, capturePoses := true, approx := some approx }

def sources (c : RunConfig α) : Nat :=
  [c.groundTruth, c.approx.isSome, c.noise.isSome].count true

def validate (c : RunConfig α) : Except (EvalError α) Unit :=
  if c.sources = 1 then .ok () else .error (.invalidParameter (.poseSources c.sources))

def label (spell : α → String) (c : RunConfig α) : String :=
  if c.groundTruth then "ground truth"
  else match c.approx, c.noise with
    | some approx, _ => approx.label
    | none, some noise => noise.label spell
    | none, none => "unconfigured"

variable (format : Json.NumberFormat α)

def toJson (c : RunConfig α) : Json :=
  .object [("capture_frames", .bool c.captureFrames), ("capture_poses", .bool c.capturePoses),
    ("noise", .ofOption (Noise.toJson format) c.noise),
    ("approx", .ofOption ApproxConfig.toJson c.approx),
    ("gt_slam", .bool c.groundTruth), ("start_time_ns", .ofInt64 c.startTimeNs)]

/-- What a cache knows a configuration by. -/
def fingerprint (c : RunConfig α) : String := (c.toJson format).compact

def ofDraft [Scalar α] : Reader (RunConfig α) :=
  Reader.record format
    [Reader.field "capture_frames" (Reader.boolean format) fun b c => { c with captureFrames := b },
      Reader.field "capture_poses" (Reader.boolean format) fun b c => { c with capturePoses := b },
      Reader.field "noise" (Reader.nullable (Noise.ofDraft format)) fun n c => { c with noise := n },
      Reader.field "approx" (Reader.nullable (ApproxConfig.ofDraft format)) fun a c =>
        { c with approx := a },
      Reader.field "gt_slam" (Reader.boolean format) fun b c => { c with groundTruth := b },
      Reader.field "start_time_ns" (Reader.int64 format) fun t c => { c with startTimeNs := t }]
    default

def ofText [Scalar α] (bytes : List UInt8) : Except (EvalError α) (RunConfig α) :=
  match Json.read (ofDraft format) bytes with
  | .ok config => .ok config
  | .error fault => .error (.json fault)

end RunConfig
end TrackingScore
