import TrackingScore.Table.Field
import TrackingScore.Trajectory.Pose

/-!
Trajectories read from tables: pose tables with a header, ground truth files of eight columns, and
lines of eight tokens with the time in seconds and the real part of the quaternion last. A faulty
row is reported before any fault in the order of the rows.
-/

namespace TrackingScore.Table

variable {α : Type} [Scalar α]

structure PoseColumns (β : Type) where
  time : β
  position : Vector3 β
  orientation : Quaternion β
  deriving Repr, DecidableEq

def poseColumns : PoseColumns (List String) :=
  ⟨["timestamp", "dataset_time"], ⟨["position_x"], ["position_y"], ["position_z"]⟩,
    ⟨["orientation_w"], ["orientation_x"], ["orientation_y"], ["orientation_z"]⟩⟩

def leadingColumns : PoseColumns Nat := ⟨0, ⟨1, 2, 3⟩, ⟨4, 5, 6, 7⟩⟩

def PoseColumns.find (header : List (List Char)) (names : PoseColumns (List String)) :
    Except (EvalError α) (PoseColumns Nat) := do
  return ⟨← column header names.time, ← names.position.mapM (column header),
    ← names.orientation.mapM (column header)⟩

def poseOfRecord (number : List Char → Option α) (columns : PoseColumns Nat)
    (record : Csv.Record) : Except (EvalError α) (Pose α) := do
  let timestamp ← readTimestamp number (← record.field columns.time)
  let readField (index : Nat) : Except (EvalError α) α := do
    readNumber number (← record.field index)
  let position ← columns.position.mapM readField
  let orientation ← columns.orientation.mapM readField
  Pose.ofPrinted timestamp position orientation

/-- Uses a row that was read without fault. -/
def withRecord {β : Type} (use : Csv.Record → Except (EvalError α) β)
    (record : Except CsvFault Csv.Record) : Except (EvalError α) β :=
  match record with
  | .ok record => use record
  | .error fault => .error (.csv fault)

def readPoses (number : List Char → Option α) (file : File) :
    Except (EvalError α) (PoseStream α) := do
  let some bytes := file | throw (.csv .notFound)
  match Csv.Table.ofBytes bytes with
  | .error fault => throw (.csv fault)
  | .ok table =>
    let columns ← poseColumns.find table.header
    PoseStream.ofPoses (← table.records.mapM (withRecord (poseOfRecord number columns)))

def readGroundTruth (number : List Char → Option α) (file : File) :
    Except (EvalError α) (PoseStream α) := do
  let some bytes := file | throw (.csv .notFound)
  PoseStream.ofPoses
    (← (Csv.recordsWithComments bytes).mapM (withRecord (poseOfRecord number leadingColumns)))

/-- The lines of a text; a line feed ends a line, and what follows the last one is a line if it is
not empty. -/
def lines : List UInt8 → List (List UInt8)
  | [] => []
  | b :: rest =>
    if b = Text.ascii '\n' then [] :: lines rest
    else match lines rest with
      | [] => [[b]]
      | line :: others => (b :: line) :: others

/-- The pose of a line of tokens, `time x y z qx qy qz qw`. -/
def poseOfTokens (number : List Char → Option α) (lineNumber : Nat) (tokens : List (List Char)) :
    Except (EvalError α) (Pose α) :=
  match tokens with
  | time :: x :: y :: z :: qx :: qy :: qz :: qw :: _ => do
    let timestamp ← readSeconds number time
    let position ← Vector3.mapM (readNumber number) ⟨x, y, z⟩
    let imaginary ← Vector3.mapM (readNumber number) ⟨qx, qy, qz⟩
    let real ← readNumber number qw
    Pose.ofPrinted timestamp position ⟨real, imaginary.x, imaginary.y, imaginary.z⟩
  | _ => .error (.ingestion (.shortLine lineNumber tokens.length))

/-- The pose of a line; blank lines and comments have none. -/
def poseOfLine (number : List Char → Option α) (lineNumber : Nat) (line : List UInt8) :
    Except (EvalError α) (Option (Pose α)) :=
  match Text.Utf8.decode line with
  | .error _ => .error (.io .invalidText)
  | .ok cs =>
    match Text.trim cs with
    | [] => .ok none
    | '#' :: _ => .ok none
    | cs => (poseOfTokens number lineNumber (Text.tokens cs)).map some

def posesOfLines (number : List Char → Option α) :
    Nat → List (List UInt8) → Except (EvalError α) (List (Pose α))
  | _, [] => .ok []
  | lineNumber, line :: lines => do
    let pose? ← poseOfLine number lineNumber line
    let poses ← posesOfLines number (lineNumber + 1) lines
    return pose?.toList ++ poses

def readTrajectory (number : List Char → Option α) (file : File) :
    Except (EvalError α) (PoseStream α) := do
  let some bytes := file | throw (.io .notFound)
  PoseStream.ofPoses (← posesOfLines number 1 (lines bytes))

end TrackingScore.Table
