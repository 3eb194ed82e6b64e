import TrackingScore.Frame.Stream
import TrackingScore.Table.Pose

/-!
Frames read from a table that names their pictures by path or by number.
-/

namespace TrackingScore.Table

variable {α : Type} [Scalar α]

def join (directory path : String) : String :=
  if path.startsWith "/" then path
  else if directory.isEmpty || directory.endsWith "/" then directory ++ path
  else directory ++ "/" ++ path

inductive PictureColumn where
  | path (column : Nat)
  | frameNumber (column : Nat)
  deriving Repr, DecidableEq

/-- The column of paths if there is one, else that of frame numbers. -/
def pictureColumn (header : List (List Char)) : Except (EvalError α) PictureColumn :=
  match column? header ["path", "frame_path"], column? header ["frame_no"] with
  | some column, _ => .ok (.path column)
  | none, some column => .ok (.frameNumber column)
  | none, none => .error (.ingestion .noPictureColumn)

/-- Path of the picture of a row; frame `n` is `n.png`. -/
def picturePath (directory : String) (picture : PictureColumn) (record : Csv.Record) :
    Except (EvalError α) String :=
  match picture with
  | .path column => return join directory (String.ofList (← record.field column))
  | .frameNumber column => do
    let field ← record.field column
    match Decimal.readUInt64 field with
    | some n => return join directory (toString n ++ ".png")
    | none => throw (.ingestion (.invalidFrameNumber (String.ofList field)))

def frameOfRecord (number : List Char → Option α) (directory : String) (time : Nat)
    (picture : PictureColumn) (record : Csv.Record) : Except (EvalError α) (Frame String) := do
  let timestamp ← readTimestamp number (← record.field time)
  return ⟨timestamp, ← picturePath directory picture record⟩

def readFrames (number : List Char → Option α) (file : File) (directory : String) :
    Except (EvalError α) (FrameStream String) := do
  let some bytes := file | throw (.csv .notFound)
  match Csv.Table.ofBytes bytes with
  | .error fault => throw (.csv fault)
  | .ok table =>
    let time ← column table.header ["dataset_time", "timestamp"]
    let picture ← pictureColumn table.header
    FrameStream.ofFrames
      (← table.records.mapM (withRecord (frameOfRecord number directory time picture)))

end TrackingScore.Table
