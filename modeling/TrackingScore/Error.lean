import TrackingScore.Csv.Position
import TrackingScore.Json.Draft
import TrackingScore.Text.Quoted

/-!
What may go wrong in an evaluation, by cause, and the message of each cause. Faults that tell of a
norm carry the number itself; the caller says how numbers are spelled.
-/

namespace TrackingScore

inductive IngestionFault (α : Type) where
  | nonFinitePose (timestamp : Int64)
  | nonUnitPose (timestamp : Int64) (norm : α)
  | nonUnitTransform (norm : α)
  | unorderedPoses (former latter : Int64)
  | poseNotAfter (timestamp last : Int64)
  | unorderedFrames (former latter : Int64)
  | missingColumn (names : List String)
  | noPictureColumn
  | shortRow (position : Csv.Position)
  | shortLine (number tokens : Nat)
  | invalidTimestamp (field : String)
  | invalidNumber (field : String)
  | invalidTime (token : String)
  | invalidFrameNumber (field : String)
  | other (text : String)
  deriving Repr, DecidableEq

inductive AlignmentFault (α : Type) where
  | shortDirection (source target : α)
  | parallel
  | antiparallel
  | other (text : String)
  deriving Repr, DecidableEq

inductive EmptyInputFault where
  | track
  | estimatedPoses
  | errorSamples
  | referenceFrames
  | missingPoses (run : String)
  | other (text : String)
  deriving Repr, DecidableEq

inductive ParameterFault where
  | poseSources (count : Nat)
  | jobResults (results jobs : Nat)
  | imageSizes (lhs rhs : Nat × Nat)
  | window (size width height : Nat)
  | descriptorSizes (query train : Nat)
  | other (text : String)
  deriving Repr, DecidableEq

inductive FileFault where
  | notFound
  | invalidText
  deriving Repr, DecidableEq

inductive CsvFault where
  | notFound
  | unequalLengths (position : Csv.Position) (length expected : Nat)
  | invalidText (position : Csv.Position) (field offset : Nat)
  deriving Repr, DecidableEq

inductive ImageFault where
  | notFound
  | undecodable
  deriving Repr, DecidableEq

inductive EvalError (α : Type) where
  | ingestion (fault : IngestionFault α)
  | degenerateAlignment (fault : AlignmentFault α)
  | outOfRange (timestamp first last : Int64)
  | emptyInput (fault : EmptyInputFault)
  | invalidParameter (fault : ParameterFault)
  | io (fault : FileFault)
  | csv (fault : CsvFault)
  | image (fault : ImageFault)
  | json (fault : Json.Fault)
  deriving Repr, DecidableEq

def Csv.Position.message (p : Csv.Position) : String :=
  s!"record {p.record} (line: {p.line}, byte: {p.byte})"

def IngestionFault.message {α : Type} (spell : α → String) : IngestionFault α → String
  | nonFinitePose timestamp => s!"Pose at {timestamp} has non-finite values"
  | nonUnitPose timestamp norm =>
    s!"Pose at {timestamp} has a non-unit orientation (norm = {spell norm})"
  | nonUnitTransform norm => s!"Transform rotation is not unit (norm = {spell norm})"
  | unorderedPoses former latter =>
    s!"Pose timestamps must be strictly increasing, found {former} followed by {latter}"
  | poseNotAfter timestamp last => s!"Pose timestamp {timestamp} is not after {last}"
  | unorderedFrames former latter =>
    s!"Frame timestamps must be strictly increasing, found {former} followed by {latter}"
  | missingColumn names => "Missing column " ++ String.intercalate " or " names
  | noPictureColumn => "A frame table needs a frame_no or a path column"
  | shortRow p =>
    "Row Some(Position \x7b " ++ s!"byte: {p.byte}, line: {p.line}, record: {p.record}" ++
      " \x7d) is too short"
  | shortLine number tokens => s!"Line {number} has {tokens} fields, expected 8"
  | invalidTimestamp field => "Invalid timestamp " ++ Text.quoted field
  | invalidNumber field => "Invalid number " ++ Text.quoted field
  | invalidTime token => "Invalid time " ++ Text.quoted token
  | invalidFrameNumber field => "Invalid frame number Some(" ++ Text.quoted field ++ ")"
  | other text => text

def AlignmentFault.message {α : Type} (spell : α → String) : AlignmentFault α → String
  | shortDirection source target =>
    "Direction vectors must have non-zero length (source: " ++ spell source ++ ", target: " ++
      spell target ++ ")"
  | parallel => "Source and target directions are parallel"
  | antiparallel => "Source and target directions are antiparallel"
  | other text => text

def EmptyInputFault.message : EmptyInputFault → String
  | track => "Ground truth track has no poses"
  | estimatedPoses => "Estimated pose stream is empty"
  | errorSamples => "No error samples to summarize"
  | referenceFrames => "Ground truth frame stream is empty"
  | missingPoses run => s!"Run {run} captured poses but none were given"
  | other text => text

def ParameterFault.message : ParameterFault → String
  | poseSources count => s!"A run needs exactly one pose source, got {count}"
  | jobResults results jobs => s!"Executor returned {results} results for {jobs} jobs"
  | imageSizes lhs rhs =>
    s!"SSIM needs images of the same shape, got ({lhs.1}, {lhs.2}) and ({rhs.1}, {rhs.2})"
  | window size width height => s!"Window {size} does not fit images of {width}x{height}"
  | descriptorSizes query train => s!"Descriptors of size {query} and {train} cannot be matched"
  | other text => text

def FileFault.message : FileFault → String
  | notFound => "file not found"
  | invalidText => "the text is not UTF-8"

def CsvFault.message : CsvFault → String
  | notFound => "file not found"
  | unequalLengths position length expected =>
    s!"CSV error: {position.message}: found record with {length} fields, but the previous " ++
      s!"record has {expected} fields"
  | invalidText position field offset =>
    s!"CSV parse error: record {position.record} (line {position.line}, field: {field}, " ++
      s!"byte: {position.byte}): invalid utf-8: invalid UTF-8 in field {field} near byte index " ++
      s!"{offset}"

def ImageFault.message : ImageFault → String
  | notFound => "file not found"
  | undecodable => "the file is no picture"

def Json.Fault.message : Json.Fault → String
  | cut => "the text ends too early"
  | malformed => "the text is not JSON"
  | mismatch => "a value has another shape than wanted"

def EvalError.message {α : Type} (spell : α → String) : EvalError α → String
  | ingestion fault => "Ingestion error: " ++ fault.message spell
  | degenerateAlignment fault => "Degenerate alignment: " ++ fault.message spell
  | outOfRange timestamp first last =>
    s!"Timestamp {timestamp} is out of the range [{first}, {last}]"
  | emptyInput fault => "Empty input: " ++ fault.message
  | invalidParameter fault => "Parameter error: " ++ fault.message
  | io fault => "IO error: " ++ fault.message
  | csv fault => "CSV error: " ++ fault.message
  | image fault => "Image error: " ++ fault.message
  | json fault => "JSON error: " ++ fault.message

end TrackingScore
