import TrackingScore.Alignment
import TrackingScore.Binary64
import TrackingScore.Csv.Position
import TrackingScore.Csv.Record
import TrackingScore.Csv.Row
import TrackingScore.Decimal.Fixed
import TrackingScore.Decimal.Layout
import TrackingScore.Decimal.Reading
import TrackingScore.Decimal.Shortest
import TrackingScore.Error
import TrackingScore.Event
import TrackingScore.Executor
import TrackingScore.Frame.Matching
import TrackingScore.Frame.Nearest
import TrackingScore.Frame.Stream
import TrackingScore.FrameDistance.Diagnostic
import TrackingScore.FrameDistance.Evaluator
import TrackingScore.FrameDistance.Params
import TrackingScore.FrameDistance.Sample
import TrackingScore.Geometry.Quaternion
import TrackingScore.Geometry.RigidTransform
import TrackingScore.Geometry.Vector3
import TrackingScore.Image.BlockSum
import TrackingScore.Image.Features
import TrackingScore.Image.Handle
import TrackingScore.Image.Harris
import TrackingScore.Image.Luma
import TrackingScore.Image.Matching
import TrackingScore.Image.Raster
import TrackingScore.Image.Ssim
import TrackingScore.Image.SummedArea
import TrackingScore.Json.Decode
import TrackingScore.Json.Draft
import TrackingScore.Json.Numeral
import TrackingScore.Json.Value
import TrackingScore.Memo
import TrackingScore.Params
import TrackingScore.PoseError
import TrackingScore.Proofs.CompletionOrder
import TrackingScore.Proofs.CsvRoundTrip
import TrackingScore.Proofs.DecimalRoundTrip
import TrackingScore.Proofs.Exact.AxisAngle
import TrackingScore.Proofs.Exact.BoxSum
import TrackingScore.Proofs.Exact.PoseError
import TrackingScore.Proofs.Exact.Quaternion
import TrackingScore.Proofs.Exact.RigidTransform
import TrackingScore.Proofs.Exact.Scalar
import TrackingScore.Proofs.Exact.UnitQuaternion
import TrackingScore.Proofs.Exact.Vector3
import TrackingScore.Proofs.FirstFailure
import TrackingScore.Proofs.FrameOfReference
import TrackingScore.Proofs.MemoHistory
import TrackingScore.Proofs.NearestFrame
import TrackingScore.Proofs.OppositeOrientations
import TrackingScore.Proofs.OverlappingCalls
import TrackingScore.Proofs.PerfectRun
import TrackingScore.Proofs.RunOutcome
import TrackingScore.Proofs.Sample
import TrackingScore.Proofs.ShortestArc
import TrackingScore.Proofs.SilentDiagnostics
import TrackingScore.Proofs.SimilarityBounds
import TrackingScore.Proofs.SortedTimes
import TrackingScore.Proofs.Tokens
import TrackingScore.Proofs.TrackQuery
import TrackingScore.Proofs.TrajectoryFormats
import TrackingScore.Proofs.TransformGroup
import TrackingScore.Proofs.Utf8RoundTrip
import TrackingScore.Proofs.WarmupEnd
import TrackingScore.Proofs.WindowSimilarity
import TrackingScore.Run.Config
import TrackingScore.Run.Results
import TrackingScore.Scalar
import TrackingScore.Search
import TrackingScore.Series
import TrackingScore.Session
import TrackingScore.Statistics
import TrackingScore.Table.Field
import TrackingScore.Table.Frame
import TrackingScore.Table.Pose
import TrackingScore.Table.Score
import TrackingScore.Text.Ascii
import TrackingScore.Text.Blank
import TrackingScore.Text.Printable
import TrackingScore.Text.Quoted
import TrackingScore.Text.Utf8
import TrackingScore.Trajectory.Pose
import TrackingScore.Trajectory.Track
import TrackingScore.Word
import TrackingScore.Proofs.StreamHistory
import TrackingScore.Proofs.RotationAxis
import TrackingScore.Proofs.TrackSlice
import TrackingScore.Proofs.TimeShift
import TrackingScore.Proofs.PointwiseAnswers
import TrackingScore.Proofs.OrientationDistance
import TrackingScore.Proofs.Resampling
import TrackingScore.Proofs.PoseAlignment
import TrackingScore.Proofs.ReverseAlignment
import TrackingScore.Proofs.LawfulScalar
import TrackingScore.Proofs.Binary32
import TrackingScore.Proofs.DescriptorMatches
import TrackingScore.Proofs.CornerDetection
import TrackingScore.Proofs.Exact.Summary
import TrackingScore.Proofs.FeatureDistance
import TrackingScore.Proofs.Relighting
import TrackingScore.Proofs.CheckedSimilarity
import TrackingScore.Proofs.PlainDecimal
import TrackingScore.Proofs.DecimalSeconds
import TrackingScore.Proofs.NearestBinary64
import TrackingScore.Proofs.Binary64Rounding
import TrackingScore.Proofs.DecimalToBinary64
import TrackingScore.Proofs.TimestampText
import TrackingScore.Proofs.SecondsRoundTrip
import TrackingScore.Proofs.CsvQuoting
import TrackingScore.Proofs.NamedColumns
import TrackingScore.Proofs.ColumnOrder
import TrackingScore.Proofs.TrajectoryNoise
import TrackingScore.Proofs.FrameTable
import TrackingScore.Proofs.SharedClock
import TrackingScore.Proofs.ScoreTables
import TrackingScore.Proofs.JsonNumber
import TrackingScore.Proofs.JsonText
import TrackingScore.Proofs.WrittenJson
import TrackingScore.Proofs.JsonRecord
import TrackingScore.Proofs.EditedParams
import TrackingScore.Proofs.ShortestDecimal
import TrackingScore.Proofs.WrittenNumber
import TrackingScore.Proofs.MemoSource
import TrackingScore.Proofs.Fingerprint
import TrackingScore.Proofs.RunLabels
import TrackingScore.Proofs.SummaryLaws
import TrackingScore.Proofs.RepeatedTimes
import TrackingScore.Proofs.Exact.Extended
import TrackingScore.Proofs.LumaMap
