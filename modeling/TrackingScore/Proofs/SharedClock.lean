import TrackingScore.Proofs.ColumnOrder
import TrackingScore.Proofs.FrameTable

/-!
The times of poses and frames read from one file. Each reader takes the time of a row from one column,
and the two prefer the two names of that column in opposite order. With one of the names they share a
clock, with both only if the two columns tell the same times.
-/

namespace TrackingScore

theorem mapM_map_of_mapM {ε β γ δ : Type} {f : β → Except ε γ} {g : β → Except ε δ} {q : γ → δ}
    {items : List β} {results : List γ}
    (hf : ∀ item result, f item = .ok result → g item = .ok (q result))
    (h : items.mapM f = .ok results) : items.mapM g = .ok (results.map q) := by
  rw [mapM_eq_ok_iff] at h ⊢
  exact List.forall₂_map_right_iff.2 (h.imp fun item result => hf item result)

theorem exists_ok_of_toOption {ε β : Type} {x : Except ε β} (h : x.toOption.isSome) :
    ∃ b, x = .ok b := by
  cases x with
  | error error => cases h
  | ok b => exact ⟨b, rfl⟩

namespace Table

/-! ## The column of times -/

/-- A file as a table, with its column of the first of the names that is there. -/
def chosen? (file : List UInt8) (names : List String) : Option (Csv.Table × Nat) :=
  (Csv.Table.ofBytes file).toOption.bind fun table =>
    (column? table.header names).map (table, ·)

theorem chosen?_of_ofBytes {file : List UInt8} {table : Csv.Table}
    (h : Csv.Table.ofBytes file = .ok table) (names : List String) :
    chosen? file names = (column? table.header names).map (table, ·) := by
  rw [chosen?, h]
  rfl

theorem chosen?_pair (file : List UInt8) (first second : String) :
    chosen? file [first, second] = (chosen? file [first]).or (chosen? file [second]) := by
  cases htable : Csv.Table.ofBytes file with
  | error fault =>
    rw [chosen?, chosen?, chosen?, htable]
    rfl
  | ok table =>
    simp only [chosen?_of_ofBytes htable, column?, List.findSome?_cons, List.findSome?_nil]
    cases table.header.findIdx? fun field => Text.trim field = first.toList <;> rfl

/-- With one of two names, the order in which they are preferred does not matter. -/
theorem chosen?_swap {file : List UInt8} {first second : String}
    (h : ¬((chosen? file [first]).isSome ∧ (chosen? file [second]).isSome)) :
    chosen? file [first, second] = chosen? file [second, first] := by
  rw [chosen?_pair, chosen?_pair]
  cases hfirst : chosen? file [first] <;> cases hsecond : chosen? file [second] <;>
    simp_all

section times

variable {α : Type} [Scalar α] {number : List Char → Option α}

def timeOfRecord (number : List Char → Option α) (index : Nat) (record : Csv.Record) :
    Except (EvalError α) Int64 := do
  readTimestamp number (← record.field index)

/-- The times that the chosen column of a file tells row by row. -/
def timesUnder? (number : List Char → Option α) (file : List UInt8) (names : List String) :
    Option (List Int64) := do
  let (table, index) ← chosen? file names
  (table.records.mapM (withRecord (timeOfRecord number index))).toOption

theorem timesUnder?_of_mapM {file : List UInt8} {table : Csv.Table} {names : List String}
    {index : Nat} {times : List Int64} (htable : Csv.Table.ofBytes file = .ok table)
    (hindex : column? table.header names = some index)
    (h : table.records.mapM (withRecord (timeOfRecord number index)) = .ok times) :
    timesUnder? number file names = some times := by
  rw [timesUnder?, chosen?_of_ofBytes htable, hindex]
  exact congrArg Except.toOption h

omit [Scalar α] in
theorem column_eq_ok_iff {header : List (List Char)} {names : List String} {index : Nat} :
    column (α := α) header names = .ok index ↔ column? header names = some index := by
  rw [column]
  cases column? header names <;> simp

end times

/-! ## The times of both streams -/

section rows

variable {α : Type} [Scalar α] {number : List Char → Option α} {record : Csv.Record}

theorem timestamp_of_ofPrinted {timestamp : Int64} {position : Vector3 α} {orientation : Quaternion α}
    {pose : Pose α} (h : Pose.ofPrinted timestamp position orientation = .ok pose) :
    pose.timestamp = timestamp := by
  simp only [Pose.ofPrinted, Pose.ofUnnormalized] at h
  split_ifs at h
  cases h
  rfl

theorem timeOfRecord_of_poseOfRecord {columns : PoseColumns Nat} {pose : Pose α}
    (h : poseOfRecord number columns record = .ok pose) :
    timeOfRecord number columns.time record = .ok pose.timestamp := by
  simp only [poseOfRecord, bind_eq_ok_iff] at h
  obtain ⟨field, hfield, t, ht, position, -, orientation, -, hpose⟩ := h
  rw [timeOfRecord, bind_eq_ok_iff, timestamp_of_ofPrinted hpose]
  exact ⟨field, hfield, ht⟩

theorem timeOfRecord_of_frameOfRecord {directory : String} {index : Nat} {picture : PictureColumn}
    {frame : Frame String} (h : frameOfRecord number directory index picture record = .ok frame) :
    timeOfRecord number index record = .ok frame.timestamp := by
  simp only [frameOfRecord, bind_eq_ok_iff] at h
  obtain ⟨field, hfield, t, ht, image, -, hframe⟩ := h
  cases hframe
  rw [timeOfRecord, bind_eq_ok_iff]
  exact ⟨field, hfield, ht⟩

omit [Scalar α] in
theorem withRecord_of_withRecord {β γ : Type} {use : Csv.Record → Except (EvalError α) β}
    {other : Csv.Record → Except (EvalError α) γ} {q : β → γ}
    (h : ∀ record result, use record = .ok result → other record = .ok (q result))
    (item : Except CsvFault Csv.Record) (result : β) (hitem : withRecord use item = .ok result) :
    withRecord other item = .ok (q result) := by
  cases item with
  | error fault => cases hitem
  | ok record => exact h record result hitem

variable {file : List UInt8}

theorem timesUnder?_of_readPoses {poses : PoseStream α}
    (h : readPoses number (some file) = .ok poses) :
    timesUnder? number file ["timestamp", "dataset_time"] = some poses.times := by
  rw [readPoses] at h
  cases htable : Csv.Table.ofBytes file with
  | error fault => simp only [htable] at h; cases h
  | ok table =>
    simp only [htable, bind_eq_ok_iff, PoseStream.ofPoses_eq_ok_iff] at h
    obtain ⟨columns, hfind, _, hrows, rfl⟩ := h
    simp only [PoseColumns.find, bind_eq_ok_iff, column_eq_ok_iff] at hfind
    obtain ⟨index, hindex, position, -, orientation, -, hcolumns⟩ := hfind
    cases hcolumns
    exact timesUnder?_of_mapM htable hindex
      (mapM_map_of_mapM (withRecord_of_withRecord fun _ _ => timeOfRecord_of_poseOfRecord) hrows)

theorem timesUnder?_of_readFrames {directory : String} {frames : FrameStream String}
    (h : readFrames number (some file) directory = .ok frames) :
    timesUnder? number file ["dataset_time", "timestamp"] = some frames.times := by
  rw [readFrames] at h
  cases htable : Csv.Table.ofBytes file with
  | error fault => simp only [htable] at h; cases h
  | ok table =>
    simp only [htable, bind_eq_ok_iff, column_eq_ok_iff, ofFrames_eq_ok_iff] at h
    obtain ⟨index, hindex, picture, -, _, hrows, rfl⟩ := h
    exact timesUnder?_of_mapM htable hindex
      (mapM_map_of_mapM (withRecord_of_withRecord fun _ _ => timeOfRecord_of_frameOfRecord) hrows)

end rows

/-- Of a file that both readers accept, the poses have the times of the column `timestamp` if there is
one, and the frames those of the column `dataset_time` if there is one. So the times are the same if
only one of the columns is there, and if both are, just if these tell the same times. -/
theorem readers_share_clock {α : Type} [Scalar α] {number : List Char → Option α}
    {file : List UInt8} {directory : String} {poses : PoseStream α} {frames : FrameStream String}
    (hposes : readPoses number (some file) = .ok poses)
    (hframes : readFrames number (some file) directory = .ok frames) :
    timesUnder? number file ["timestamp", "dataset_time"] = some poses.times ∧
    timesUnder? number file ["dataset_time", "timestamp"] = some frames.times ∧
    (¬((chosen? file ["timestamp"]).isSome ∧ (chosen? file ["dataset_time"]).isSome) →
      poses.times = frames.times) ∧
    ((chosen? file ["timestamp"]).isSome → (chosen? file ["dataset_time"]).isSome →
      (poses.times = frames.times ↔
        timesUnder? number file ["timestamp"] = timesUnder? number file ["dataset_time"])) := by
  have hpose := timesUnder?_of_readPoses hposes
  have hframe := timesUnder?_of_readFrames hframes
  refine ⟨hpose, hframe, fun hone => ?_, fun htimestamp hdataset => ?_⟩
  · rw [timesUnder?, chosen?_swap hone, ← timesUnder?, hframe] at hpose
    exact (Option.some.inj hpose).symm
  · rw [timesUnder?, chosen?_pair, Option.or_of_isSome htimestamp, ← timesUnder?] at hpose
    rw [timesUnder?, chosen?_pair, Option.or_of_isSome hdataset, ← timesUnder?] at hframe
    rw [hpose, hframe, Option.some.injEq]

def rowOf (cells : List String) : List UInt8 :=
  Csv.writeRow (cells.map fun cell => Text.Utf8.encode cell.toList)

def logWith (times : List (String × String)) : List UInt8 :=
  rowOf (times.map Prod.fst ++ ["frame_no", "position_x", "position_y", "position_z",
    "orientation_w", "orientation_x", "orientation_y", "orientation_z"]) ++
  rowOf (times.map Prod.snd ++ ["7", "0", "0", "0", "1", "0", "0", "0"])

def singleClock : List UInt8 := logWith [("dataset_time", "5")]

def doubleClock : List UInt8 := logWith [("timestamp", "5"), ("dataset_time", "5.0")]

def splitClock : List UInt8 := logWith [("timestamp", "1"), ("dataset_time", "2")]

theorem readers_share_clock_oneRow :
    (∃ poses frames, readPoses Decimal.readFloat (some singleClock) = .ok poses ∧
      readFrames Decimal.readFloat (some singleClock) "d" = .ok frames ∧
      poses.times = frames.times) ∧
    ∃ poses frames, readPoses Decimal.readFloat (some doubleClock) = .ok poses ∧
      readFrames Decimal.readFloat (some doubleClock) "d" = .ok frames ∧
      poses.times = frames.times := by
  constructor
  · obtain ⟨poses, hposes⟩ := exists_ok_of_toOption
      (x := readPoses Decimal.readFloat (some singleClock)) (by decide +kernel)
    obtain ⟨frames, hframes⟩ := exists_ok_of_toOption
      (x := readFrames Decimal.readFloat (some singleClock) "d") (by decide +kernel)
    obtain ⟨-, -, hone, -⟩ := readers_share_clock hposes hframes
    exact ⟨poses, frames, hposes, hframes, hone (by decide +kernel)⟩
  · obtain ⟨poses, hposes⟩ := exists_ok_of_toOption
      (x := readPoses Decimal.readFloat (some doubleClock)) (by decide +kernel)
    obtain ⟨frames, hframes⟩ := exists_ok_of_toOption
      (x := readFrames Decimal.readFloat (some doubleClock) "d") (by decide +kernel)
    obtain ⟨-, -, -, hboth⟩ := readers_share_clock hposes hframes
    exact ⟨poses, frames, hposes, hframes,
      (hboth (by decide +kernel) (by decide +kernel)).2 (by decide +kernel)⟩

/-- The poses go by one column and the frames by the other. -/
theorem readers_clocks_differ :
    (readPoses Decimal.readFloat (some splitClock)).toOption.map Series.times = some [1] ∧
      (readFrames Decimal.readFloat (some splitClock) "d").toOption.map Series.times = some [2] := by
  decide +kernel

end Table
end TrackingScore
