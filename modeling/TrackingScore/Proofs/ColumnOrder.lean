import TrackingScore.Proofs.FirstFailure
import TrackingScore.Proofs.NamedColumns

/-!
What the readers of poses do not look at. A pose table is read by the names of its columns, so their
order does not matter and neither do columns of other names. A ground truth file is read by its first
eight columns; what stands behind them only moves the place in the file that the message for a short
row tells.
-/

namespace TrackingScore.Table

open Text.Utf8 (encode)

/-! ## Pose tables -/

def poseNames : List (List String) :=
  [poseColumns.time, poseColumns.position.x, poseColumns.position.y, poseColumns.position.z,
    poseColumns.orientation.w, poseColumns.orientation.x, poseColumns.orientation.y,
    poseColumns.orientation.z]

def isPoseTitle (title : List Char) : Bool :=
  poseNames.any fun names => names.any fun name => title = name.toList

section columns

variable {height : Nat}

def occurrences (columns : List (Column height)) (name : String) : Nat :=
  columns.countP fun c => c.title = name.toList

/-- Each column that a pose needs is there once. With a column of the first name for the time, those of
the second one are not needed. -/
structure IsPoseTable (columns : List (Column height)) : Prop where
  time : occurrences columns "timestamp" = 1 ∨
    occurrences columns "timestamp" = 0 ∧ occurrences columns "dataset_time" = 1
  numbers : ∀ name ∈ ["position_x", "position_y", "position_z", "orientation_w", "orientation_x",
    "orientation_y", "orientation_z"], occurrences columns name = 1

/-- The columns with the names of pose columns are the same, whatever their order and whatever other
columns stand among them. -/
def SamePoseColumns (columns others : List (Column height)) : Prop :=
  (columns.filter fun c => isPoseTitle c.title).Perm (others.filter fun c => isPoseTitle c.title)

variable {columns others : List (Column height)}

theorem samePoseColumns_of_perm (h : columns.Perm others) : SamePoseColumns columns others :=
  h.filter _

theorem samePoseColumns_insert {front back : List (Column height)} {c : Column height}
    (h : isPoseTitle c.title = false) : SamePoseColumns (front ++ back) (front ++ c :: back) := by
  rw [SamePoseColumns, List.filter_append, List.filter_append, List.filter_cons_of_neg (by simp [h])]

theorem find?_eq_of_perm {β : Type} {p : β → Bool} {xs ys : List β}
    (h : (xs.filter p).Perm (ys.filter p)) (hcount : xs.countP p ≤ 1) : xs.find? p = ys.find? p := by
  rw [← List.head?_filter, ← List.head?_filter]
  rw [List.countP_eq_length_filter] at hcount
  match hxs : xs.filter p, hcount with
  | [], _ =>
    rw [hxs] at h
    rw [List.nil_perm.1 h]
  | [x], _ =>
    rw [hxs] at h
    rw [List.singleton_perm.1 h]

theorem SamePoseColumns.find?_eq (h : SamePoseColumns columns others) {name : String}
    (hname : isPoseTitle name.toList = true) (hcount : occurrences columns name ≤ 1) :
    columns.find? (fun c => c.title = name.toList) =
      others.find? fun c => c.title = name.toList := by
  refine find?_eq_of_perm ?_ hcount
  have hsame := List.Perm.filter (fun c => decide (c.title = name.toList)) h
  have hused (cs : List (Column height)) :
      (cs.filter fun c => isPoseTitle c.title).filter (fun c => decide (c.title = name.toList)) =
        cs.filter fun c => decide (c.title = name.toList) := by
    rw [List.filter_filter]
    refine List.filter_congr fun c _ => ?_
    by_cases hc : c.title = name.toList <;> simp [hc, hname]
  rwa [hused, hused] at hsame

theorem find?_isSome_of_occurrences {name : String} (h : occurrences columns name = 1) :
    (columns.find? fun c => c.title = name.toList).isSome := by
  rw [List.find?_isSome]
  exact List.countP_pos_iff.1 (Nat.lt_of_lt_of_eq Nat.one_pos h.symm)

def ChoosesAlike (columns others : List (Column height)) (names : List String) : Prop :=
  (named? columns names).isSome ∧ named? columns names = named? others names

theorem SamePoseColumns.choosesAlike_cons (h : SamePoseColumns columns others) {name : String}
    (hname : isPoseTitle name.toList = true) (hcount : occurrences columns name = 1)
    (names : List String) : ChoosesAlike columns others (name :: names) := by
  have hfind := h.find?_eq hname hcount.le
  obtain ⟨c, hc⟩ := Option.isSome_iff_exists.1 (find?_isSome_of_occurrences hcount)
  rw [hc] at hfind
  simp only [ChoosesAlike, named?, List.findSome?_cons, hc, ← hfind, Option.isSome_some, and_self]

theorem SamePoseColumns.choosesAlike_cons_of_absent (h : SamePoseColumns columns others)
    {name : String} (hname : isPoseTitle name.toList = true)
    (hcount : occurrences columns name = 0) {names : List String}
    (hnames : ChoosesAlike columns others names) :
    ChoosesAlike columns others (name :: names) := by
  have hfind := h.find?_eq hname (by omega)
  have hnone : columns.find? (fun c => c.title = name.toList) = none :=
    List.find?_eq_none.2 (List.countP_eq_zero.1 hcount)
  rw [hnone] at hfind
  simp only [ChoosesAlike, named?, List.findSome?_cons, hnone, ← hfind]
  exact hnames

theorem SamePoseColumns.choosesAlike (h : SamePoseColumns columns others)
    (htable : IsPoseTable columns) : ∀ names ∈ poseNames, ChoosesAlike columns others names := by
  refine List.forall_mem_cons.2 ⟨?_, fun names hnames => ?_⟩
  · rcases htable.time with hfirst | ⟨habsent, hsecond⟩
    · exact h.choosesAlike_cons (by decide) hfirst _
    · exact h.choosesAlike_cons_of_absent (by decide) habsent
        (h.choosesAlike_cons (by decide) hsecond _)
  · obtain ⟨name, hname, rfl, hpose⟩ : ∃ name ∈ ["position_x", "position_y", "position_z",
        "orientation_w", "orientation_x", "orientation_y", "orientation_z"],
        names = [name] ∧ isPoseTitle name.toList = true := by
      simp only [List.mem_cons, List.not_mem_nil, or_false] at hnames
      rcases hnames with rfl | rfl | rfl | rfl | rfl | rfl | rfl <;>
        exact ⟨_, by decide, rfl, by decide⟩
    exact h.choosesAlike_cons hpose (htable.numbers name hname) []

end columns

section reading

variable {α : Type} [Scalar α] (number : List Char → Option α) {height : Nat}

def poseOfFields (field : List String → List Char) : Except (EvalError α) (Pose α) := do
  let timestamp ← readTimestamp number (field poseColumns.time)
  let position ← poseColumns.position.mapM fun names => readNumber number (field names)
  let orientation ← poseColumns.orientation.mapM fun names => readNumber number (field names)
  Pose.ofPrinted timestamp position orientation

def indicesOf (index : List String → Nat) : PoseColumns Nat :=
  ⟨index poseColumns.time, ⟨index poseColumns.position.x, index poseColumns.position.y,
    index poseColumns.position.z⟩, ⟨index poseColumns.orientation.w,
    index poseColumns.orientation.x, index poseColumns.orientation.y,
    index poseColumns.orientation.z⟩⟩

omit [Scalar α] in
theorem find_eq_ok {header : List (List Char)} {index : List String → Nat}
    (h : ∀ names ∈ poseNames, column (α := α) header names = .ok (index names)) :
    PoseColumns.find (α := α) header poseColumns = .ok (indicesOf index) := by
  simp only [poseNames, List.forall_mem_cons] at h
  obtain ⟨htime, hx, hy, hz, hw, hi, hj, hk, -⟩ := h
  rw [PoseColumns.find, Vector3.mapM, Quaternion.mapM, htime, hx, hy, hz, hw, hi, hj, hk]
  rfl

theorem poseOfRecord_eq {record : Csv.Record} {index : List String → Nat}
    {field : List String → List Char}
    (h : ∀ names ∈ poseNames, record.field (α := α) (index names) = .ok (field names)) :
    poseOfRecord number (indicesOf index) record = poseOfFields number field := by
  simp only [poseNames, List.forall_mem_cons] at h
  obtain ⟨htime, hx, hy, hz, hw, hi, hj, hk, -⟩ := h
  simp only [poseOfRecord, indicesOf, Vector3.mapM, Quaternion.mapM, htime, hx, hy, hz, hw, hi, hj, hk]
  rfl

theorem readPoses_of_holds {file : List UInt8} {columns : List (Column height)}
    (hfile : Holds file columns) (h : ∀ names ∈ poseNames, (named? columns names).isSome) :
    readPoses number (some file) =
      (List.finRange height).mapM (fun i => poseOfFields number (fieldOf columns i)) >>=
        PoseStream.ofPoses := by
  obtain ⟨records, htable, hrecords⟩ := hfile.ofBytes
  choose! index hindex hfield using fun names hnames =>
    exists_column_of_named (α := α) (h names hnames)
  have hfind : PoseColumns.find (α := α) (columns.map Column.title) poseColumns =
      .ok (indicesOf index) := find_eq_ok fun names hnames => by
    rw [column, hindex names hnames]
  have hposes := mapM_withRecord_of_reads hrecords fun i position =>
    poseOfRecord_eq number fun names hnames => hfield names hnames i position
  rw [readPoses, ← hposes]
  simp only [htable]
  rw [hfind]
  rfl

theorem poseOfFields_congr {field field' : List String → List Char}
    (h : ∀ names ∈ poseNames, field names = field' names) :
    poseOfFields number field = poseOfFields number field' := by
  simp only [poseNames, List.forall_mem_cons] at h
  obtain ⟨htime, hx, hy, hz, hw, hi, hj, hk, -⟩ := h
  simp only [poseOfFields, Vector3.mapM, Quaternion.mapM, htime, hx, hy, hz, hw, hi, hj, hk]

theorem readPoses_eq_of_samePoseColumns {columns others : List (Column height)}
    {file file' : List UInt8} (hfile : Holds file columns) (hfile' : Holds file' others)
    (htable : IsPoseTable columns) (hsame : SamePoseColumns columns others) :
    readPoses number (some file) = readPoses number (some file') := by
  have halike := hsame.choosesAlike htable
  rw [readPoses_of_holds number hfile fun names hnames => (halike names hnames).1,
    readPoses_of_holds number hfile' fun names hnames =>
      (halike names hnames).2 ▸ (halike names hnames).1]
  congr 2
  funext i
  exact poseOfFields_congr number fun names hnames => by
    rw [fieldOf, fieldOf, (halike names hnames).2]

end reading

/-! ## Ground truth files -/

def dataRows (file : List UInt8) : List (List (List UInt8)) :=
  (Csv.rows (some (Text.ascii '#')) file).map Csv.Row.fields

theorem record_rowsFrom (mark : Option UInt8) (position : Csv.Position) (bytes : List UInt8) :
    (Csv.rowsFrom mark position bytes).map (·.position.record) =
      List.range' position.record (Csv.rowsFrom mark position bytes).length := by
  fun_induction Csv.rowsFrom mark position bytes with
  | case1 position bytes idle hidle text size ih =>
    rw [List.map_cons, List.length_cons, List.range'_succ, ih]
    rfl
  | case2 => rfl

theorem record_rows (mark : Option UInt8) (bytes : List UInt8) :
    (Csv.rows mark bytes).map (·.position.record) = List.range (Csv.rows mark bytes).length := by
  unfold Csv.rows
  split
  · rename_i rest
    have hrows := record_rowsFrom mark ⟨3, 1, 0⟩ rest
    split
    · rfl
    · rename_i row rows heq
      rw [heq, List.map_cons, List.length_cons, List.range'_succ] at hrows
      rw [List.map_cons, (List.cons.inj hrows).2, List.length_cons, List.range_eq_range',
        List.range'_succ]
  · rw [record_rowsFrom, List.range_eq_range']

section faults

variable {α : Type}

/-- The same error, but for the place in the file that a message about a row tells: the row has the
same number. -/
inductive SameFault : EvalError α → EvalError α → Prop
  | refl (error : EvalError α) : SameFault error error
  | shortRow {p q : Csv.Position} (h : p.record = q.record) :
      SameFault (.ingestion (.shortRow p)) (.ingestion (.shortRow q))
  | invalidText {p q : Csv.Position} (field offset : Nat) (h : p.record = q.record) :
      SameFault (.csv (.invalidText p field offset)) (.csv (.invalidText q field offset))

structure AgreeUpTo (count : Nat) (record other : Csv.Record) : Prop where
  number : record.position.record = other.position.record
  fields : record.fields.take count = other.fields.take count

def ReadAlike (α : Type) (count : Nat) :
    Except CsvFault Csv.Record → Except CsvFault Csv.Record → Prop :=
  Corresponds (fun fault other => SameFault (α := α) (.csv fault) (.csv other)) (AgreeUpTo count)

theorem decodeFields_sameFault {p q : Csv.Position} (h : p.record = q.record) (index : Nat)
    (fields : List (List UInt8)) :
    Corresponds (fun fault other => SameFault (α := α) (.csv fault) (.csv other)) Eq
      (Csv.decodeFields p index fields) (Csv.decodeFields q index fields) := by
  induction fields generalizing index with
  | nil => exact .ok rfl
  | cons field fields ih =>
    simp only [Csv.decodeFields]
    split
    · exact .error (.invalidText index _ h)
    · exact (ih (index + 1)).map fun _ _ heq => by rw [heq]

theorem readAlike_decode {count : Nat} {row other : Csv.Row}
    (hnumber : row.position.record = other.position.record)
    (hfields : row.fields.take count = other.fields.take count)
    (htexts : Csv.AreTexts (row.fields.drop count))
    (htexts' : Csv.AreTexts (other.fields.drop count)) :
    ReadAlike α count row.strip.decode other.strip.decode := by
  have hleading := decodeFields_sameFault (α := α) hnumber 0 (row.strip.fields.take count)
  have hstrip : row.strip.fields.take count = other.strip.fields.take count := by
    simp only [Csv.Row.strip, ← List.map_take, hfields]
  have hfront : Corresponds (fun fault other => SameFault (α := α) (.csv fault) (.csv other))
      (fun fields others => fields.take count = others.take count)
      (Csv.decodeFields row.position 0 row.strip.fields)
      (Csv.decodeFields other.position 0 other.strip.fields) := by
    refine Corresponds.of_map (f := List.take count) (g := List.take count) ?_
    rw [Csv.decodeFields_take _ _ (Csv.areTexts_drop_strip htexts),
      Csv.decodeFields_take _ _ (Csv.areTexts_drop_strip htexts'), ← hstrip]
    exact hleading
  exact hfront.map fun _ _ heq => ⟨hnumber, heq⟩

theorem AgreeUpTo.getElem? {count index : Nat} {record other : Csv.Record}
    (h : AgreeUpTo count record other) (hindex : index < count) :
    record.fields[index]? = other.fields[index]? := by
  rw [← List.getElem?_take_of_lt hindex, h.fields, List.getElem?_take_of_lt hindex]

theorem AgreeUpTo.field {count index : Nat} {record other : Csv.Record}
    (h : AgreeUpTo count record other) (hindex : index < count) :
    Corresponds SameFault Eq (record.field (α := α) index) (other.field index) := by
  rw [Csv.Record.field, Csv.Record.field, h.getElem? hindex]
  cases other.fields[index]? with
  | none => exact .error (.shortRow h.number)
  | some field => exact .ok rfl

theorem AgreeUpTo.field_eq {count index : Nat} {record other : Csv.Record}
    (h : AgreeUpTo count record other) (hlong : count ≤ record.fields.length)
    (hindex : index < count) : record.field (α := α) index = other.field index := by
  rw [Csv.Record.field, Csv.Record.field, ← h.getElem? hindex,
    List.getElem?_eq_getElem (hindex.trans_le hlong)]

variable [Scalar α] (number : List Char → Option α) {record other : Csv.Record}

theorem AgreeUpTo.poseOfRecord (h : AgreeUpTo 8 record other) :
    Corresponds SameFault Eq (poseOfRecord number leadingColumns record)
      (Table.poseOfRecord number leadingColumns other) := by
  have hread (index : Nat) (hindex : index < 8) : Corresponds SameFault Eq
      (record.field index >>= readNumber number) (other.field index >>= readNumber number) :=
    (h.field hindex).bind_eq fun field => .refl SameFault.refl _
  refine (h.field (by decide)).bind_eq fun time => ?_
  refine (Corresponds.refl SameFault.refl _).bind_eq fun timestamp => ?_
  refine Corresponds.bind_eq ?_ fun position => ?_
  · exact (hread 1 (by decide)).bind_eq fun x => (hread 2 (by decide)).bind_eq fun y =>
      (hread 3 (by decide)).bind_eq fun z => .refl SameFault.refl _
  refine Corresponds.bind_eq ?_ fun orientation => .refl SameFault.refl _
  exact (hread 4 (by decide)).bind_eq fun w => (hread 5 (by decide)).bind_eq fun x =>
    (hread 6 (by decide)).bind_eq fun y => (hread 7 (by decide)).bind_eq fun z =>
      .refl SameFault.refl _

theorem AgreeUpTo.poseOfRecord_eq (h : AgreeUpTo 8 record other)
    (hlong : 8 ≤ record.fields.length) :
    Table.poseOfRecord number leadingColumns record =
      Table.poseOfRecord number leadingColumns other := by
  have hfield (index : Nat) (hindex : index < 8) := h.field_eq (α := α) hlong hindex
  simp only [Table.poseOfRecord, leadingColumns, Vector3.mapM, Quaternion.mapM,
    hfield 0 (by decide), hfield 1 (by decide), hfield 2 (by decide), hfield 3 (by decide),
    hfield 4 (by decide), hfield 5 (by decide), hfield 6 (by decide), hfield 7 (by decide)]

end faults

section reading

variable {α : Type} {file file' : List UInt8}

/-- What stands behind the eighth column is text. -/
def TextBehind (file : List UInt8) : Prop := ∀ row ∈ dataRows file, Csv.AreTexts (row.drop 8)

theorem forall₂_rows
    (hsame : (dataRows file).map (List.take 8) = (dataRows file').map (List.take 8)) :
    List.Forall₂ (fun row row' : Csv.Row => row.position.record = row'.position.record ∧
        row.fields.take 8 = row'.fields.take 8)
      (Csv.rows (some (Text.ascii '#')) file) (Csv.rows (some (Text.ascii '#')) file') := by
  rw [dataRows, dataRows, List.map_map, List.map_map] at hsame
  have hlength := congrArg List.length hsame
  rw [List.length_map, List.length_map] at hlength
  have hnumber : (Csv.rows (some (Text.ascii '#')) file).map (·.position.record) =
      (Csv.rows (some (Text.ascii '#')) file').map (·.position.record) := by
    rw [record_rows, record_rows, hlength]
  rw [← List.forall₂_eq_eq_eq, List.forall₂_map_left_iff, List.forall₂_map_right_iff] at hsame hnumber
  refine List.forall₂_iff_get.2 ⟨hlength, fun i hi hi' => ⟨?_, ?_⟩⟩
  · exact (List.forall₂_iff_get.1 hnumber).2 i hi hi'
  · exact (List.forall₂_iff_get.1 hsame).2 i hi hi'

theorem forall₂_records (htext : TextBehind file) (htext' : TextBehind file')
    (hsame : (dataRows file).map (List.take 8) = (dataRows file').map (List.take 8)) :
    List.Forall₂ (ReadAlike α 8) (Csv.recordsWithComments file) (Csv.recordsWithComments file') := by
  refine List.forall₂_map_left_iff.2 (List.forall₂_map_right_iff.2 ?_)
  have hrows := forall₂_rows hsame
  refine List.forall₂_iff_get.2 ⟨hrows.length_eq, fun i hi hi' => ?_⟩
  obtain ⟨hnumber, hfields⟩ := (List.forall₂_iff_get.1 hrows).2 i hi hi'
  exact readAlike_decode hnumber hfields
    (htext _ (List.mem_map_of_mem (List.get_mem _ ⟨i, hi⟩)))
    (htext' _ (List.mem_map_of_mem (List.get_mem _ ⟨i, hi'⟩)))

variable [Scalar α] (number : List Char → Option α)

theorem readGroundTruth_sameFault (htext : TextBehind file) (htext' : TextBehind file')
    (hsame : (dataRows file).map (List.take 8) = (dataRows file').map (List.take 8)) :
    Corresponds SameFault Eq (readGroundTruth number (some file))
      (readGroundTruth number (some file')) := by
  have hposes : Corresponds SameFault (List.Forall₂ Eq)
      ((Csv.recordsWithComments file).mapM (withRecord (poseOfRecord number leadingColumns)))
      ((Csv.recordsWithComments file').mapM (withRecord (poseOfRecord number leadingColumns))) := by
    refine .mapM ((forall₂_records (α := α) htext htext' hsame).imp fun item item' halike => ?_)
    cases halike with
    | ok hagree => exact hagree.poseOfRecord number
    | error hfault => exact .error hfault
  refine hposes.bind fun poses poses' heq => ?_
  rw [List.forall₂_eq_eq_eq] at heq
  exact heq ▸ .refl SameFault.refl _

theorem readGroundTruth_eq_of_long (htext' : TextBehind file')
    (hsame : (dataRows file).map (List.take 8) = (dataRows file').map (List.take 8))
    (hlong : ∀ row ∈ dataRows file, 8 ≤ row.length ∧ Csv.AreTexts row) :
    readGroundTruth number (some file) = readGroundTruth number (some file') := by
  have htext : TextBehind file := fun row hrow => (hlong row hrow).2.drop 8
  have hrecords : ∀ item ∈ Csv.recordsWithComments file,
      ∃ record, item = .ok record ∧ 8 ≤ record.fields.length := by
    refine List.forall_mem_map.2 fun row hrow => ?_
    obtain ⟨hwide, texts, htexts⟩ := hlong row.fields (List.mem_map_of_mem hrow)
    refine ⟨_, Csv.decode_strip htexts.symm, ?_⟩
    rwa [List.length_map, ← List.length_map encode, htexts]
  have hposes : (Csv.recordsWithComments file).mapM
        (withRecord (poseOfRecord number leadingColumns)) =
      (Csv.recordsWithComments file').mapM (withRecord (poseOfRecord number leadingColumns)) := by
    refine mapM_eq_mapM (List.forall₂_iff_get.2 ?_)
    have halike := forall₂_records (α := α) htext htext' hsame
    refine ⟨halike.length_eq, fun i hi hi' => ?_⟩
    obtain ⟨record, hrecord, hwide⟩ := hrecords _ (List.get_mem _ ⟨i, hi⟩)
    have hitem := (List.forall₂_iff_get.1 halike).2 i hi hi'
    rw [hrecord] at hitem ⊢
    obtain ⟨record', hrecord', hagree⟩ := hitem.exists_eq_ok
    rw [hrecord']
    exact hagree.poseOfRecord_eq number hwide
  exact congrArg (· >>= PoseStream.ofPoses) hposes

end reading

/-- Tables of the same pose columns, in whatever order and among whatever others, are read alike. Ground
truth files that agree in the first eight columns are read alike too, if what stands behind them is text:
as the same stream or with the same fault, but for the place in the file that a message tells. -/
theorem readers_ignore_other_columns {α : Type} [Scalar α] (number : List Char → Option α) :
    (∀ (height : Nat) (columns others : List (Column height)) (file file' : List UInt8),
      Holds file columns → Holds file' others → IsPoseTable columns →
      SamePoseColumns columns others →
      readPoses number (some file) = readPoses number (some file')) ∧
    ∀ file file' : List UInt8, TextBehind file → TextBehind file' →
      (dataRows file).map (List.take 8) = (dataRows file').map (List.take 8) →
      Corresponds SameFault Eq (readGroundTruth number (some file))
        (readGroundTruth number (some file')) ∧
      ((∀ row ∈ dataRows file, 8 ≤ row.length ∧ Csv.AreTexts row) →
        readGroundTruth number (some file) = readGroundTruth number (some file')) :=
  ⟨fun _ _ _ _ _ hfile hfile' htable hsame =>
    readPoses_eq_of_samePoseColumns number hfile hfile' htable hsame,
  fun _ _ htext htext' hsame => ⟨readGroundTruth_sameFault number htext htext' hsame,
    readGroundTruth_eq_of_long number htext' hsame⟩⟩

def onePose : List (Column 1) :=
  [.single "timestamp" "1", .single "position_x" "0", .single "position_y" "0",
    .single "position_z" "0", .single "orientation_w" "1", .single "orientation_x" "0",
    .single "orientation_y" "0", .single "orientation_z" "0"]

def groundTruthWith (ninth : List UInt8) (rest : String) : List UInt8 :=
  encode "1,0,0,0,1,0,0,0,".toList ++ ninth ++ encode ('\n' :: rest.toList)

theorem readers_ignore_other_columns_reversed :
    readPoses Decimal.readFloat (some (quotedFile onePose)) =
        readPoses Decimal.readFloat
          (some (quotedFile (.single "frame_no" "7" :: onePose.reverse))) ∧
      Corresponds SameFault Eq
        (readGroundTruth Decimal.readFloat (some (groundTruthWith (encode ['5']) "")))
        (readGroundTruth Decimal.readFloat (some (groundTruthWith (encode ['5', '5']) ""))) ∧
      readGroundTruth Decimal.readFloat (some (groundTruthWith (encode ['5']) "")) =
        readGroundTruth Decimal.readFloat (some (groundTruthWith (encode ['5', '5']) "")) := by
  obtain ⟨htables, hfiles⟩ := readers_ignore_other_columns Decimal.readFloat
  have htable : IsPoseTable onePose := ⟨.inl (by decide), by decide⟩
  have hinsert : SamePoseColumns ([] ++ onePose.reverse)
      ([] ++ .single "frame_no" "7" :: onePose.reverse) := samePoseColumns_insert (by decide)
  have hsame : SamePoseColumns onePose (.single "frame_no" "7" :: onePose.reverse) :=
    (samePoseColumns_of_perm onePose.reverse_perm.symm).trans hinsert
  have hrow : dataRows (groundTruthWith (encode ['5']) "") =
      [["1", "0", "0", "0", "1", "0", "0", "0", "5"].map fun field => encode field.toList] := by
    decide +kernel
  have hrow' : dataRows (groundTruthWith (encode ['5', '5']) "") =
      [["1", "0", "0", "0", "1", "0", "0", "0", "55"].map fun field => encode field.toList] := by
    decide +kernel
  have htexts : ∀ row ∈ dataRows (groundTruthWith (encode ['5']) ""),
      8 ≤ row.length ∧ Csv.AreTexts row := by
    rw [hrow, List.forall_mem_singleton]
    exact ⟨by decide, _, List.map_map⟩
  have htext' : TextBehind (groundTruthWith (encode ['5', '5']) "") := by
    rw [TextBehind, hrow', List.forall_mem_singleton]
    exact Csv.AreTexts.drop ⟨_, List.map_map⟩ 8
  have hgroundTruth := hfiles _ _ (fun row hmem => (htexts row hmem).2.drop 8) htext'
    (by rw [hrow, hrow']; rfl)
  exact ⟨htables 1 _ _ _ _ (holds_quotedFile (by simp [onePose])) (holds_quotedFile (by simp))
    htable hsame, hgroundTruth.1, hgroundTruth.2 htexts⟩

def place? {α β : Type} : Except (EvalError α) β → Option Csv.Position
  | .error (.ingestion (.shortRow position)) => some position
  | .error (.csv (.invalidText position _ _)) => some position
  | _ => none

def poseTableWith (ninth : List UInt8) : List UInt8 :=
  encode ("timestamp,position_x,position_y,position_z,orientation_w,orientation_x," ++
    "orientation_y,orientation_z,frame_no\n1,0,0,0,1,0,0,0,").toList ++ ninth ++ encode ['\n']

/-- The place of a short row moves with the ninth column of the row before; and bytes that are no text
are refused in every column. -/
theorem readers_see_other_columns :
    (dataRows (groundTruthWith (encode ['5']) "2,0\n")).map (List.take 8) =
        (dataRows (groundTruthWith (encode ['5', '5']) "2,0\n")).map (List.take 8) ∧
      place? (readGroundTruth Decimal.readFloat
        (some (groundTruthWith (encode ['5']) "2,0\n"))) = some ⟨18, 2, 1⟩ ∧
      place? (readGroundTruth Decimal.readFloat
        (some (groundTruthWith (encode ['5', '5']) "2,0\n"))) = some ⟨19, 2, 1⟩ ∧
      (readGroundTruth Decimal.readFloat
        (some (groundTruthWith (encode ['5']) ""))).toOption.isSome ∧
      place? (readGroundTruth Decimal.readFloat
        (some (groundTruthWith [0xff] ""))) = some ⟨0, 1, 0⟩ ∧
      (readPoses Decimal.readFloat (some (poseTableWith (encode ['5'])))).toOption.isSome ∧
      place? (readPoses Decimal.readFloat (some (poseTableWith [0xff]))) = some ⟨108, 2, 1⟩ := by
  exact ⟨by decide +kernel, by decide +kernel, by decide +kernel, by decide +kernel,
    by decide +kernel, by decide +kernel, by decide +kernel⟩

end TrackingScore.Table
