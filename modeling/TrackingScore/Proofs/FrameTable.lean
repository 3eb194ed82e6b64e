import TrackingScore.Proofs.DecimalRoundTrip
import TrackingScore.Proofs.FirstFailure
import TrackingScore.Proofs.NamedColumns
import TrackingScore.Table.Frame

/-!
Frame tables. Each row gives a time and the path of a picture: that of its path column, or else the one
made of its frame number, which is another one for each number. Which rows are faulty is decided row by
row, and the order of the times is looked at when none is.
-/

namespace TrackingScore

namespace Decimal

theorem natural?_eq_some_iff {cs : List Char} {n : Nat} :
    natural? cs = some n ↔ cs ≠ [] ∧ (∀ c ∈ cs, isDigit c = true) ∧ value cs = n := by
  constructor
  · intro h
    simp only [natural?, Option.ite_none_right_eq_some, Bool.and_eq_true, Bool.not_eq_true',
      List.isEmpty_eq_false_iff, List.all_eq_true, Option.some.injEq] at h
    exact ⟨h.1.1, h.1.2, h.2⟩
  · rintro ⟨hne, hdigits, rfl⟩
    exact natural?_of_digits hne hdigits

/-- The text of a word without a sign: digits of its value, maybe with zeros or a plus sign in front. -/
def IsUInt64Text (text : List Char) (n : UInt64) : Prop :=
  ∃ digits, (text = digits ∨ text = '+' :: digits) ∧ digits ≠ [] ∧
    (∀ c ∈ digits, isDigit c = true) ∧ value digits = n.toNat

theorem readUInt64_eq_some_iff {text : List Char} {n : UInt64} :
    readUInt64 text = some n ↔ IsUInt64Text text n := by
  have hplus {digits : List Char} (hdigits : ∀ c ∈ digits, isDigit c = true) (rest : List Char) :
      digits ≠ '+' :: rest := fun h => absurd (hdigits '+' (by simp [h])) (by decide)
  simp only [readUInt64, Option.bind_eq_bind, Option.bind_eq_some_iff, natural?_eq_some_iff,
    uint64?_eq_some_iff]
  split
  · rename_i rest
    constructor
    · rintro ⟨_, ⟨hne, hdigits, rfl⟩, hn⟩
      exact ⟨rest, .inr rfl, hne, hdigits, hn.symm⟩
    · rintro ⟨digits, htext | htext, hne, hdigits, hvalue⟩
      · exact absurd htext.symm (hplus hdigits rest)
      · rw [(List.cons.inj htext).2]
        exact ⟨_, ⟨hne, hdigits, rfl⟩, hvalue.symm⟩
  · rename_i hother
    constructor
    · rintro ⟨_, ⟨hne, hdigits, rfl⟩, hn⟩
      exact ⟨text, .inl rfl, hne, hdigits, hn.symm⟩
    · rintro ⟨digits, rfl | htext, hne, hdigits, hvalue⟩
      · exact ⟨_, ⟨hne, hdigits, rfl⟩, hvalue.symm⟩
      · exact absurd htext (hother digits)

theorem toString_eq_ofList (n : UInt64) : toString n = String.ofList (Nat.toDigits 10 n.toNat) :=
  Nat.toString_eq_ofList_toDigits

theorem isUInt64Text_toString (n : UInt64) : IsUInt64Text (toString n).toList n := by
  rw [toString_eq_ofList, String.toList_ofList]
  exact ⟨_, .inl rfl, Nat.toDigits_ne_nil, fun _ => isDigit_of_mem_toDigits, value_toDigits _⟩

theorem toString_injective : Function.Injective (toString : UInt64 → String) := by
  intro m n h
  rw [toString_eq_ofList, toString_eq_ofList, String.ofList_inj] at h
  have hvalue := congrArg value h
  rw [value_toDigits, value_toDigits] at hvalue
  exact UInt64.toNat_inj.1 hvalue

end Decimal

namespace Table

open Text.Utf8 (encode)

/-! ## Paths -/

/-- A directory with a slash behind it. -/
def folder (directory : String) : String :=
  if directory.isEmpty || directory.endsWith "/" then directory else directory ++ "/"

def pathIn (directory path : String) : String :=
  if path.toList.head? = some '/' then path else folder directory ++ path

def picture (directory : String) (n : UInt64) : String :=
  folder directory ++ toString n ++ ".png"

theorem join_eq_pathIn (directory path : String) : join directory path = pathIn directory path := by
  have hstart : path.startsWith "/" = true ↔ path.toList.head? = some '/' := by
    rw [String.startsWith_string_iff]
    rcases path.toList with _ | ⟨c, rest⟩
    · simp
    · simp [eq_comm]
  rw [join, pathIn, folder]
  split_ifs <;> simp_all [String.append_assoc]

theorem join_number (directory : String) (n : UInt64) :
    join directory (toString n ++ ".png") = picture directory n := by
  have hrelative : (toString n ++ ".png").toList.head? ≠ some '/' := by
    obtain ⟨c, rest, hdigits⟩ := List.exists_cons_of_ne_nil
      (Nat.toDigits_ne_nil (n := n.toNat) (b := 10))
    have hc : Decimal.isDigit c = true :=
      Decimal.isDigit_of_mem_toDigits (n := n.toNat) (by simp [hdigits])
    rw [Decimal.toString_eq_ofList, String.toList_append, String.toList_ofList, hdigits]
    rintro ⟨⟩
    exact absurd hc (by decide)
  rw [join_eq_pathIn, pathIn, if_neg hrelative, picture, String.append_assoc]

theorem picture_injective (directory : String) : Function.Injective (picture directory) := by
  intro m n h
  have htexts := congrArg String.toList h
  simp only [picture, String.toList_append, List.append_cancel_left_eq,
    List.append_cancel_right_eq, String.toList_inj] at htexts
  exact Decimal.toString_injective htexts

/-! ## Rows -/

def timeNames : List String := ["dataset_time", "timestamp"]

def pathNames : List String := ["path", "frame_path"]

def numberNames : List String := ["frame_no"]

section rows

variable {α : Type} [Scalar α] (number : List Char → Option α) (directory : String) {height : Nat}
  (columns : List (Column height)) (i : Fin height)

def pictureOfRow : Except (EvalError α) String :=
  if (named? columns pathNames).isSome then
    .ok (pathIn directory (String.ofList (fieldOf columns i pathNames)))
  else match Decimal.readUInt64 (fieldOf columns i numberNames) with
    | some n => .ok (picture directory n)
    | none => .error (.ingestion
        (.invalidFrameNumber (String.ofList (fieldOf columns i numberNames))))

def frameOfRow : Except (EvalError α) (Frame String) := do
  let timestamp ← readTimestamp number (fieldOf columns i timeNames)
  return ⟨timestamp, ← pictureOfRow directory columns i⟩

/-- What a row says about a frame: a time and a picture, by the path if there is a column of paths and
else by the number. -/
structure TellsFrame (frame : Frame String) : Prop where
  time : readTimestamp number (fieldOf columns i timeNames) = .ok frame.timestamp
  path : (named? columns pathNames).isSome →
    frame.image = pathIn directory (String.ofList (fieldOf columns i pathNames))
  number : named? columns pathNames = none →
    ∃ n, Decimal.IsUInt64Text (fieldOf columns i numberNames) n ∧ frame.image = picture directory n

structure Faultless : Prop where
  time : ∃ t, readTimestamp number (fieldOf columns i timeNames) = .ok t
  number : named? columns pathNames = none →
    ∃ n, Decimal.IsUInt64Text (fieldOf columns i numberNames) n

/-- What is wrong with a row, the time going before the number. -/
inductive RowFault : EvalError α → Prop
  | time {error : EvalError α}
      (h : readTimestamp number (fieldOf columns i timeNames) = .error error) : RowFault error
  | number {t : Int64} (ht : readTimestamp number (fieldOf columns i timeNames) = .ok t)
      (hpath : named? columns pathNames = none)
      (h : ∀ n, ¬Decimal.IsUInt64Text (fieldOf columns i numberNames) n) :
      RowFault (.ingestion (.invalidFrameNumber (String.ofList (fieldOf columns i numberNames))))

variable {columns i}

omit [Scalar α] in
theorem pictureOfRow_eq_ok_iff {image : String} :
    pictureOfRow (α := α) directory columns i = .ok image ↔
      ((named? columns pathNames).isSome →
        image = pathIn directory (String.ofList (fieldOf columns i pathNames))) ∧
      (named? columns pathNames = none →
        ∃ n, Decimal.IsUInt64Text (fieldOf columns i numberNames) n ∧
          image = picture directory n) := by
  simp only [← Decimal.readUInt64_eq_some_iff]
  rw [pictureOfRow]
  cases named? columns pathNames with
  | some c => simp [eq_comm]
  | none => cases Decimal.readUInt64 (fieldOf columns i numberNames) <;> simp [eq_comm]

theorem frameOfRow_eq_ok_iff {frame : Frame String} :
    frameOfRow number directory columns i = .ok frame ↔
      TellsFrame number directory columns i frame := by
  obtain ⟨t, image⟩ := frame
  simp only [frameOfRow, bind_eq_ok_iff, pictureOfRow_eq_ok_iff]
  constructor
  · rintro ⟨_, ht, _, ⟨hpath, hnumber⟩, ⟨⟩⟩
    exact ⟨ht, hpath, hnumber⟩
  · rintro ⟨ht, hpath, hnumber⟩
    exact ⟨t, ht, image, ⟨hpath, hnumber⟩, rfl⟩

theorem exists_tellsFrame_iff :
    (∃ frame, TellsFrame number directory columns i frame) ↔ Faultless number columns i := by
  constructor
  · rintro ⟨frame, htime, -, hnumber⟩
    exact ⟨⟨_, htime⟩, fun hpath => (hnumber hpath).imp fun n hn => hn.1⟩
  · rintro ⟨⟨t, ht⟩, hnumber⟩
    cases hpath : named? columns pathNames with
    | some c => exact ⟨⟨t, _⟩, ht, fun _ => rfl, fun hnone => by cases hpath ▸ hnone⟩
    | none =>
      obtain ⟨n, hn⟩ := hnumber hpath
      exact ⟨⟨t, _⟩, ht, fun hsome => by simp [hpath] at hsome, fun _ => ⟨n, hn, rfl⟩⟩

theorem exists_rowFault (h : ¬Faultless number columns i) :
    ∃ error, RowFault number columns i error := by
  cases htime : readTimestamp number (fieldOf columns i timeNames) with
  | error error => exact ⟨error, .time htime⟩
  | ok t =>
    by_cases hpath : named? columns pathNames = none
    · exact ⟨_, .number htime hpath fun n hn => h ⟨⟨t, htime⟩, fun _ => ⟨n, hn⟩⟩⟩
    · exact absurd ⟨⟨t, htime⟩, fun hnone => absurd hnone hpath⟩ h

theorem RowFault.frameOfRow_eq {error : EvalError α} (h : RowFault number columns i error) :
    frameOfRow number directory columns i = .error error := by
  cases h with
  | time h =>
    rw [frameOfRow, h]
    rfl
  | number ht hpath h =>
    have hnone : Decimal.readUInt64 (fieldOf columns i numberNames) = none := by
      refine Option.eq_none_iff_forall_ne_some.2 fun n hn => ?_
      exact h n (Decimal.readUInt64_eq_some_iff.1 hn)
    rw [frameOfRow, ht, pictureOfRow, hpath, if_neg (by simp), hnone]
    rfl

end rows

/-! ## Tables -/

section lists

theorem mapM_finRange_eq_ok_iff {ε β : Type} {height : Nat} {f : Fin height → Except ε β}
    {results : List β} :
    (List.finRange height).mapM f = .ok results ↔
      ∃ g, (∀ i, f i = .ok (g i)) ∧ results = List.ofFn g := by
  rw [mapM_eq_ok_iff, List.forall₂_iff_get]
  simp only [List.length_finRange, List.get_eq_getElem, List.getElem_finRange]
  constructor
  · rintro ⟨rfl, hget⟩
    exact ⟨results.get, fun i => hget i i.isLt i.isLt, (List.ofFn_get results).symm⟩
  · rintro ⟨g, hg, rfl⟩
    exact ⟨by simp, fun i hi hi' => by rw [List.getElem_ofFn]; exact hg _⟩

theorem ofFrames_eq_ok_iff {α H : Type} {frames : List (Frame H)} {stream : FrameStream H} :
    FrameStream.ofFrames (α := α) frames = .ok stream ↔ stream.toList = frames := by
  rw [← Series.ofList_eq_ok_iff]
  unfold FrameStream.ofFrames
  cases Series.ofList frames <;> simp

theorem exists_unordered_of_ofFrames {α H : Type} {frames : List (Frame H)} {error : EvalError α}
    (h : FrameStream.ofFrames frames = .error error) :
    ∃ former latter, error = .ingestion (.unorderedFrames former latter) := by
  unfold FrameStream.ofFrames at h
  split at h
  · cases h
  · cases h
    exact ⟨_, _, rfl⟩

end lists

section tables

variable {α : Type} {height : Nat} {columns others : List (Column height)} {file file' : List UInt8}
  (directory : String)

theorem exists_pictureColumn
    (h : (named? columns pathNames).isSome ∨ (named? columns numberNames).isSome) :
    ∃ column, pictureColumn (α := α) (columns.map Column.title) = .ok column ∧
      ∀ i position, picturePath (α := α) directory column ⟨position, columns.map (·.field i)⟩ =
        pictureOfRow directory columns i := by
  by_cases hpath : (named? columns pathNames).isSome
  · obtain ⟨index, hindex, hfield⟩ := exists_column_of_named (α := α) hpath
    refine ⟨.path index, ?_, fun i position => ?_⟩
    · change column? _ ["path", "frame_path"] = _ at hindex
      rw [pictureColumn, hindex]
    · rw [picturePath, hfield i position, pictureOfRow, if_pos hpath, ← join_eq_pathIn]
      rfl
  · have hnumber := h.resolve_left hpath
    obtain ⟨index, hindex, hfield⟩ := exists_column_of_named (α := α) hnumber
    have hnone := column?_eq_none_of_named (Option.not_isSome_iff_eq_none.1 hpath)
    refine ⟨.frameNumber index, ?_, fun i position => ?_⟩
    · change column? _ ["frame_no"] = _ at hindex
      change column? _ ["path", "frame_path"] = _ at hnone
      rw [pictureColumn, hindex, hnone]
    · rw [picturePath, hfield i position, pictureOfRow, if_neg hpath]
      change (match Decimal.readUInt64 (fieldOf columns i numberNames) with
        | some n => _ | none => _) = _
      split
      · rw [join_number]
        rfl
      · rfl

variable [Scalar α] (number : List Char → Option α)

theorem readFrames_of_holds (hfile : Holds file columns) (htime : (named? columns timeNames).isSome)
    (hpicture : (named? columns pathNames).isSome ∨ (named? columns numberNames).isSome) :
    readFrames number (some file) directory =
      (List.finRange height).mapM (frameOfRow number directory columns) >>=
        FrameStream.ofFrames := by
  obtain ⟨records, htable, hrecords⟩ := hfile.ofBytes
  obtain ⟨time, hcolumn, hfield⟩ := exists_column_of_named (α := α) htime
  obtain ⟨picture, hchoice, hpath⟩ := exists_pictureColumn (α := α) directory hpicture
  have hframes := mapM_withRecord_of_reads hrecords fun i position =>
    show frameOfRecord number directory time picture _ = frameOfRow number directory columns i by
      rw [frameOfRecord, hfield i position, hpath i position]
      rfl
  change column? _ ["dataset_time", "timestamp"] = _ at hcolumn
  rw [readFrames, ← hframes]
  simp only [htable, column, hcolumn, hchoice]
  rfl

theorem mapM_frameOfRow_error {i : Fin height} {error : EvalError α}
    (hbefore : ∀ j, j < i → Faultless number columns j) (h : RowFault number columns i error) :
    (List.finRange height).mapM (frameOfRow number directory columns) = .error error := by
  refine mapM_eq_error_iff.2 ⟨i, by simp, ?_, fun j hj => ?_⟩
  · rw [List.getElem_finRange]
    exact h.frameOfRow_eq number directory
  · rw [List.getElem_finRange]
    obtain ⟨frame, hframe⟩ :=
      (exists_tellsFrame_iff number directory).2 (hbefore ⟨j, hj.trans i.isLt⟩ hj)
    exact ⟨frame, (frameOfRow_eq_ok_iff number directory).2 hframe⟩

variable {directory number} {stream : FrameStream String}

theorem readFrames_eq_ok_iff (hfile : Holds file columns)
    (htime : (named? columns timeNames).isSome)
    (hpicture : (named? columns pathNames).isSome ∨ (named? columns numberNames).isSome) :
    readFrames number (some file) directory = .ok stream ↔
      ∃ frames, (∀ i, TellsFrame number directory columns i (frames i)) ∧
        stream.toList = List.ofFn frames := by
  simp only [readFrames_of_holds directory number hfile htime hpicture, bind_eq_ok_iff,
    mapM_finRange_eq_ok_iff, frameOfRow_eq_ok_iff, ofFrames_eq_ok_iff]
  constructor
  · rintro ⟨_, ⟨frames, hframes, rfl⟩, hstream⟩
    exact ⟨frames, hframes, hstream⟩
  · rintro ⟨frames, hframes, hstream⟩
    exact ⟨_, ⟨frames, hframes, rfl⟩, hstream⟩

def InOrder (number : List Char → Option α) (columns : List (Column height)) : Prop :=
  ∀ i j t u, i < j → readTimestamp number (fieldOf columns i timeNames) = .ok t →
    readTimestamp number (fieldOf columns j timeNames) = .ok u → t < u

theorem exists_readFrames_iff (hfile : Holds file columns)
    (htime : (named? columns timeNames).isSome)
    (hpicture : (named? columns pathNames).isSome ∨ (named? columns numberNames).isSome) :
    (∃ stream, readFrames number (some file) directory = .ok stream) ↔
      (∀ i, Faultless number columns i) ∧ InOrder number columns := by
  simp only [readFrames_eq_ok_iff hfile htime hpicture]
  constructor
  · rintro ⟨stream, frames, hframes, hstream⟩
    have hincreasing := stream.increasing
    rw [hstream, List.pairwise_ofFn] at hincreasing
    refine ⟨fun i => (exists_tellsFrame_iff number directory).1 ⟨_, hframes i⟩, ?_⟩
    intro i j t u hij ht hu
    rw [(hframes i).time] at ht
    rw [(hframes j).time] at hu
    cases ht
    cases hu
    exact hincreasing hij
  · rintro ⟨hrows, horder⟩
    choose frames hframes using fun i => (exists_tellsFrame_iff number directory).2 (hrows i)
    have hincreasing : (List.ofFn frames).Pairwise fun a b => a.timestamp < b.timestamp :=
      List.pairwise_ofFn.2 fun i j hij => horder i j _ _ hij (hframes i).time (hframes j).time
    exact ⟨⟨List.ofFn frames, hincreasing⟩, frames, hframes, rfl⟩

theorem TellsFrame.image_eq_iff {i j : Fin height} {frame frame' : Frame String} {m n : UInt64}
    (h : TellsFrame number directory columns i frame)
    (h' : TellsFrame number directory columns j frame') (hpath : named? columns pathNames = none)
    (hm : Decimal.IsUInt64Text (fieldOf columns i numberNames) m)
    (hn : Decimal.IsUInt64Text (fieldOf columns j numberNames) n) :
    frame.image = frame'.image ↔ m = n := by
  obtain ⟨m', hm', himage⟩ := h.number hpath
  obtain ⟨n', hn', himage'⟩ := h'.number hpath
  rw [← Decimal.readUInt64_eq_some_iff] at hm hn hm' hn'
  rw [hm, Option.some.injEq] at hm'
  rw [hn, Option.some.injEq] at hn'
  rw [himage, himage', (picture_injective directory).eq_iff, hm', hn']

def otherColumns (columns : List (Column height)) : List (Column height) :=
  columns.filter fun c => c.title ≠ "frame_no".toList

omit [Scalar α] in
theorem find?_otherColumns {name : String} (h : name ≠ "frame_no") :
    (otherColumns columns).find? (fun c => c.title = name.toList) =
      columns.find? fun c => c.title = name.toList := by
  have hne : name.toList ≠ "frame_no".toList := fun heq => h (String.toList_inj.1 heq)
  rw [otherColumns]
  generalize "frame_no".toList = numbers at hne ⊢
  rw [List.find?_filter]
  congr 1
  funext c
  by_cases hc : c.title = name.toList <;> simp [hc, hne]

omit [Scalar α] in
theorem named?_otherColumns {names : List String} (h : "frame_no" ∉ names) :
    named? (otherColumns columns) names = named? columns names := by
  induction names with
  | nil => rfl
  | cons name names ih =>
    rw [List.mem_cons, not_or] at h
    rw [named?, named?, List.findSome?_cons, List.findSome?_cons, find?_otherColumns (Ne.symm h.1)]
    cases columns.find? fun c => c.title = name.toList with
    | some c => rfl
    | none => exact ih h.2

theorem readFrames_eq_of_otherColumns (hfile : Holds file columns) (hfile' : Holds file' others)
    (hsame : otherColumns columns = otherColumns others)
    (htime : (named? columns timeNames).isSome) (hpath : (named? columns pathNames).isSome) :
    readFrames number (some file) directory = readFrames number (some file') directory := by
  have htimes : named? columns timeNames = named? others timeNames := by
    rw [← named?_otherColumns (by decide), hsame, named?_otherColumns (by decide)]
  have hpaths : named? columns pathNames = named? others pathNames := by
    rw [← named?_otherColumns (by decide), hsame, named?_otherColumns (by decide)]
  rw [readFrames_of_holds directory number hfile htime (.inl hpath),
    readFrames_of_holds directory number hfile' (htimes ▸ htime) (.inl (hpaths ▸ hpath))]
  congr 2
  funext i
  rw [frameOfRow, frameOfRow, pictureOfRow, pictureOfRow, if_pos hpath, if_pos (hpaths ▸ hpath),
    fieldOf, fieldOf, fieldOf, fieldOf, htimes, hpaths]

end tables

/-- A table with a column of times and one of paths or numbers is read just if nothing is wrong with a
row and the times increase, as one frame a row and in order. Pictures chosen by number are the same
just if their numbers are; where there are paths the numbers do not matter. The first faulty row decides
the error, and only if there is none the order of the times. -/
theorem readFrames_rows {α : Type} [Scalar α] (number : List Char → Option α) (directory : String)
    {height : Nat} (columns : List (Column height)) (file : List UInt8)
    (hfile : Holds file columns) (htime : (named? columns timeNames).isSome)
    (hpicture : (named? columns pathNames).isSome ∨ (named? columns numberNames).isSome) :
    ((∃ stream, readFrames number (some file) directory = .ok stream) ↔
      (∀ i, Faultless number columns i) ∧ InOrder number columns) ∧
    (∀ stream, readFrames number (some file) directory = .ok stream →
      ∃ frames : Fin height → Frame String,
        (∀ i, TellsFrame number directory columns i (frames i)) ∧
        stream.toList = List.ofFn frames) ∧
    (named? columns pathNames = none → ∀ i j m n frame frame',
      TellsFrame number directory columns i frame → TellsFrame number directory columns j frame' →
      Decimal.IsUInt64Text (fieldOf columns i numberNames) m →
      Decimal.IsUInt64Text (fieldOf columns j numberNames) n →
      (frame.image = frame'.image ↔ m = n)) ∧
    ((named? columns pathNames).isSome → ∀ (others : List (Column height)) (file' : List UInt8),
      Holds file' others → otherColumns columns = otherColumns others →
      readFrames number (some file) directory = readFrames number (some file') directory) ∧
    (∀ i, (∀ j, j < i → Faultless number columns j) → ¬Faultless number columns i →
      ∃ error, RowFault number columns i error ∧
        readFrames number (some file) directory = .error error) ∧
    ((∀ i, Faultless number columns i) → ∀ error,
      readFrames number (some file) directory = .error error →
      ∃ former latter, error = .ingestion (.unorderedFrames former latter)) := by
  refine ⟨exists_readFrames_iff hfile htime hpicture,
    fun stream => (readFrames_eq_ok_iff hfile htime hpicture).1,
    fun hpath i j m n frame frame' h h' hm hn => h.image_eq_iff h' hpath hm hn,
    fun hpath others file' hfile' hsame =>
      readFrames_eq_of_otherColumns hfile hfile' hsame htime hpath,
    fun i hbefore h => ?_, fun hrows error h => ?_⟩
  · obtain ⟨error, hfault⟩ := exists_rowFault number h
    refine ⟨error, hfault, ?_⟩
    rw [readFrames_of_holds directory number hfile htime hpicture,
      mapM_frameOfRow_error directory number hbefore hfault]
    rfl
  · rw [readFrames_of_holds directory number hfile htime hpicture, bind_eq_error_iff] at h
    rcases h with h | ⟨frames, -, h⟩
    · obtain ⟨i, hi, hfail, -⟩ := mapM_eq_error_iff.1 h
      obtain ⟨frame, hframe⟩ := (exists_tellsFrame_iff number directory).2 (hrows _)
      rw [(frameOfRow_eq_ok_iff number directory).2 hframe] at hfail
      cases hfail
    · exact exists_unordered_of_ofFrames h

def numberedFrame (frameNumber : String) : List (Column 1) :=
  [.single "frame_no" frameNumber, .single "dataset_time" "100"]

def framePath (frameNumber : String) : List (Column 1) :=
  .single "path" "a.png" :: numberedFrame frameNumber

theorem readFrames_rows_single :
    (∃ stream, readFrames Decimal.readFloat (some (quotedFile (numberedFrame "+007"))) "d" =
      .ok stream ∧ stream.toList = [⟨100, "d/7.png"⟩]) ∧
    readFrames Decimal.readFloat (some (quotedFile (numberedFrame "x"))) "d" =
      .error (.ingestion (.invalidFrameNumber "x")) ∧
    readFrames Decimal.readFloat (some (quotedFile (framePath "x"))) "d" =
      readFrames Decimal.readFloat (some (quotedFile (framePath "+007"))) "d" := by
  have hnumbered (frameNumber : String) := readFrames_rows Decimal.readFloat "d"
    (numberedFrame frameNumber) _ (holds_quotedFile (by simp [numberedFrame])) rfl (.inr rfl)
  have htime : readTimestamp Decimal.readFloat "100".toList = .ok 100 := rfl
  have hseven : Decimal.IsUInt64Text "+007".toList 7 :=
    Decimal.readUInt64_eq_some_iff.1 (by decide)
  have hnone : ¬∃ n, Decimal.IsUInt64Text "x".toList n := by
    rintro ⟨n, hn⟩
    have hread : Decimal.readUInt64 "x".toList = none := by decide
    rw [Decimal.readUInt64_eq_some_iff.2 hn] at hread
    cases hread
  refine ⟨?_, ?_, ?_⟩
  · obtain ⟨hreads, hframes, -⟩ := hnumbered "+007"
    obtain ⟨stream, hstream⟩ := hreads.2 ⟨fun _ => ⟨⟨100, htime⟩, fun _ => ⟨7, hseven⟩⟩,
      fun i j _ _ hij => absurd hij (by omega)⟩
    obtain ⟨frames, hrow, hlist⟩ := hframes stream hstream
    obtain ⟨n, hn, himage⟩ := (hrow 0).number rfl
    have hframe : frames 0 = ⟨100, "d/7.png"⟩ := by
      have hseven' := (Decimal.readUInt64_eq_some_iff.2 hseven).symm.trans
        (Decimal.readUInt64_eq_some_iff.2 hn)
      have htime' := htime.symm.trans (hrow 0).time
      rw [← Option.some.inj hseven'] at himage
      calc frames 0 = ⟨(frames 0).timestamp, (frames 0).image⟩ := rfl
        _ = ⟨100, picture "d" 7⟩ := by rw [himage, ← Except.ok.inj htime']
        _ = ⟨100, "d/7.png"⟩ := by decide +kernel
    refine ⟨stream, hstream, ?_⟩
    rw [hlist, List.ofFn_succ, List.ofFn_zero, hframe]
  · obtain ⟨-, -, -, -, hfaults, -⟩ := hnumbered "x"
    obtain ⟨error, hfault, herror⟩ := hfaults 0 (fun j hj => absurd hj (by omega))
      fun hrow => hnone (hrow.number rfl)
    cases hfault with
    | time h => cases htime.symm.trans h
    | number => exact herror
  · have hpaths := readFrames_rows Decimal.readFloat "d" (framePath "x") _
      (holds_quotedFile (by simp [framePath])) rfl (.inl rfl)
    exact hpaths.2.2.2.1 rfl _ _ (holds_quotedFile (by simp [framePath])) rfl

def pathTable (frameNumber : List UInt8) : List UInt8 :=
  encode "timestamp,path,frame_no\n1,a.png,".toList ++ frameNumber ++ encode ['\n']

/-- Even a column that nothing needs has to be text. -/
theorem readFrames_wants_text :
    (readFrames Decimal.readFloat (some (pathTable (encode ['x']))) "d").toOption.isSome ∧
      (readFrames Decimal.readFloat (some (pathTable [0xff])) "d").toOption.isNone := by
  decide +kernel

end Table
end TrackingScore
