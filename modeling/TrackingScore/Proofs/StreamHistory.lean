import Mathlib.Data.List.Chain
import TrackingScore.Geometry.RigidTransform
import TrackingScore.Proofs.FirstFailure

/-!
Streams of poses as they are built and changed. A list is checked neighbour by neighbour only, a new
pose is compared with the last one only, and slices and transformed streams are not checked at all;
still no history of operations leads to a stream out of order. A list built at once and a list
pushed pose by pose are the same stream, or both stop at the same pair of poses.
-/

namespace TrackingScore.PoseStream

variable {α : Type}

/-! ## At once and one by one -/

def pushAll (stream : PoseStream α) (poses : List (Pose α)) :
    Except (EvalError α) (PoseStream α) :=
  poses.foldlM push stream

/-- An empty stream takes the poses in front of `refused`, of which `last` is the last one, and then
refuses `refused`. -/
structure RefusedAfter (poses : List (Pose α)) (taken : PoseStream α) (last refused : Pose α) :
    Prop where
  poses_eq : ∃ rest, poses = taken.toList ++ refused :: rest
  pushAll_taken : pushAll .empty taken.toList = .ok taken
  last_taken : taken.last? = some last
  push_refused : push taken refused =
    .error (.ingestion (.poseNotAfter refused.timestamp last.timestamp))

section building

variable {poses : List (Pose α)} {stream next taken : PoseStream α} {last refused : Pose α}
  {error : EvalError α}

theorem pushAll_cons (stream : PoseStream α) (pose : Pose α) (poses : List (Pose α)) :
    pushAll stream (pose :: poses) = push stream pose >>= fun next => pushAll next poses :=
  List.foldlM_cons

theorem pushAll_eq_ok_iff :
    pushAll stream poses = .ok next ↔ next.toList = stream.toList ++ poses := by
  induction poses generalizing stream with
  | nil =>
    change Except.ok stream = .ok next ↔ _
    rw [Except.ok.injEq, Series.ext_iff, List.append_nil, eq_comm]
  | cons pose poses ih =>
    rw [pushAll_cons, bind_eq_ok_iff, List.append_cons]
    constructor
    · rintro ⟨between, hpush, hrest⟩
      rw [ih.1 hrest, push_eq_ok_iff.1 hpush]
    · intro hnext
      -- the front of a list in order of time is in order, so the first pose is not refused
      have hincreasing := next.increasing
      rw [hnext] at hincreasing
      let between : PoseStream α :=
        ⟨stream.toList ++ [pose], (List.pairwise_append.1 hincreasing).1⟩
      exact ⟨between, push_eq_ok_iff.2 rfl, ih.2 hnext⟩

theorem pushAll_cases (stream : PoseStream α) (poses : List (Pose α)) :
    (∃ next, pushAll stream poses = .ok next) ∨
      ∃ (taken : PoseStream α) (refused : Pose α) (rest : List (Pose α)) (error : EvalError α),
        stream.toList ++ poses = taken.toList ++ refused :: rest ∧
          push taken refused = .error error ∧ pushAll stream poses = .error error := by
  induction poses generalizing stream with
  | nil => exact .inl ⟨stream, rfl⟩
  | cons pose poses ih =>
    rw [pushAll_cons]
    cases hpush : push stream pose with
    | error error => exact .inr ⟨stream, pose, poses, error, rfl, hpush, rfl⟩
    | ok between =>
      rw [List.append_cons, ← push_eq_ok_iff.1 hpush]
      exact ih between

theorem exists_refusedAfter (poses : List (Pose α)) :
    (∃ stream : PoseStream α, stream.toList = poses) ∨
      ∃ taken last refused, RefusedAfter poses taken last refused := by
  rcases pushAll_cases .empty poses with
    ⟨stream, hstream⟩ | ⟨taken, refused, rest, _, hsplit, hpush, _⟩
  · exact .inl ⟨stream, pushAll_eq_ok_iff.1 hstream⟩
  · obtain ⟨last, hlast, _, rfl⟩ := push_eq_error_iff.1 hpush
    exact .inr ⟨taken, last, refused, ⟨rest, hsplit⟩, pushAll_eq_ok_iff.2 rfl, hlast, hpush⟩

theorem RefusedAfter.ofPoses_eq (h : RefusedAfter poses taken last refused) :
    ofPoses poses = .error (.ingestion (.unorderedPoses last.timestamp refused.timestamp)) := by
  obtain ⟨rest, rfl⟩ := h.poses_eq
  obtain ⟨former, hformer, hle, _⟩ := push_eq_error_iff.1 h.push_refused
  obtain rfl := Option.some.inj (hformer.symm.trans h.last_taken)
  rw [ofPoses, Series.ofList_eq_error (firstDisorder?_append taken.increasing hformer hle)]

theorem ofPoses_eq_error_iff :
    ofPoses poses = .error error ↔ ∃ taken last refused, RefusedAfter poses taken last refused ∧
      error = .ingestion (.unorderedPoses last.timestamp refused.timestamp) := by
  constructor
  · intro herror
    rcases exists_refusedAfter poses with ⟨stream, hstream⟩ | ⟨taken, last, refused, hrefused⟩
    · rw [ofPoses_eq_ok_iff.2 hstream] at herror
      cases herror
    · rw [hrefused.ofPoses_eq] at herror
      cases herror
      exact ⟨taken, last, refused, hrefused, rfl⟩
  · rintro ⟨taken, last, refused, hrefused, rfl⟩
    exact hrefused.ofPoses_eq

end building

/-! ## Histories -/

abbrev InOrder (poses : List (Pose α)) : Prop :=
  poses.Pairwise fun a b => a.timestamp < b.timestamp

theorem inOrder_of_isChain {poses : List (Pose α)}
    (h : poses.IsChain fun a b => a.timestamp < b.timestamp) : InOrder poses := by
  have htrans : IsTrans (Pose α) fun a b => a.timestamp < b.timestamp :=
    ⟨fun _ _ _ => Int64.lt_trans⟩
  exact List.isChain_iff_pairwise.1 h

inductive Edit (α : Type) where
  | build (poses : List (Pose α))
  | push (pose : Pose α)
  | slice (start stop : Nat)
  | transform (T : RigidTransform α)

namespace Edit

variable [Scalar α]

/-- What an operation returns. Indices beyond the stream are not a slice of it. -/
def result? (edit : Edit α) (stream : PoseStream α) :
    Option (Except (EvalError α) (PoseStream α)) :=
  match edit with
  | build poses => some (ofPoses poses)
  | push pose => some (PoseStream.push stream pose)
  | slice start stop => (stream.slice? start stop).map .ok
  | transform T => some (.ok (T.transformStream stream))

/-- The stream that is held after an operation: the one returned, or the same as before if the
operation failed. -/
def after? (edit : Edit α) (stream : PoseStream α) : Option (PoseStream α) :=
  (edit.result? stream).map fun
    | .ok next => next
    | .error _ => stream

/-- The same operation on a list that nobody knows to be in order. The only comparisons are those
of neighbours in a new list and of a new pose with the last one. -/
def onList? (edit : Edit α) (held : List (Pose α)) : Option (List (Pose α)) :=
  match edit with
  | build poses =>
    some (if poses.IsChain fun a b => a.timestamp < b.timestamp then poses else held)
  | push pose =>
    some (if ∀ last ∈ held.getLast?, last.timestamp < pose.timestamp then held ++ [pose] else held)
  | slice start stop =>
    if start ≤ stop ∧ stop ≤ held.length then some ((held.take stop).drop start) else none
  | transform T => some (held.map T.transformPose)

section step

variable {edit : Edit α} {stream : PoseStream α} {held next : List (Pose α)}

theorem after?_push_of_error {pose : Pose α} {error : EvalError α}
    (h : PoseStream.push stream pose = .error error) : (push pose).after? stream = some stream := by
  simp only [after?, result?, h, Option.map_some]

/-- What is held after an operation is what an unordered list would hold, so the order is the work
of the few comparisons. -/
theorem onList?_toList (edit : Edit α) (stream : PoseStream α) :
    edit.onList? stream.toList = (edit.after? stream).map (·.toList) := by
  cases edit with
  | build poses =>
    simp only [onList?, after?, result?, Option.map_some]
    cases h : ofPoses poses with
    | ok made =>
      obtain rfl := ofPoses_eq_ok_iff.1 h
      rw [if_pos made.increasing.isChain]
    | error error =>
      rw [if_neg]
      intro hchain
      rw [ofPoses_eq_ok_iff.2 (rfl : (⟨poses, inOrder_of_isChain hchain⟩ : PoseStream α).toList = _)] at h
      cases h
  | push pose =>
    cases h : PoseStream.push stream pose with
    | ok made =>
      have hlast : ∀ last ∈ stream.toList.getLast?, last.timestamp < pose.timestamp := by
        intro last hlast
        by_contra hle
        rw [push_eq_error_iff.2 ⟨last, hlast, Int64.not_lt.1 hle, rfl⟩] at h
        cases h
      simp only [onList?, after?, result?, h, Option.map_some, push_eq_ok_iff.1 h, if_pos hlast]
    | error error =>
      obtain ⟨last, hlast, hle, _⟩ := push_eq_error_iff.1 h
      rw [after?_push_of_error h]
      exact congrArg some (if_neg fun hlt => Int64.not_lt.2 hle (hlt last hlast))
  | slice start stop =>
    by_cases h : start ≤ stop ∧ stop ≤ stream.length
    · have hslice : stream.slice? start stop = some _ := if_pos h
      simp only [after?, result?, hslice]
      exact if_pos h
    · have hslice : stream.slice? start stop = none := if_neg h
      simp only [after?, result?, hslice]
      exact if_neg h
  | transform T => rfl

theorem inOrder_onList? (hheld : InOrder held) (h : edit.onList? held = some next) :
    InOrder next := by
  cases edit with
  | build poses =>
    cases h
    split
    · rename_i hchain
      exact inOrder_of_isChain hchain
    · exact hheld
  | push pose =>
    cases h
    split
    · rename_i hlast
      cases hgetLast : held.getLast? with
      | none =>
        rw [List.getLast?_eq_none_iff.1 hgetLast]
        exact List.pairwise_singleton _ _
      | some last =>
        exact Series.pairwise_append_singleton hheld hgetLast (hlast last hgetLast)
    · exact hheld
  | slice start stop =>
    simp only [onList?] at h
    split at h
    · cases h
      exact hheld.sublist ((List.drop_sublist _ _).trans (List.take_sublist _ _))
    · cases h
  | transform T =>
    cases h
    exact List.pairwise_map.2 hheld

end step

end Edit

/-! ## Runs -/

section run

variable [Scalar α] {edits : List (Edit α)} {stream result : PoseStream α}

def run? (stream : PoseStream α) (edits : List (Edit α)) : Option (PoseStream α) :=
  edits.foldlM (fun held edit => edit.after? held) stream

def runOnList? (held : List (Pose α)) (edits : List (Edit α)) : Option (List (Pose α)) :=
  edits.foldlM (fun held edit => edit.onList? held) held

theorem run?_cons (stream : PoseStream α) (edit : Edit α) (edits : List (Edit α)) :
    run? stream (edit :: edits) = (edit.after? stream).bind (run? · edits) :=
  List.foldlM_cons

theorem runOnList?_cons (held : List (Pose α)) (edit : Edit α) (edits : List (Edit α)) :
    runOnList? held (edit :: edits) = (edit.onList? held).bind (runOnList? · edits) :=
  List.foldlM_cons

theorem runOnList?_toList (stream : PoseStream α) (edits : List (Edit α)) :
    runOnList? stream.toList edits = (run? stream edits).map (·.toList) := by
  induction edits generalizing stream with
  | nil => rfl
  | cons edit edits ih =>
    rw [runOnList?_cons, run?_cons, Edit.onList?_toList]
    cases edit.after? stream with
    | none => rfl
    | some next => exact ih next

theorem inOrder_runOnList? {held next : List (Pose α)} (hheld : InOrder held)
    (h : runOnList? held edits = some next) : InOrder next := by
  induction edits generalizing held with
  | nil =>
    cases h
    exact hheld
  | cons edit edits ih =>
    rw [runOnList?_cons, Option.bind_eq_some_iff] at h
    obtain ⟨between, hbetween, hrest⟩ := h
    exact ih (Edit.inOrder_onList? hheld hbetween) hrest

end run

/-- Whatever is done to a stream, its poses are in order of time, although a history on a plain list
with the same few comparisons is all that happens, and a pose that is refused leaves no trace. A
list is made a stream at once exactly if it is pose by pose, and by either as it is; otherwise the
neighbours found out of order are the last pose that is taken and the first that is refused. -/
theorem history_inOrder [Scalar α] :
    (∀ edits : List (Edit α),
      runOnList? [] edits = (run? .empty edits).map (·.toList) ∧
        ∀ stream, run? .empty edits = some stream →
          ∀ i j (_ : i < j) (_ : j < stream.toList.length),
            stream.toList[i].timestamp < stream.toList[j].timestamp) ∧
      (∀ (stream : PoseStream α) (pose : Pose α) (error : EvalError α),
        push stream pose = .error error → (Edit.push pose).after? stream = some stream ∧
          ∀ edits, run? stream (.push pose :: edits) = run? stream edits) ∧
      ∀ poses : List (Pose α),
        (∀ stream, ofPoses poses = .ok stream ↔ pushAll .empty poses = .ok stream) ∧
          (∀ stream, ofPoses poses = .ok stream ↔ stream.toList = poses) ∧
          ∀ error, ofPoses poses = .error error ↔
            ∃ taken last refused, RefusedAfter poses taken last refused ∧
              error = .ingestion (.unorderedPoses last.timestamp refused.timestamp) := by
  refine ⟨fun edits => ⟨runOnList?_toList .empty edits, ?_⟩, ?_, fun poses => ⟨?_, ?_, ?_⟩⟩
  · intro stream hstream i j hij hj
    have hlist := runOnList?_toList .empty edits
    rw [hstream, Option.map_some] at hlist
    exact List.pairwise_iff_getElem.1 (inOrder_runOnList? .nil hlist) i j _ hj hij
  · intro stream pose error herror
    have hafter := Edit.after?_push_of_error herror
    refine ⟨hafter, fun edits => ?_⟩
    rw [run?_cons, hafter, Option.bind_some]
  · intro stream
    have hpushed : pushAll .empty poses = .ok stream ↔ stream.toList = poses := pushAll_eq_ok_iff
    rw [ofPoses_eq_ok_iff, hpushed]
  · exact fun stream => ofPoses_eq_ok_iff
  · exact fun error => ofPoses_eq_error_iff

def restAt (t : Int64) : Pose Float := ⟨t, .zero, .identity⟩

def mixed : List (Edit Float) :=
  [.build [restAt 0, restAt 10, restAt 20], .push (restAt 20), .transform .identity, .slice 1 3,
    .push (restAt 25)]

theorem history_inOrder_mixed :
    (∃ stream, run? .empty mixed = some stream ∧ stream.times = [10, 20, 25] ∧
        ∀ i j (_ : i < j) (_ : j < stream.toList.length),
          stream.toList[i].timestamp < stream.toList[j].timestamp) ∧
      ofPoses [restAt 0, restAt 10, restAt 10, restAt 5] =
        .error (.ingestion (.unorderedPoses 10 10)) := by
  obtain ⟨hhistory, _, hbuild⟩ := history_inOrder (α := Float)
  refine ⟨⟨_, rfl, by decide, (hhistory mixed).2 _ rfl⟩, ((hbuild _).2.2 _).2 ?_⟩
  exact ⟨⟨[restAt 0, restAt 10], by decide⟩, restAt 10, restAt 10,
    ⟨⟨[restAt 5], rfl⟩, rfl, rfl, rfl⟩, rfl⟩

end TrackingScore.PoseStream
