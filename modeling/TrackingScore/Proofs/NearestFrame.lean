import Mathlib.Data.List.Basic
import TrackingScore.Frame.Matching
import TrackingScore.Proofs.SortedTimes

/-!
Matching of frames. A search compares only the two times around a query, but on sorted times its
answer is the nearest of all, the later one of two equally near. So estimated frames past the
warm-up period lose nothing in a matching, and their references never go back in time.
-/

namespace TrackingScore

/-- Whether `a` is as near to `t` as `b` is, and not the earlier one of two equally near times. -/
def Nearer (t a b : Int64) : Prop :=
  timeDistance t a ≤ timeDistance t b ∧ (timeDistance t b = timeDistance t a → b ≤ a)

instance (t a b : Int64) : Decidable (Nearer t a b) :=
  inferInstanceAs (Decidable (_ ∧ (_ → _)))

theorem Nearer.trans {t a b c : Int64} (hab : Nearer t a b) (hbc : Nearer t b c) :
    Nearer t a c := by
  refine ⟨Nat.le_trans hab.1 hbc.1, fun heq => ?_⟩
  have hb := Nat.le_antisymm hab.1 (heq ▸ hbc.1)
  exact Int64.le_trans (hbc.2 (heq.trans hb)) (hab.2 hb.symm)

theorem nearer_of_le {t a b : Int64} (hta : t ≤ a) (hab : a ≤ b) : Nearer t a b := by
  rw [Int64.le_iff_toInt_le] at hta hab
  simp only [Nearer, timeDistance, Int64.le_iff_toInt_le]
  omega

theorem nearer_of_ge {t a b : Int64} (hat : a ≤ t) (hba : b ≤ a) : Nearer t a b := by
  rw [Int64.le_iff_toInt_le] at hat hba
  simp only [Nearer, timeDistance, Int64.le_iff_toInt_le]
  omega

theorem nearer_of_between {t a b : Int64} (hat : a < t) (htb : t ≤ b) :
    if timeDistance t a < timeDistance b t then Nearer t a b else Nearer t b a := by
  rw [Int64.lt_iff_toInt_lt] at hat
  rw [Int64.le_iff_toInt_le] at htb
  simp only [Nearer, timeDistance, Int64.le_iff_toInt_le]
  split <;> omega

/-- Nearest times never go back: the midpoint of two times parts the queries nearer to either. -/
theorem Nearer.mono {t u a b : Int64} (htu : t ≤ u) (ha : Nearer t a b) (hb : Nearer u b a) :
    a ≤ b := by
  rw [Int64.le_iff_toInt_le] at htu ⊢
  simp only [Nearer, timeDistance, Int64.le_iff_toInt_le] at ha hb
  omega

theorem nearestIndex_eq_none_iff {times : List Int64} {t : Int64} :
    nearestIndex times t = none ↔ times = [] := by
  rw [nearestIndex]
  grind

section nearestIndex

variable {times : List Int64} {t : Int64} {i j : Nat}

theorem nearer_countBefore (hs : times.Pairwise (· ≤ ·)) (hi : i < times.length)
    (h : countBefore id times t = i) (hj : j < times.length) (hij : i ≤ j) :
    Nearer t times[i] times[j] :=
  nearer_of_le (le_time_of_countBefore id hi h) (time_getElem_le hs hij hj)

theorem nearer_countBefore_pred (hs : times.Pairwise (· ≤ ·)) (hi : i < times.length)
    (h : countBefore id times t = i + 1) (hj : j ≤ i) : Nearer t times[i] times[j] :=
  nearer_of_ge (Int64.le_of_lt (time_lt_of_countBefore id hi h)) (time_getElem_le hs hj hi)

theorem nearer_of_nearestIndex (hs : times.Pairwise (· ≤ ·)) (h : nearestIndex times t = some i) :
    ∃ hi : i < times.length, ∀ j (hj : j < times.length), Nearer t times[i] times[j] := by
  have hle : countBefore id times t ≤ times.length := countBefore_le_length id
  rw [nearestIndex] at h
  split at h
  · cases h
  rename_i hne
  have hpos : 0 < times.length := by simpa [List.length_pos_iff] using hne
  split at h
  · -- every time comes after the query
    rename_i hzero
    obtain rfl := Option.some.inj h
    exact ⟨hpos, fun j hj => nearer_countBefore hs hpos hzero hj (Nat.zero_le j)⟩
  rename_i hzero
  split at h
  · -- every time comes before the query
    rename_i hlength
    obtain rfl := Option.some.inj h
    exact ⟨by omega, fun j hj => nearer_countBefore_pred hs (by omega) (by omega) (by omega)⟩
  rename_i hlength
  obtain ⟨k, hk⟩ := Nat.exists_eq_add_one.2 (Nat.pos_of_ne_zero hzero)
  have hk' : k + 1 < times.length := by omega
  have hbetween := nearer_of_between (time_lt_of_countBefore id (t := t) (by omega) hk)
    (le_time_of_countBefore id hk' hk)
  simp only [hk, Nat.add_sub_cancel, id_eq] at h hbetween
  split at h
  · rename_i hnearer
    rw [if_pos hnearer] at hbetween
    obtain rfl := Option.some.inj h
    refine ⟨by omega, fun j hj => ?_⟩
    rcases Nat.lt_or_ge k j with hkj | hjk
    · exact hbetween.trans (nearer_countBefore hs hk' hk hj hkj)
    · exact nearer_countBefore_pred hs (by omega) hk hjk
  · rename_i hnearer
    rw [if_neg hnearer] at hbetween
    obtain rfl := Option.some.inj h
    refine ⟨hk', fun j hj => ?_⟩
    rcases Nat.lt_or_ge k j with hkj | hjk
    · exact nearer_countBefore hs hk' hk hj hkj
    · exact hbetween.trans (nearer_countBefore_pred hs (by omega) hk hjk)

end nearestIndex

theorem toInt_ofIntClamp_eq (n : Int) :
    (Int64.ofIntClamp n).toInt =
      max Int64.minValue.toInt (min n Int64.maxValue.toInt) := by
  have hmin := Int64.toInt_minValue
  have hmax := Int64.toInt_maxValue
  by_cases hl : Int64.minValue.toInt ≤ n
  · by_cases hr : n ≤ Int64.maxValue.toInt
    · rw [Int64.toInt_ofIntClamp hl hr]
      omega
    · rw [Int64.ofIntClamp, dif_pos hl, dif_neg hr]
      omega
  · rw [Int64.ofIntClamp, dif_neg hl]
    omega

theorem filter_suffix {β : Type} {p : β → Bool} {items : List β}
    (h : items.Pairwise fun a b => p a = true → p b = true) : items.filter p <:+ items := by
  induction items with
  | nil => exact List.suffix_refl _
  | cons a rest ih =>
    obtain ⟨ha, hrest⟩ := List.pairwise_cons.1 h
    cases hp : p a with
    | true =>
      have hall : (a :: rest).filter p = a :: rest := by
        refine List.filter_eq_self.2 fun b hb => ?_
        rcases List.mem_cons.1 hb with rfl | hb
        · exact hp
        · exact ha b hb hp
      exact ⟨[], hall⟩
    | false =>
      rw [List.filter_cons_of_neg (by simp [hp])]
      exact (ih hrest).trans (List.suffix_cons a rest)

variable {α H : Type}

def FramePair.estimated (pair : FramePair H) : Frame H := ⟨pair.timestamp, pair.image⟩

def FramePair.reference (pair : FramePair H) : Frame H :=
  ⟨pair.referenceTimestamp, pair.referenceImage⟩

namespace FrameStream

variable {estimated reference : FrameStream H} {params : MatchParams}

/-- A frame of a stream that is nearest to a time, the later one of two equally near. -/
structure IsNearest (reference : FrameStream H) (t : Int64) (near : Frame H) : Prop where
  mem : near ∈ reference.toList
  nearer : ∀ other ∈ reference.toList, Nearer t near.timestamp other.timestamp

theorem nearest?_eq_some (hne : reference.toList ≠ []) (t : Int64) :
    ∃ near, reference.nearest? t = some near ∧ reference.IsNearest t near := by
  have htimes : reference.times ≠ [] := by simpa [Series.times] using hne
  obtain ⟨i, hi⟩ := Option.ne_none_iff_exists'.1 (mt nearestIndex_eq_none_iff.1 htimes)
  have hs : reference.times.Pairwise (· ≤ ·) := List.pairwise_map.2 reference.pairwise_le
  obtain ⟨hlt, hnearer⟩ := nearer_of_nearestIndex (t := t) hs hi
  have hlt' : i < reference.toList.length := by simpa [Series.times] using hlt
  refine ⟨reference.toList[i], ?_, List.getElem_mem hlt', fun other hother => ?_⟩
  · simp [nearest?, hi, Series.get?, hlt']
  · obtain ⟨j, hj, rfl⟩ := List.mem_iff_getElem.1 hother
    simpa [Series.times] using hnearer j (by simpa [Series.times] using hj)

theorem pairWith_eq_some (hne : reference.toList ≠ []) (frame : Frame H) :
    ∃ pair, reference.pairWith frame = some pair ∧ pair.estimated = frame ∧
      reference.IsNearest frame.timestamp pair.reference := by
  obtain ⟨near, hnear, hnearest⟩ := nearest?_eq_some hne frame.timestamp
  exact ⟨⟨frame.timestamp, frame.image, near.timestamp, near.image⟩, by simp [pairWith, hnear],
    rfl, hnearest⟩

theorem isNearest_of_pairWith (hne : reference.toList ≠ []) {frame : Frame H}
    {pair : FramePair H} (h : reference.pairWith frame = some pair) :
    pair.estimated = frame ∧ reference.IsNearest frame.timestamp pair.reference := by
  obtain ⟨_, hsome, hspec⟩ := pairWith_eq_some hne frame
  obtain rfl := Option.some.inj (h.symm.trans hsome)
  exact hspec

theorem map_estimated_filterMap (hne : reference.toList ≠ []) (frames : List (Frame H)) :
    (frames.filterMap reference.pairWith).map FramePair.estimated = frames := by
  rw [List.map_filterMap]
  refine (List.filterMap_congr fun frame _ => ?_).trans List.filterMap_some
  obtain ⟨pair, hsome, rfl, _⟩ := pairWith_eq_some hne frame
  rw [hsome]
  rfl

theorem pairwise_filterMap_pairWith (hne : reference.toList ≠ []) {frames : List (Frame H)}
    (hs : frames.Pairwise fun a b => a.timestamp < b.timestamp) :
    (frames.filterMap reference.pairWith).Pairwise fun former latter =>
      former.referenceTimestamp ≤ latter.referenceTimestamp := by
  rw [List.pairwise_filterMap]
  refine hs.imp fun {a b} hab former hformer latter hlatter => ?_
  have ha := (isNearest_of_pairWith hne hformer).2
  have hb := (isNearest_of_pairWith hne hlatter).2
  exact (ha.nearer _ hb.mem).mono (Int64.le_of_lt hab) (hb.nearer _ ha.mem)

/-- Whether a frame comes no earlier than the end of the warm-up period. The end is counted from the
first estimated frame and kept within the words. -/
def PastWarmup (estimated : FrameStream H) (params : MatchParams) (frame : Frame H) : Prop :=
  ∀ first ∈ estimated.toList.head?,
    max Int64.minValue.toInt
      (min (first.timestamp.toInt + params.warmupNs.toInt) Int64.maxValue.toInt) ≤
        frame.timestamp.toInt

instance : DecidablePred (estimated.PastWarmup params) :=
  fun _ => inferInstanceAs (Decidable (∀ first ∈ estimated.toList.head?, _))

theorem afterWarmup_eq :
    estimated.afterWarmup params =
      estimated.toList.filter fun frame => decide (estimated.PastWarmup params frame) := by
  rw [afterWarmup, Series.first?]
  cases h : estimated.toList with
  | nil => rfl
  | cons first rest =>
    refine List.filter_congr fun frame _ => decide_eq_decide.2 ?_
    rw [Int64.le_iff_toInt_le, toInt_ofIntClamp_eq]
    simp [PastWarmup, h]

theorem afterWarmup_suffix : estimated.afterWarmup params <:+ estimated.toList := by
  rw [afterWarmup_eq]
  refine filter_suffix (estimated.increasing.imp fun {a b} hab hpast => ?_)
  rw [decide_eq_true_iff] at hpast ⊢
  intro first hfirst
  exact Int.le_trans (hpast first hfirst) (Int.le_of_lt (Int64.lt_iff_toInt_lt.1 hab))

/-- A matching fails for want of reference frames only. It pairs every estimated frame past the
warm-up period, in order, with the nearest of all reference frames, and these come in order too. -/
theorem matchTo_cases (estimated reference : FrameStream H) (params : MatchParams) :
    (reference.toList = [] → (estimated.matchTo reference params :
        Except (EvalError α) (List (FramePair H))) = .error (.emptyInput .referenceFrames)) ∧
      (reference.toList ≠ [] → ∃ pairs : List (FramePair H),
        (estimated.matchTo reference params : Except (EvalError α) _) = .ok pairs ∧
          pairs.map FramePair.estimated =
            (estimated.toList.filter fun frame => decide (estimated.PastWarmup params frame)) ∧
          pairs.map FramePair.estimated <:+ estimated.toList ∧
          (∀ pair ∈ pairs, reference.IsNearest pair.timestamp pair.reference) ∧
          pairs.Pairwise fun former latter =>
            former.referenceTimestamp ≤ latter.referenceTimestamp) := by
  constructor
  · intro hempty
    rw [matchTo, if_pos (by simp [Series.isEmpty, hempty])]
  · intro hne
    refine ⟨(estimated.afterWarmup params).filterMap reference.pairWith, ?_, ?_, ?_, ?_, ?_⟩
    · rw [matchTo, if_neg (by simp [Series.isEmpty, hne])]
    · rw [map_estimated_filterMap hne, afterWarmup_eq]
    · rw [map_estimated_filterMap hne]
      exact afterWarmup_suffix
    · intro pair hmem
      obtain ⟨frame, _, hsome⟩ := List.mem_filterMap.1 hmem
      obtain ⟨rfl, hnearest⟩ := isNearest_of_pairWith hne hsome
      exact hnearest
    · exact pairwise_filterMap_pairWith hne
        (estimated.increasing.sublist afterWarmup_suffix.sublist)

theorem matchTo_cases_tie :
    ∃ pairs : List (FramePair Nat), (matchTo ⟨[⟨0, 0⟩, ⟨10, 1⟩, ⟨25, 2⟩], by decide⟩
        ⟨[⟨0, 7⟩, ⟨20, 8⟩], by decide⟩ ⟨5⟩ : Except (EvalError Float) _) = .ok pairs ∧
      pairs.map FramePair.estimated = [⟨10, 1⟩, ⟨25, 2⟩] ∧
      ∀ pair ∈ pairs, pair.reference = ⟨20, 8⟩ := by
  obtain ⟨pairs, hok, hkept, _, hnearest, _⟩ :=
    (matchTo_cases ⟨[⟨0, 0⟩, ⟨10, 1⟩, ⟨25, 2⟩], by decide⟩ ⟨[⟨0, 7⟩, ⟨20, 8⟩], by decide⟩
      ⟨5⟩).2 (by decide)
  have hkept' : pairs.map FramePair.estimated = [⟨10, 1⟩, ⟨25, 2⟩] := hkept.trans (by decide)
  refine ⟨pairs, hok, hkept', fun pair hmem => ?_⟩
  have htime : pair.estimated ∈ [(⟨10, 1⟩ : Frame Nat), ⟨25, 2⟩] :=
    hkept' ▸ List.mem_map_of_mem hmem
  have hlate := (hnearest pair hmem).nearer ⟨20, 8⟩ (by decide)
  have hmem' := (hnearest pair hmem).mem
  simp only [List.mem_cons, List.not_mem_nil, or_false, FramePair.estimated, Frame.mk.injEq]
    at htime hmem'
  rcases hmem' with heq | heq
  · -- the reference at time zero is farther from both, and loses the tie at ten
    rw [heq] at hlate
    rcases htime with ⟨htime, _⟩ | ⟨htime, _⟩ <;> rw [htime] at hlate <;>
      exact absurd hlate (by decide)
  · exact heq

end FrameStream

end TrackingScore
