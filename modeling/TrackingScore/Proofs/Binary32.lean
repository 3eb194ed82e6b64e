import Mathlib
import TrackingScore.Proofs.LawfulScalar

/-!
Binary numbers of 32 bits obey the laws of a lawful scalar. A number that is one has three places,
told one after the other: its kind, its exponent and its significand, the last two counted backwards
below zero. Signs only meet in products, where those of equal numbers cancel.
-/

namespace TrackingScore.Binary32

open Float.Model Float.Model.UnpackedFloat

section order

def kind : UnpackedFloat → Int
  | .infinity .negative => -2
  | .finite .negative .. => -1
  | .finite .positive .. => 1
  | .infinity .positive => 2
  | .zero _ | .notANumber => 0

def signedExponent : UnpackedFloat → Int
  | .finite sign _ exponent _ => sign.apply exponent
  | _ => 0

def signedSignificand : UnpackedFloat → Int
  | .finite sign significand _ _ => sign.apply significand
  | _ => 0

def place : UnpackedFloat → UnpackedFloat → Ordering :=
  compareLex (compareOn kind) (compareLex (compareOn signedExponent) (compareOn signedSignificand))

instance : Std.TransCmp place := inferInstanceAs (Std.TransCmp (compareLex _ _))

theorem place_swap (a b : UnpackedFloat) : place a b = (place b a).swap :=
  Std.OrientedCmp.eq_swap

theorem compare_neg_neg (a b : Int) : compare (-a) (-b) = compare b a := by
  simp only [compare, compareOfLessAndEq, Int.neg_lt_neg_iff, Int.neg_inj, eq_comm]

theorem compare_natCast (a b : Nat) : compare (a : Int) b = compare a b := by
  simp only [compare, compareOfLessAndEq, Int.ofNat_lt, Int.natCast_inj]

theorem place_positive {m n : Nat} {e f : Int} (hm : 0 < m) (hn : 0 < n) :
    place (.finite .positive m e hm) (.finite .positive n f hn) =
      (compare e f).then (compare m n) := by
  rw [← compare_natCast]
  rfl

theorem place_negative {m n : Nat} {e f : Int} (hm : 0 < m) (hn : 0 < n) :
    place (.finite .negative m e hm) (.finite .negative n f hn) =
      ((compare e f).then (compare m n)).swap := by
  rw [← compare_natCast, Ordering.swap_then, Int.compare_swap, Int.compare_swap,
    ← compare_neg_neg e f, ← compare_neg_neg m n]
  rfl

theorem compare_eq {a b : UnpackedFloat} (ha : a.isNaN = false) (hb : b.isNaN = false) :
    a.compare b = some (place a b) := by
  cases a with
  | notANumber => cases ha
  | zero s =>
    cases b with
    | notANumber => cases hb
    | zero t => rfl
    | infinity t => cases t <;> rfl
    | finite t => cases t <;> rfl
  | infinity s =>
    cases b with
    | notANumber => cases hb
    | zero t => cases s <;> rfl
    | infinity t => cases s <;> cases t <;> rfl
    | finite t => cases s <;> cases t <;> rfl
  | finite s m e hm =>
    cases b with
    | notANumber => cases hb
    | zero t => cases s <;> rfl
    | infinity t => cases s <;> cases t <;> rfl
    | finite t n f hn =>
      cases s <;> cases t
      · rw [place_negative]
        rfl
      · rfl
      · rfl
      · rw [place_positive]
        rfl

theorem compare_eq_none {a b : UnpackedFloat} (h : a.isNaN = true ∨ b.isNaN = true) :
    a.compare b = none := by
  cases a <;> cases b <;> first | rfl | simp [UnpackedFloat.isNaN] at h

/-- Both are numbers, and their places compare in a certain way. -/
def Compares (way : Ordering → Prop) (a b : UnpackedFloat) : Prop :=
  (a.isNaN = false ∧ b.isNaN = false) ∧ way (place a b)

theorem exists_compare_eq_some_iff (way : Ordering → Prop) (a b : UnpackedFloat) :
    (∃ o, a.compare b = some o ∧ way o) ↔ Compares way a b := by
  by_cases h : a.isNaN = false ∧ b.isNaN = false
  · simp [compare_eq h.1 h.2, Compares, h]
  · have hnone : a.isNaN = true ∨ b.isNaN = true := by
      rwa [not_and_or, Bool.not_eq_false, Bool.not_eq_false] at h
    simp [compare_eq_none hnone, Compares, h]

variable {x y : Float32}

theorem atMost_iff :
    Scalar.atMost x y = true ↔ Compares (·.isLE = true) x.toModel.unpack y.toModel.unpack := by
  rw [← exists_compare_eq_some_iff]
  simp [Scalar.atMost, LE.le, Float32.le, Float32.Model.le, UnpackedFloat.le, Option.any_eq_true]

theorem less_iff :
    Scalar.less x y = true ↔ Compares (· = .lt) x.toModel.unpack y.toModel.unpack := by
  rw [← exists_compare_eq_some_iff]
  simp [Scalar.less, LT.lt, Float32.lt, Float32.Model.lt, UnpackedFloat.lt]

theorem same_iff :
    Scalar.same x y = true ↔ Compares (· = .eq) x.toModel.unpack y.toModel.unpack := by
  rw [← exists_compare_eq_some_iff]
  change x.toModel.unpack.beq y.toModel.unpack = true ↔ _
  simp [UnpackedFloat.beq]

theorem isNaN_eq_false_iff : Scalar.isNaN x = false ↔ x.toModel.unpack.isNaN = false := by
  rw [Scalar.isNaN, Bool.not_eq_false', same_iff, Compares, and_self]
  exact and_iff_left Std.ReflCmp.compare_self

end order

section magnitude

variable (spec : Format)

theorem mul_self_abs (a : UnpackedFloat) :
    UnpackedFloat.mul spec a a = UnpackedFloat.mul spec a.abs a.abs := by
  cases a with
  | notANumber => rfl
  | infinity s => cases s <;> rfl
  | zero s => cases s <;> rfl
  | finite s => cases s <;> rfl

theorem abs_round (s t : Sign) (m : Nat) (e : Int) :
    (UnpackedFloat.round spec s m e).abs = (UnpackedFloat.round spec t m e).abs := by
  simp only [UnpackedFloat.round, roundWithAccuracy]
  split <;> rfl

theorem abs_normalize_neg (m e : Int) :
    (UnpackedFloat.normalize spec (-m) e .positive).abs =
      (UnpackedFloat.normalize spec m e .positive).abs := by
  simp only [UnpackedFloat.normalize]
  rcases Int.lt_trichotomy m 0 with hm | rfl | hm
  · rw [Int.compare_eq_gt.2 (by omega : 0 < -m), Int.compare_eq_lt.2 hm]
    exact abs_round spec _ _ _ _
  · rfl
  · rw [Int.compare_eq_lt.2 (by omega : -m < 0), Int.compare_eq_gt.2 hm, Int.neg_neg]
    exact abs_round spec _ _ _ _

theorem abs_sub_comm (a b : UnpackedFloat) :
    (UnpackedFloat.sub spec a b).abs = (UnpackedFloat.sub spec b a).abs := by
  cases a with
  | notANumber => cases b <;> rfl
  | infinity s =>
    cases b with
    | infinity t => cases s <;> cases t <;> rfl
    | notANumber | zero | finite => rfl
  | zero s =>
    cases b with
    | zero t => cases s <;> cases t <;> rfl
    | notANumber | infinity | finite => rfl
  | finite s m e hm =>
    cases b with
    | finite t n f hn =>
      simp only [UnpackedFloat.sub]
      rw [Int.min_comm f e, ← abs_normalize_neg, Int.neg_sub]
    | notANumber | infinity | zero => rfl

theorem abs_unpack_packComponents (s t : Sign) (e : BitVec spec.exponentBits)
    (m : BitVec spec.mantissaBitsWithoutImplicit) :
    (UnpackedFloat.unpack spec (packComponents spec s e m)).abs =
      (UnpackedFloat.unpack spec (packComponents spec t e m)).abs := by
  simp only [UnpackedFloat.unpack, unpackMantissa_packComponents, unpackExponent_packComponents]
  split_ifs <;> rfl

theorem abs_unpack_pack (a : UnpackedFloat) :
    (UnpackedFloat.unpack spec (UnpackedFloat.pack spec a)).abs =
      (UnpackedFloat.unpack spec (UnpackedFloat.pack spec a.abs)).abs := by
  cases a with
  | notANumber => rfl
  | infinity s => exact abs_unpack_packComponents spec s .positive _ _
  | zero s => exact abs_unpack_packComponents spec s .positive _ _
  | finite s m e hm =>
    simp only [UnpackedFloat.abs, UnpackedFloat.pack]
    split_ifs <;> exact abs_unpack_packComponents spec s .positive _ _

variable {x y : Float32}

theorem mul_self_eq (x : Float32) :
    x * x = .ofModel
      (.pack (UnpackedFloat.mul .binary32 x.toModel.unpack.abs x.toModel.unpack.abs)) :=
  congrArg (fun a => Float32.ofModel (.pack a)) (mul_self_abs .binary32 x.toModel.unpack)

theorem abs_unpack_sub (x y : Float32) :
    (x - y).toModel.unpack.abs = (y - x).toModel.unpack.abs := by
  calc
    _ = (UnpackedFloat.unpack .binary32 (UnpackedFloat.pack .binary32
          (UnpackedFloat.sub .binary32 x.toModel.unpack y.toModel.unpack).abs)).abs :=
      abs_unpack_pack .binary32 _
    _ = _ := by
      rw [abs_sub_comm]
      exact (abs_unpack_pack .binary32 _).symm

end magnitude

section zero

theorem unpack_pack_zero (s : Sign) : (Float32.Model.pack (.zero s)).unpack = .zero s := by
  cases s <;> rfl

theorem unpack_pack_notANumber : (Float32.Model.pack .notANumber).unpack = .notANumber := rfl

theorem unpack_zero : (0.0 : Float32).toModel.unpack = .zero .positive := by rfl

theorem eq_zero_of_place {a : UnpackedFloat} (ha : a.isNaN = false)
    (h : place a (.zero .positive) = .eq) : ∃ s, a = .zero s := by
  cases a with
  | notANumber => cases ha
  | zero s => exact ⟨s, rfl⟩
  | infinity s => cases s <;> cases h
  | finite s => cases s <;> cases h

theorem mul_zero_eq (s : Sign) (b : UnpackedFloat) :
    (∃ t, UnpackedFloat.mul .binary32 (.zero s) b = .zero t) ∨
      UnpackedFloat.mul .binary32 (.zero s) b = .notANumber := by
  cases b with
  | notANumber | infinity => exact .inr rfl
  | zero | finite => exact .inl ⟨_, rfl⟩

theorem less_zero_of_mul_less {x y z : Float32} (hx : Scalar.same x 0.0 = true)
    (hless : Scalar.less (x * y) z = true) : Scalar.less 0.0 z = true := by
  rw [same_iff, Compares, unpack_zero] at hx
  obtain ⟨s, hs⟩ := eq_zero_of_place hx.1.1 hx.2
  have hproduct : (x * y).toModel.unpack =
      (Float32.Model.pack (UnpackedFloat.mul .binary32 (.zero s) y.toModel.unpack)).unpack := by
    rw [← hs]
    rfl
  rw [less_iff, hproduct] at hless
  rw [less_iff, unpack_zero]
  rcases mul_zero_eq s y.toModel.unpack with ⟨t, ht⟩ | hnot
  · rw [ht, unpack_pack_zero] at hless
    exact ⟨⟨rfl, hless.1.2⟩, hless.2⟩
  · rw [hnot, unpack_pack_notANumber] at hless
    cases hless.1.1

end zero

instance : LawfulScalar Float32 where
  atMost_trans hab hbc := by
    rw [atMost_iff] at hab hbc ⊢
    exact ⟨⟨hab.1.1, hbc.1.2⟩, Std.TransCmp.isLE_trans hab.2 hbc.2⟩
  atMost_total {a b} ha hb := by
    rw [isNaN_eq_false_iff] at ha hb
    rw [atMost_iff, atMost_iff, Compares, Compares, place_swap b.toModel.unpack, ha, hb]
    cases place a.toModel.unpack b.toModel.unpack <;> decide
  not_isNaN_of_atMost h := by
    rw [isNaN_eq_false_iff, isNaN_eq_false_iff]
    exact (atMost_iff.1 h).1
  less_iff {a b} := by
    rw [← Bool.not_eq_true, less_iff, atMost_iff, atMost_iff, Compares, Compares, Compares,
      place_swap b.toModel.unpack]
    generalize a.toModel.unpack.isNaN = p, b.toModel.unpack.isNaN = q
    cases place a.toModel.unpack b.toModel.unpack <;> cases p <;> cases q <;> decide
  same_iff {a b} := by
    rw [same_iff, atMost_iff, atMost_iff, Compares, Compares, Compares,
      place_swap b.toModel.unpack]
    generalize a.toModel.unpack.isNaN = p, b.toModel.unpack.isNaN = q
    cases place a.toModel.unpack b.toModel.unpack <;> cases p <;> cases q <;> decide
  square_sub_comm x y := by rw [mul_self_eq, mul_self_eq, abs_unpack_sub]
  not_isNaN_zero := by
    rw [isNaN_eq_false_iff]
    exact congrArg UnpackedFloat.isNaN unpack_zero
  less_zero_of_mul_less := less_zero_of_mul_less

end TrackingScore.Binary32
