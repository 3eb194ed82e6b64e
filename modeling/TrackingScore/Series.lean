/-!
Items in strictly increasing order of time. The order is part of the type: a series is made from a
list that is checked, and every operation keeps it. `ofList` fails exactly on lists out of order,
and then names the first two neighbours at fault.
-/

namespace TrackingScore

/-- The first two neighbours that are not in strictly increasing order of time. -/
def firstDisorder? {β : Type} (time : β → Int64) : List β → Option (β × β)
  | a :: b :: rest => if time a < time b then firstDisorder? time (b :: rest) else some (a, b)
  | _ => none

theorem pairwise_of_firstDisorder?_eq_none {β : Type} {time : β → Int64} {items : List β}
    (h : firstDisorder? time items = none) : items.Pairwise (fun a b => time a < time b) := by
  induction items with
  | nil => exact .nil
  | cons a rest ih =>
    match rest, ih, h with
    | [], _, _ => exact List.pairwise_singleton _ _
    | b :: rest, ih, h =>
      simp only [firstDisorder?] at h
      split at h
      · rename_i hab
        have hb := ih h
        refine List.pairwise_cons.2 ⟨fun c hc => ?_, hb⟩
        rcases List.mem_cons.1 hc with rfl | hc
        · exact hab
        · exact Int64.lt_trans hab ((List.pairwise_cons.1 hb).1 c hc)
      · simp at h

theorem firstDisorder?_eq_none_of_pairwise {β : Type} {time : β → Int64} {items : List β}
    (h : items.Pairwise (fun a b => time a < time b)) : firstDisorder? time items = none := by
  induction items with
  | nil => rfl
  | cons a rest ih =>
    match rest, ih, h with
    | [], _, _ => rfl
    | b :: rest, ih, h =>
      obtain ⟨ha, hb⟩ := List.pairwise_cons.1 h
      simp [firstDisorder?, ha b (by simp), ih hb]

theorem firstDisorder?_append {β : Type} {time : β → Int64} {front rest : List β} {last x : β}
    (hfront : front.Pairwise (fun a b => time a < time b)) (hlast : front.getLast? = some last)
    (hx : time x ≤ time last) : firstDisorder? time (front ++ x :: rest) = some (last, x) := by
  induction front with
  | nil => cases hlast
  | cons a front ih =>
    obtain ⟨ha, hrest⟩ := List.pairwise_cons.1 hfront
    cases front with
    | nil =>
      cases hlast
      exact if_neg (Int64.not_lt.2 hx)
    | cons b front =>
      rw [List.getLast?_cons_cons] at hlast
      exact (if_pos (ha b List.mem_cons_self)).trans (ih hrest hlast)

structure Series (β : Type) (time : β → Int64) where
  toList : List β
  increasing : toList.Pairwise (fun a b => time a < time b)

namespace Series

variable {β : Type} {time : β → Int64}

@[ext] theorem ext {s t : Series β time} (h : s.toList = t.toList) : s = t := by
  cases s; cases t; cases h; rfl

def empty : Series β time := ⟨[], .nil⟩

def ofList (items : List β) : Except (β × β) (Series β time) :=
  match h : firstDisorder? time items with
  | none => .ok ⟨items, pairwise_of_firstDisorder?_eq_none h⟩
  | some pair => .error pair

theorem ofList_toList (s : Series β time) :
    (ofList s.toList : Except (β × β) (Series β time)) = .ok s := by
  have h := firstDisorder?_eq_none_of_pairwise s.increasing
  unfold ofList
  split
  · rfl
  · simp_all

theorem ofList_eq_ok_iff {items : List β} {s : Series β time} :
    ofList items = .ok s ↔ s.toList = items := by
  constructor
  · intro h
    unfold ofList at h
    split at h
    · cases h
      rfl
    · cases h
  · rintro rfl
    exact s.ofList_toList

theorem ofList_eq_error {items : List β} {pair : β × β} (h : firstDisorder? time items = some pair) :
    (ofList items : Except (β × β) (Series β time)) = .error pair := by
  unfold ofList
  split
  · rename_i hnone
    rw [h] at hnone
    cases hnone
  · rename_i hpair
    rw [h] at hpair
    cases hpair
    rfl

def length (s : Series β time) : Nat := s.toList.length

def isEmpty (s : Series β time) : Bool := s.toList.isEmpty

def times (s : Series β time) : List Int64 := s.toList.map time

def first? (s : Series β time) : Option β := s.toList.head?

def last? (s : Series β time) : Option β := s.toList.getLast?

def get? (s : Series β time) (i : Nat) : Option β := s.toList[i]?

theorem pairwise_append_singleton {items : List β} {last x : β}
    (hitems : items.Pairwise (fun a b => time a < time b))
    (hlast : items.getLast? = some last) (hx : time last < time x) :
    (items ++ [x]).Pairwise (fun a b => time a < time b) := by
  refine List.pairwise_append.2 ⟨hitems, List.pairwise_singleton _ _, fun a ha b hb => ?_⟩
  obtain rfl : b = x := by simpa using hb
  obtain ⟨front, rfl⟩ := List.getLast?_eq_some_iff.1 hlast
  rcases List.mem_append.1 ha with ha | ha
  · exact Int64.lt_trans ((List.pairwise_append.1 hitems).2.2 a ha last (by simp)) hx
  · obtain rfl : a = last := by simpa using ha
    exact hx

/-- Adds an item at the end; it has to come after the last one, which is returned otherwise. -/
def push (s : Series β time) (x : β) : Except β (Series β time) :=
  match h : s.toList.getLast? with
  | none => .ok ⟨[x], List.pairwise_singleton _ _⟩
  | some last =>
    if hx : time last < time x then
      .ok ⟨s.toList ++ [x], pairwise_append_singleton s.increasing h hx⟩
    else .error last

section push

variable {s next : Series β time} {x last : β}

theorem push_of_getLast?_eq_none (h : s.toList.getLast? = none) :
    s.push x = .ok ⟨[x], List.pairwise_singleton _ _⟩ := by
  unfold push
  split
  · rfl
  · rename_i hlast
    rw [h] at hlast
    cases hlast

theorem push_of_getLast?_eq_some (h : s.toList.getLast? = some last) :
    s.push x = if hx : time last < time x then
      .ok ⟨s.toList ++ [x], pairwise_append_singleton s.increasing h hx⟩ else .error last := by
  unfold push
  split
  · rename_i hnone
    rw [h] at hnone
    cases hnone
  · rename_i hlast
    cases h.symm.trans hlast
    rfl

theorem push_eq_ok_iff : s.push x = .ok next ↔ next.toList = s.toList ++ [x] := by
  cases h : s.toList.getLast? with
  | none =>
    rw [push_of_getLast?_eq_none h, List.getLast?_eq_none_iff.1 h, Except.ok.injEq, Series.ext_iff,
      eq_comm, List.nil_append]
  | some last =>
    rw [push_of_getLast?_eq_some h]
    split
    · rw [Except.ok.injEq, Series.ext_iff, eq_comm]
    · rename_i hlt
      refine iff_of_false nofun fun hnext => hlt ?_
      have hincreasing := next.increasing
      rw [hnext, List.pairwise_append] at hincreasing
      exact hincreasing.2.2 last (List.mem_of_getLast? h) x (List.mem_singleton_self x)

theorem push_eq_error_iff :
    s.push x = .error last ↔ s.last? = some last ∧ time x ≤ time last := by
  unfold last?
  cases h : s.toList.getLast? with
  | none => simp [push_of_getLast?_eq_none h]
  | some former =>
    rw [push_of_getLast?_eq_some h]
    split
    · rename_i hlt
      refine iff_of_false nofun ?_
      rintro ⟨heq, hle⟩
      cases heq
      exact Int64.lt_irrefl (Int64.lt_of_lt_of_le hlt hle)
    · rename_i hlt
      rw [Except.error.injEq, Option.some.injEq]
      refine ⟨?_, And.left⟩
      rintro rfl
      exact ⟨rfl, Int64.not_lt.1 hlt⟩

end push

def slice? (s : Series β time) (start stop : Nat) : Option (Series β time) :=
  if start ≤ stop ∧ stop ≤ s.length then
    some ⟨(s.toList.take stop).drop start,
      s.increasing.sublist ((List.drop_sublist _ _).trans (List.take_sublist _ _))⟩
  else none

def map (s : Series β time) (f : β → β) (h : ∀ x, time (f x) = time x) : Series β time where
  toList := s.toList.map f
  increasing := by simpa [List.pairwise_map, h] using s.increasing

@[simp] theorem toList_map (s : Series β time) (f : β → β) (h : ∀ x, time (f x) = time x) :
    (s.map f h).toList = s.toList.map f := rfl

@[simp] theorem times_map (s : Series β time) (f : β → β) (h : ∀ x, time (f x) = time x) :
    (s.map f h).times = s.times := by
  simp [times, Function.comp_def, h]

end Series
end TrackingScore
