import TrackingScore.Search

/-!
The time of a sorted list that is nearest to a given one.
-/

namespace TrackingScore

def timeDistance (a b : Int64) : Nat := (a.toInt - b.toInt).natAbs

/-- Index of the nearest of the sorted `times`; of two equally near ones the later wins. Only an
empty list has none. -/
def nearestIndex (times : List Int64) (t : Int64) : Option Nat :=
  let insertion := countBefore id times t
  if times.isEmpty then none
  else if insertion = 0 then some 0
  else if h : insertion = times.length then some (times.length - 1)
  else
    have hlt : insertion < times.length := Nat.lt_of_le_of_ne (countBefore_le_length _) h
    let predecessor := insertion - 1
    if timeDistance t times[predecessor] < timeDistance times[insertion] t then some predecessor
    else some insertion

end TrackingScore
