/-!
Where a reader of comma separated rows stands before a row.
-/

namespace TrackingScore.Csv

structure Position where
  /-- Bytes passed, up to the end of the previous row. -/
  byte : Nat
  line : Nat
  record : Nat
  deriving Repr, DecidableEq

end TrackingScore.Csv
