/-!
Memoization. A memo keeps for each key the value that was stored for it first. Looking up and
storing are the two steps of a call; between them the function runs, and it may itself use the
memo.
-/

namespace TrackingScore

/-- Values by key, in the order they were stored. -/
structure Memo (κ υ : Type) where
  entries : List (κ × υ)
  deriving Repr, DecidableEq

namespace Memo

variable {κ υ : Type} [DecidableEq κ]

def empty : Memo κ υ := ⟨[]⟩

def lookup (memo : Memo κ υ) (key : κ) : Option υ :=
  (memo.entries.find? fun entry => entry.1 = key).map (·.2)

/-- Stores a value unless the key has one already; returns the value the key has then. -/
def store (memo : Memo κ υ) (key : κ) (value : υ) : υ × Memo κ υ :=
  match memo.lookup key with
  | some old => (old, memo)
  | none => (value, ⟨memo.entries ++ [(key, value)]⟩)

theorem lookup_empty (key : κ) : (empty : Memo κ υ).lookup key = none := rfl

theorem lookup_store_self (memo : Memo κ υ) (key : κ) (value : υ) :
    (memo.store key value).2.lookup key = some (memo.store key value).1 := by
  unfold store
  split
  · assumption
  · rename_i h
    simp only [lookup, Option.map_eq_none_iff] at h
    simp [lookup, List.find?_append, h]

theorem lookup_store_of_ne (memo : Memo κ υ) {key other : κ} (value : υ) (h : other ≠ key) :
    (memo.store key value).2.lookup other = memo.lookup other := by
  unfold store
  split
  · rfl
  · simp [lookup, List.find?_append, h.symm]

def size (memo : Memo κ υ) : Nat := memo.entries.length

def isEmpty (memo : Memo κ υ) : Bool := memo.entries.isEmpty

variable {m : Type → Type} [Monad m] {A ε : Type}

def call (keyOf : A → κ) (f : A → StateT (Memo κ υ) m υ) (arg : A) : StateT (Memo κ υ) m υ := do
  let key := keyOf arg
  match (← get).lookup key with
  | some value => return value
  | none =>
    let value ← f arg
    modifyGet (·.store key value)

/-- Like `call` where the key or the value may fail to be computed; a failure is not stored. -/
def tryCall (keyOf : A → Except ε κ) (f : A → ExceptT ε (StateT (Memo κ υ) m) υ) (arg : A) :
    ExceptT ε (StateT (Memo κ υ) m) υ := do
  let key ← keyOf arg
  match (← get).lookup key with
  | some value => return value
  | none =>
    let value ← f arg
    modifyGet (·.store key value)

end Memo
end TrackingScore
