import TrackingScore.Error
import TrackingScore.Json.Decode

/-!
Schedules of independent jobs. An executor runs jobs in whatever order and tags each result with
the number of its job; `inJobOrder` puts the results back in order and refuses them unless every
job has exactly one.
-/

namespace TrackingScore

open Json (Reader)

/-- Runs numbered jobs and returns their tagged results in the order of their completion. -/
structure Executor where
  run : {β : Type} → (jobs : Nat) → (Fin jobs → β) → List (Nat × β)

namespace Executor

/-- The jobs of a list, in its order. -/
def inOrder (order : (jobs : Nat) → List (Fin jobs)) : Executor where
  run jobs job := (order jobs).map fun i => (i.val, job i)

def sequential : Executor := inOrder List.finRange

end Executor

def inJobOrder {α β : Type} (tagged : List (Nat × β)) (jobs : Nat) :
    Except (EvalError α) (List β) :=
  let sorted := tagged.mergeSort fun a b => a.1 ≤ b.1
  if tagged.length = jobs && sorted.map (·.1) = List.range tagged.length then
    .ok (sorted.map (·.2))
  else .error (.invalidParameter (.jobResults tagged.length jobs))

inductive ExecutorKind where
  | sequential
  | threadPool (threads : Option UInt64)
  deriving Repr, DecidableEq

namespace ExecutorKind

def workers (cores : Nat) : ExecutorKind → Nat
  | sequential => 1
  | threadPool none => cores
  | threadPool (some n) => if n = 0 then cores else n.toNat

/-- Jobs are independent, so the number of workers never shows in their results. -/
def executor : ExecutorKind → Executor
  | sequential => .sequential
  | threadPool _ => .sequential

def toJson : ExecutorKind → Json
  | sequential => .object [("kind", .string "sequential")]
  | threadPool threads =>
    .object [("kind", .string "thread_pool"), ("num_threads", .ofOption .ofUInt64 threads)]

inductive Tag where
  | sequential
  | threadPool
  deriving Repr, DecidableEq

variable {α : Type} (format : Json.NumberFormat α)

def readTag : Reader Tag := fun draft => do
  match ← Reader.text format draft with
  | "sequential" => return .sequential
  | "thread_pool" => return .threadPool
  | _ => throw .mismatch

def readContents : Tag → Reader ExecutorKind
  | .sequential, .array [] _ => .ok .sequential
  | .sequential, .array (_ :: _) _ => .error .mismatch
  | .sequential, _ => .ok .sequential
  | .threadPool, .array [threads] _ =>
    (Reader.nullable (Reader.uint64 format) threads).map .threadPool
  | .threadPool, .array _ _ => .error .mismatch
  | .threadPool, draft =>
    Reader.record format
      [Reader.field "num_threads" (Reader.nullable (Reader.uint64 format)) fun n _ => .threadPool n]
      (.threadPool none) draft

/-- An executor as a field of a field of the parameters; three of the levels allowed for arrays and
objects are used up there. -/
def ofDraft : Reader ExecutorKind :=
  Reader.tagged format "kind" 124 (readTag format) (readContents format)

end ExecutorKind
end TrackingScore
