import TrackingScore.Json.Draft
import TrackingScore.Json.Value

/-!
Readers of typed values from drafts of JSON text. A record is an object whose unknown members are
passed over, or an array of its fields in order. The first fault in the order of the text is the
one reported; a value of the wrong kind is reported before what follows it is looked at.
-/

namespace TrackingScore.Json

/-- How numbers of a type are written, and what a numeral is read as, if it is not too large. -/
structure NumberFormat (α : Type) where
  write : α → Json
  read : Numeral → Option α

def binary64 : NumberFormat Float := ⟨ofFloat, Numeral.toFloat?⟩

/-- A value of some type, or the first fault met in looking for it. -/
abbrev Reader (σ : Type) := Draft → Except Fault σ

namespace Reader

def ended (passed : Option Fault) : Except Fault Unit :=
  match passed with
  | none => .ok ()
  | some fault => .error fault

variable {α σ τ : Type} (format : NumberFormat α)

def reads (n : Numeral) : Bool := n.integer?.isSome || (format.read n).isSome

/-- The fault of a value of a kind that was not wanted. A number or text is read in full first. -/
def refuse : Reader σ
  | .number (.ok n) _ => if reads format n then .error .mismatch else .error .malformed
  | .number (.error fault) _ => .error fault
  | .text (.error fault) _ => .error fault
  | .broken fault => .error fault
  | _ => .error .mismatch

def number : Reader α
  | .number (.ok n) _ =>
    match format.read n with
    | some x => .ok x
    | none => .error .malformed
  | draft => refuse format draft

def integer (word? : Int → Option σ) : Reader σ
  | .number (.ok n) passed =>
    match n.integer? with
    | some i =>
      match word? i with
      | some word => .ok word
      | none => .error .mismatch
    | none => refuse format (.number (.ok n) passed)
  | draft => refuse format draft

def int64 : Reader Int64 := integer format int64?

def uint64 : Reader UInt64 := integer format fun i => i.toNat?.bind uint64?

def boolean : Reader Bool
  | .bool value => .ok value
  | draft => refuse format draft

def text : Reader String
  | .text (.ok value) _ => .ok value
  | draft => refuse format draft

def nullable (read : Reader σ) : Reader (Option σ)
  | .null => .ok none
  | draft => (read draft).map some

def list (read : Reader σ) : Reader (List σ)
  | .array items passed => do
    let values ← items.mapM read
    ended passed
    return values
  | draft => refuse format draft

structure Field (σ : Type) where
  name : String
  update : Draft → σ → Except Fault σ

def field (name : String) (read : Reader τ) (put : τ → σ → σ) : Field σ :=
  ⟨name, fun draft record => (read draft).map (put · record)⟩

def readMembers (fields : List (Field σ)) (seen : List String) (record : σ) :
    List (Except Fault String × Draft) → Except Fault σ
  | [] => .ok record
  | (key, value) :: members => do
    let name ← key
    match fields.find? (·.name = name) with
    | none =>
      ended value.fault?
      readMembers fields seen record members
    | some field =>
      if name ∈ seen then throw .mismatch
      else readMembers fields (name :: seen) (← field.update value record) members

/-- Reads the items of an array as fields in order; there may be fewer items than fields. -/
def readItems (record : σ) : List (Field σ) → List Draft → Except Fault σ
  | field :: fields, item :: items => do readItems (← field.update item record) fields items
  | [], _ :: _ => .error .malformed
  | _, [] => .ok record

def record (fields : List (Field σ)) (start : σ) : Reader σ
  | .object members passed => do
    let result ← readMembers fields [] start members
    ended passed
    return result
  | .array items passed => do
    let result ← readItems start fields items
    ended passed
    return result
  | draft => refuse format draft

/-- A record that is complete only if enough of its fields are there. -/
def required (fields : List (Field σ)) (start : σ) (complete : σ → Option τ) : Reader τ :=
  fun draft => do
    match complete (← record format fields start draft) with
    | some result => return result
    | none => throw .mismatch

mutual

/-- Reads a value without use, down to `depth` levels of arrays and objects. -/
def settle (depth : Nat) : Draft → Except Fault Unit
  | .null => .ok ()
  | .bool _ => .ok ()
  | .number (.ok n) _ => if reads format n then .ok () else .error .malformed
  | .number (.error fault) _ => .error fault
  | .text (.ok _) _ => .ok ()
  | .text (.error fault) _ => .error fault
  | .array items passed =>
    match depth with
    | 0 => .error .malformed
    | depth + 1 => do
      settleItems depth items
      ended passed
  | .object members passed =>
    match depth with
    | 0 => .error .malformed
    | depth + 1 => do
      settleMembers depth members
      ended passed
  | .broken fault => .error fault

def settleItems (depth : Nat) : List Draft → Except Fault Unit
  | [] => .ok ()
  | item :: items => do
    settle depth item
    settleItems depth items

def settleMembers (depth : Nat) : List (Except Fault String × Draft) → Except Fault Unit
  | [] => .ok ()
  | (key, value) :: members => do
    let _ ← key
    settle depth value
    settleMembers depth members

end

/-- The draft itself, if every part of it can be read. -/
def whole (depth : Nat) : Reader Draft := fun draft => do
  settle format depth draft
  return draft

def readTag (tag : String) (kind : Reader τ) (depth : Nat) (found : Option τ) :
    List (Except Fault String × Draft) → Except Fault (Option τ)
  | [] => .ok found
  | (key, value) :: members => do
    let name ← key
    if name = tag then
      match found with
      | some _ => throw .mismatch
      | none => readTag tag kind depth (some (← kind value)) members
    else
      settle format depth value
      readTag tag kind depth found members

/-- One of several records, told apart by the member `tag`. Its other members are read after the
whole of the object, and so are the items of an array after the first, which is the tag. -/
def tagged (tag : String) (depth : Nat) (kind : Reader τ) (contents : τ → Reader σ) : Reader σ
  | .object members passed => do
    let found ← readTag format tag kind depth none members
    ended passed
    match found with
    | none => throw .mismatch
    | some k => contents k (.object members none)
  | .array items passed =>
    match items with
    | [] => do
      ended passed
      throw .mismatch
    | first :: rest => do
      let k ← kind first
      settleItems format depth rest
      ended passed
      contents k (.array rest none)
  | draft => refuse format draft

end Reader

def read {σ : Type} (reader : Reader σ) (bytes : List UInt8) : Except Fault σ := do
  let (draft, rest) := Draft.ofBytes bytes
  let result ← reader draft
  if (Draft.dropSpace rest).isEmpty then return result else throw .malformed

end TrackingScore.Json
