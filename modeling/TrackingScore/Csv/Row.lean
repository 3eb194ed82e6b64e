import TrackingScore.Csv.Position
import TrackingScore.Text.Ascii

/-!
Comma separated text as rows of fields, all of them bytes. A row ends at a carriage return or a
line feed; empty lines are no rows. A field that starts with a double quote may hold commas and
line ends; a quote is doubled inside it, and what follows the closing quote is taken as it is.
-/

namespace TrackingScore.Csv

open Text (ascii)

structure Row where
  /-- Where the reader stood before the row, and before the blank lines in front of it. -/
  position : Position
  fields : List (List UInt8)
  deriving Repr, DecidableEq

def isLineEnd (b : UInt8) : Bool := b = ascii '\r' || b = ascii '\n'

inductive FieldState where
  | start
  | plain
  | quoted
  | quoteSeen
  deriving Repr, DecidableEq

inductive Step where
  | keep (state : FieldState)
  | drop (state : FieldState)
  | nextField
  | endRow
  deriving Repr, DecidableEq

def unquotedStep (b : UInt8) : Step :=
  if b = ascii ',' then .nextField else if isLineEnd b then .endRow else .keep .plain

def step : FieldState → UInt8 → Step
  | .start, b => if b = ascii '"' then .drop .quoted else unquotedStep b
  | .plain, b => unquotedStep b
  | .quoted, b => if b = ascii '"' then .drop .quoteSeen else .keep .quoted
  | .quoteSeen, b => if b = ascii '"' then .keep .quoted else unquotedStep b

def consByte (b : UInt8) : List (List UInt8) → List (List UInt8)
  | [] => [[b]]
  | field :: fields => (b :: field) :: fields

def rowSize : FieldState → List UInt8 → Nat
  | _, [] => 0
  | state, b :: rest =>
    match step state b with
    | .keep state => rowSize state rest + 1
    | .drop state => rowSize state rest + 1
    | .nextField => rowSize .start rest + 1
    | .endRow => 1

theorem rowSize_pos (state : FieldState) (b : UInt8) (rest : List UInt8) :
    0 < rowSize state (b :: rest) := by
  simp only [rowSize]
  split <;> exact Nat.succ_pos _

def fields : FieldState → List UInt8 → List (List UInt8)
  | _, [] => [[]]
  | state, b :: rest =>
    match step state b with
    | .keep state => consByte b (fields state rest)
    | .drop state => fields state rest
    | .nextField => [] :: fields .start rest
    | .endRow => [[]]

/-- Number of bytes in front of the next row, `passed` among them. Blank lines and comments are no
rows; comments start with the mark and end with their line. A comment that the end of the text cuts
off is followed by a row without text. -/
def idleSize? (mark : Option UInt8) (inComment : Bool) (passed : Nat) : List UInt8 → Option Nat
  | [] => if inComment then some passed else none
  | b :: rest =>
    if inComment then idleSize? mark (b ≠ ascii '\n') (passed + 1) rest
    else if isLineEnd b then idleSize? mark false (passed + 1) rest
    else if mark = some b then idleSize? mark true (passed + 1) rest
    else some passed

theorem length_drop_rowSize {mark : Option UInt8} {bytes : List UInt8} {idle : Nat}
    (h : idleSize? mark false 0 bytes = some idle) :
    ((bytes.drop idle).drop (rowSize .start (bytes.drop idle))).length < bytes.length := by
  have hbytes : bytes ≠ [] := fun hnil => by simp [hnil, idleSize?] at h
  have hlength := List.length_pos_iff.2 hbytes
  rcases htext : bytes.drop idle with _ | ⟨b, rest⟩
  · simpa using hlength
  · have hdrop := congrArg List.length htext
    have hsize := rowSize_pos .start b rest
    simp only [List.length_drop, List.length_cons] at hdrop ⊢
    omega

def Position.advance (p : Position) (passed : List UInt8) : Position :=
  ⟨p.byte + passed.length, p.line + passed.count (ascii '\n'), p.record + 1⟩

def rowsFrom (mark : Option UInt8) (position : Position) (bytes : List UInt8) : List Row :=
  match _h : idleSize? mark false 0 bytes with
  | some idle =>
    let text := bytes.drop idle
    let size := rowSize .start text
    ⟨position, fields .start (text.take size)⟩ ::
      rowsFrom mark (position.advance (bytes.take (idle + size))) (text.drop size)
  | none => []
termination_by bytes.length
decreasing_by exact length_drop_rowSize _h

/-- The rows of a text. A byte order mark in front is passed over; lines that start with `mark`
are comments. -/
def rows (mark : Option UInt8) (bytes : List UInt8) : List Row :=
  match bytes with
  | 0xef :: 0xbb :: 0xbf :: rest =>
    match rowsFrom mark ⟨3, 1, 0⟩ rest with
    | [] => []
    | row :: rows => ⟨⟨0, 1, 0⟩, row.fields⟩ :: rows
  | _ => rowsFrom mark ⟨0, 1, 0⟩ bytes

end TrackingScore.Csv
