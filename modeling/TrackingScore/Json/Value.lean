import TrackingScore.Decimal.Layout

/-!
JSON values and the two texts they are written as: compact, and indented by two spaces a level.
Numbers keep their spelling, and objects the order of their members.
-/

namespace TrackingScore

inductive Json where
  | null
  | bool (value : Bool)
  | number (spelling : String)
  | string (value : String)
  | array (items : List Json)
  | object (members : List (String × Json))

namespace Json

/-- A number has no text in JSON unless it is finite. -/
def ofFloat (x : Float) : Json :=
  if x.isFinite then .number (Decimal.json.text x) else .null

def ofInt (n : Int) : Json := .number (toString n)

def ofInt64 (n : Int64) : Json := ofInt n.toInt

def ofUInt64 (n : UInt64) : Json := ofInt n.toNat

def ofOption {σ : Type} (encode : σ → Json) : Option σ → Json
  | none => .null
  | some x => encode x

/-- Quotes, backslashes and control characters are escaped, nothing else. -/
def escapedChar (c : Char) : String :=
  if c = '"' then "\\\""
  else if c = '\\' then "\\\\"
  else if c = '\n' then "\\n"
  else if c = '\r' then "\\r"
  else if c = '\t' then "\\t"
  else if c = '\x08' then "\\b"
  else if c = '\x0c' then "\\f"
  else if c.toNat < 0x20 then
    "\\u00" ++ String.ofList [Nat.digitChar (c.toNat / 16), Nat.digitChar (c.toNat % 16)]
  else c.toString

def quoted (s : String) : String := "\"" ++ String.join (s.toList.map escapedChar) ++ "\""

mutual

def compact : Json → String
  | .null => "null"
  | .bool value => if value then "true" else "false"
  | .number spelling => spelling
  | .string value => quoted value
  | .array items => "[" ++ String.intercalate "," (compactItems items) ++ "]"
  | .object members => "\x7b" ++ String.intercalate "," (compactMembers members) ++ "\x7d"

def compactItems : List Json → List String
  | [] => []
  | item :: items => item.compact :: compactItems items

def compactMembers : List (String × Json) → List String
  | [] => []
  | (key, value) :: members => (quoted key ++ ":" ++ value.compact) :: compactMembers members

end

def lineAt (level : Nat) : String := "\n" ++ String.ofList (List.replicate (2 * level) ' ')

def block (level : Nat) (opening closing : String) (entries : List String) : String :=
  if entries.isEmpty then opening ++ closing
  else opening ++ lineAt (level + 1) ++ String.intercalate ("," ++ lineAt (level + 1)) entries ++
    lineAt level ++ closing

mutual

def indentedAt (level : Nat) : Json → String
  | .null => "null"
  | .bool value => if value then "true" else "false"
  | .number spelling => spelling
  | .string value => quoted value
  | .array items => block level "[" "]" (indentedItems (level + 1) items)
  | .object members => block level "\x7b" "\x7d" (indentedMembers (level + 1) members)

def indentedItems (level : Nat) : List Json → List String
  | [] => []
  | item :: items => item.indentedAt level :: indentedItems level items

def indentedMembers (level : Nat) : List (String × Json) → List String
  | [] => []
  | (key, value) :: members =>
    (quoted key ++ ": " ++ value.indentedAt level) :: indentedMembers level members

end

def indented (value : Json) : String := value.indentedAt 0

end Json
end TrackingScore
