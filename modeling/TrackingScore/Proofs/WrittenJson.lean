import Mathlib.Data.List.Forall2
import TrackingScore.Proofs.JsonText

/-!
The two forms values are written in are texts of them, if their numbers are spelled as numbers. Two
values with one compact form are therefore read alike.
-/

namespace TrackingScore.Json

open Text (ascii)
open Text.Utf8 (encode)

/-! ## Entries with commas between them -/

section entries

variable {gap gap' : List UInt8}

theorem Spelled.gap_append {json : Json} {text : List UInt8} (h : Spelled json text)
    (hgap : Space gap) : Spelled json (gap ++ text) := by
  induction gap with
  | nil => exact h
  | cons b gap ih =>
    exact .space (hgap b List.mem_cons_self) (ih fun d hd => hgap d (List.mem_cons_of_mem _ hd))

theorem SpelledItems.gap_append {items : List Json} {bytes : List UInt8}
    (h : SpelledItems items bytes) (hgap : Space gap) : SpelledItems items (gap ++ bytes) := by
  cases h with
  | last h hclose =>
    rw [← List.append_assoc]
    exact .last (h.gap_append hgap) hclose
  | cons h hcomma hs =>
    rw [← List.append_assoc]
    exact .cons (h.gap_append hgap) hcomma hs

theorem SpelledMembers.gap_append {members : List (String × Json)} {bytes : List UInt8}
    (h : SpelledMembers members bytes) (hgap : Space gap) : SpelledMembers members (gap ++ bytes) := by
  induction gap with
  | nil => exact h
  | cons b gap ih =>
    exact .space (hgap b List.mem_cons_self) (ih fun d hd => hgap d (List.mem_cons_of_mem _ hd))

theorem space_nil : Space [] := fun _ h => absurd h List.not_mem_nil

theorem spelledItems_intercalate (hgap : Space gap) (hgap' : Space gap') {items : List Json}
    {texts : List (List UInt8)} (h : List.Forall₂ Spelled items texts) (hne : items ≠ []) :
    SpelledItems items ((ascii ',' :: gap).intercalate texts ++ (gap' ++ [ascii ']'])) := by
  induction h with
  | nil => exact absurd rfl hne
  | cons hitem hrest ih =>
    cases hrest with
    | nil =>
      rw [List.intercalate_singleton]
      exact .last hitem hgap'
    | cons hnext hrest =>
      have hs := (ih (List.cons_ne_nil _ _)).gap_append hgap
      rw [List.intercalate_cons_cons]
      simpa using SpelledItems.cons hitem space_nil hs

def SpelledMember (member : String × Json) (bytes : List UInt8) : Prop :=
  ∃ name text, SpelledText member.1.toList name ∧ Spelled member.2 text ∧
    bytes = ascii '"' :: (name ++ ascii ':' :: text)

theorem spelledMembers_intercalate (hgap : Space gap) (hgap' : Space gap')
    {members : List (String × Json)} {texts : List (List UInt8)}
    (h : List.Forall₂ SpelledMember members texts) (hne : members ≠ []) :
    SpelledMembers members ((ascii ',' :: gap).intercalate texts ++ (gap' ++ [ascii '\x7d'])) := by
  induction h with
  | nil => exact absurd rfl hne
  | cons hmember hrest ih =>
    obtain ⟨name, text, hname, htext, rfl⟩ := hmember
    cases hrest with
    | nil =>
      rw [List.intercalate_singleton]
      simpa using SpelledMembers.last hname space_nil htext hgap'
    | cons hnext hrest =>
      have hs := (ih (List.cons_ne_nil _ _)).gap_append hgap
      rw [List.intercalate_cons_cons]
      simpa using SpelledMembers.cons hname space_nil htext space_nil hs

end entries

/-! ## Written values -/

mutual

def spellings : Json → List String
  | .number spelling => [spelling]
  | .array items => spellingsOfItems items
  | .object members => spellingsOfMembers members
  | _ => []

def spellingsOfItems : List Json → List String
  | [] => []
  | item :: items => spellings item ++ spellingsOfItems items

def spellingsOfMembers : List (String × Json) → List String
  | [] => []
  | (_, value) :: members => spellings value ++ spellingsOfMembers members

end

def Numbers (spellings : List String) : Prop := ∀ s ∈ spellings, ∃ n : NumberText, s = n.string

@[simp] theorem numbers_nil : Numbers [] := fun _ h => absurd h List.not_mem_nil

@[simp] theorem numbers_append {ss ts : List String} :
    Numbers (ss ++ ts) ↔ Numbers ss ∧ Numbers ts :=
  List.forall_mem_append

@[simp] theorem numbers_cons {n : NumberText} {ss : List String} :
    Numbers (n.string :: ss) ↔ Numbers ss :=
  List.forall_mem_cons.trans (and_iff_right ⟨n, rfl⟩)

theorem numbers_string (n : NumberText) : Numbers [n.string] := numbers_cons.2 numbers_nil

@[simp] theorem numbers_ofInt (i : Int) : Numbers (ofInt i).spellings := by
  rw [ofInt, ← NumberText.string_ofInt]
  exact numbers_string _

@[simp] theorem numbers_ofInt64 (t : Int64) : Numbers (ofInt64 t).spellings := numbers_ofInt t.toInt

@[simp] theorem numbers_ofUInt64 (n : UInt64) : Numbers (ofUInt64 n).spellings := numbers_ofInt n.toNat

theorem numbers_text (s : String) : Numbers (Json.string s).spellings := numbers_nil

theorem numbers_ofOption {σ : Type} {encode : σ → Json} (h : ∀ x, Numbers (encode x).spellings)
    (o : Option σ) : Numbers (ofOption encode o).spellings := by
  cases o with
  | none => exact numbers_nil
  | some x => exact h x

def bytes (text : String) : List UInt8 := encode text.toList

theorem bytes_append (s t : String) : bytes (s ++ t) = bytes s ++ bytes t := by
  rw [bytes, String.toList_append, Text.Utf8.encode_append]
  rfl

theorem bytes_intercalate (separator : String) (entries : List String) :
    bytes (String.intercalate separator entries) = (bytes separator).intercalate (entries.map bytes) := by
  rw [bytes, String.toList_intercalate, Text.Utf8.encode_intercalate, List.map_map]
  rfl

theorem spelled_number {s : String} (h : Numbers [s]) : Spelled (.number s) (bytes s) := by
  obtain ⟨n, rfl⟩ := h s (List.mem_singleton_self s)
  rw [bytes, NumberText.string, String.toList_ofList]
  exact .number n

theorem spelled_quoted (s : String) : Spelled (.string s) (bytes (quoted s)) := by
  rw [bytes, encode_quoted]
  exact .string (spelledText_escaped s.toList)

theorem spelledMember_quoted {key mark entry : String} {gap : List UInt8} {value : Json}
    (hmark : bytes mark = ascii ':' :: gap) (hgap : Space gap) (h : Spelled value (bytes entry)) :
    SpelledMember (key, value) (bytes (quoted key ++ mark ++ entry)) := by
  refine ⟨_, _, spelledText_escaped key.toList, h.gap_append hgap, ?_⟩
  rw [bytes_append, bytes_append, hmark, bytes, encode_quoted]
  simp

theorem spelled_array {gap gap' : List UInt8} (hgap : Space gap) (hgap' : Space gap')
    {items : List Json} {entries : List String}
    (h : List.Forall₂ (fun item entry => Spelled item (bytes entry)) items entries) (hne : items ≠ []) :
    Spelled (.array items) (ascii '[' :: (gap ++
      ((ascii ',' :: gap).intercalate (entries.map bytes) ++ (gap' ++ [ascii ']'])))) :=
  .array ((spelledItems_intercalate hgap hgap' (List.forall₂_map_right_iff.2 h) hne).gap_append hgap)

theorem spelled_object {gap gap' : List UInt8} (hgap : Space gap) (hgap' : Space gap')
    {members : List (String × Json)} {entries : List String}
    (h : List.Forall₂ (fun member entry => SpelledMember member (bytes entry)) members entries)
    (hne : members ≠ []) :
    Spelled (.object members) (ascii '\x7b' :: (gap ++
      ((ascii ',' :: gap).intercalate (entries.map bytes) ++ (gap' ++ [ascii '\x7d'])))) :=
  .object
    ((spelledMembers_intercalate hgap hgap' (List.forall₂_map_right_iff.2 h) hne).gap_append hgap)

mutual

theorem spelled_compact : ∀ json : Json, Numbers json.spellings → Spelled json (bytes json.compact)
  | .null, _ => .null
  | .bool true, _ => .true
  | .bool false, _ => .false
  | .number _, h => spelled_number h
  | .string s, _ => spelled_quoted s
  | .array [], _ => .emptyArray space_nil
  | .array (item :: items), h => by
    have hentries := forall₂_compactItems (item :: items) h
    have htext := spelled_array space_nil space_nil hentries (List.cons_ne_nil _ _)
    rw [compact, bytes_append, bytes_append, bytes_intercalate, List.append_assoc]
    exact htext
  | .object [], _ => .emptyObject space_nil
  | .object (member :: members), h => by
    have hentries := forall₂_compactMembers (member :: members) h
    have htext := spelled_object space_nil space_nil hentries (List.cons_ne_nil _ _)
    rw [compact, bytes_append, bytes_append, bytes_intercalate, List.append_assoc]
    exact htext

theorem forall₂_compactItems : ∀ items : List Json, Numbers (spellingsOfItems items) →
    List.Forall₂ (fun item entry => Spelled item (bytes entry)) items (compactItems items)
  | [], _ => .nil
  | item :: items, h =>
    have h := numbers_append.1 h
    .cons (spelled_compact item h.1) (forall₂_compactItems items h.2)

theorem forall₂_compactMembers : ∀ members : List (String × Json),
    Numbers (spellingsOfMembers members) →
      List.Forall₂ (fun member entry => SpelledMember member (bytes entry)) members
        (compactMembers members)
  | [], _ => .nil
  | (_, value) :: members, h =>
    have h := numbers_append.1 h
    .cons (spelledMember_quoted rfl space_nil (spelled_compact value h.1))
      (forall₂_compactMembers members h.2)

end

theorem space_lineAt (level : Nat) : Space (bytes (lineAt level)) := by
  have hspaces : encode (List.replicate (2 * level) ' ') =
      List.replicate (2 * level) (ascii ' ') := by
    induction 2 * level with
    | zero => rfl
    | succ n ih =>
      rw [List.replicate_succ, List.replicate_succ, Text.Utf8.encode_cons_ascii (by decide), ih]
  intro b hb
  rw [lineAt, bytes_append, bytes, bytes, String.toList_ofList, String.toList_ofList, hspaces] at hb
  rcases List.mem_append.1 hb with hb | hb
  · rw [List.mem_singleton.1 hb]
    decide
  · rw [List.eq_of_mem_replicate hb]
    decide

theorem bytes_block_nil (level : Nat) (opening closing : String) :
    bytes (block level opening closing []) = bytes opening ++ bytes closing :=
  bytes_append opening closing

theorem bytes_block {level : Nat} {opening closing : String} {entries : List String}
    (hne : entries ≠ []) :
    bytes (block level opening closing entries) = bytes opening ++ (bytes (lineAt (level + 1)) ++
      ((ascii ',' :: bytes (lineAt (level + 1))).intercalate (entries.map bytes) ++
        (bytes (lineAt level) ++ bytes closing))) := by
  have hseparator : bytes ("," ++ lineAt (level + 1)) = ascii ',' :: bytes (lineAt (level + 1)) :=
    bytes_append _ _
  rw [block, if_neg (by simpa using hne)]
  simp only [bytes_append, bytes_intercalate, List.append_assoc]
  rw [← bytes_append, hseparator]

mutual

theorem spelled_indentedAt (level : Nat) : ∀ json : Json, Numbers json.spellings →
    Spelled json (bytes (json.indentedAt level))
  | .null, _ => by rw [indentedAt]; exact .null
  | .bool true, _ => by rw [indentedAt]; exact .true
  | .bool false, _ => by rw [indentedAt]; exact .false
  | .number _, h => by rw [indentedAt]; exact spelled_number h
  | .string s, _ => by rw [indentedAt]; exact spelled_quoted s
  | .array [], _ => by
    rw [indentedAt, indentedItems, bytes_block_nil]
    exact .emptyArray space_nil
  | .array (item :: items), h => by
    have hentries := forall₂_indentedItems (level + 1) (item :: items) h
    have hne : indentedItems (level + 1) (item :: items) ≠ [] := by simp [indentedItems]
    rw [indentedAt, bytes_block hne]
    exact spelled_array (space_lineAt _) (space_lineAt _) hentries (List.cons_ne_nil _ _)
  | .object [], _ => by
    rw [indentedAt, indentedMembers, bytes_block_nil]
    exact .emptyObject space_nil
  | .object ((key, value) :: members), h => by
    have hentries := forall₂_indentedMembers (level + 1) ((key, value) :: members) h
    have hne : indentedMembers (level + 1) ((key, value) :: members) ≠ [] := by
      simp [indentedMembers]
    rw [indentedAt, bytes_block hne]
    exact spelled_object (space_lineAt _) (space_lineAt _) hentries (List.cons_ne_nil _ _)

theorem forall₂_indentedItems (level : Nat) : ∀ items : List Json,
    Numbers (spellingsOfItems items) →
      List.Forall₂ (fun item entry => Spelled item (bytes entry)) items (indentedItems level items)
  | [], _ => by rw [indentedItems]; exact .nil
  | item :: items, h => by
    have h := numbers_append.1 h
    rw [indentedItems]
    exact .cons (spelled_indentedAt level item h.1) (forall₂_indentedItems level items h.2)

theorem forall₂_indentedMembers (level : Nat) : ∀ members : List (String × Json),
    Numbers (spellingsOfMembers members) →
      List.Forall₂ (fun member entry => SpelledMember member (bytes entry)) members
        (indentedMembers level members)
  | [], _ => by rw [indentedMembers]; exact .nil
  | (_, value) :: members, h => by
    have h := numbers_append.1 h
    have hgap : Space [ascii ' '] := by decide
    rw [indentedMembers]
    exact .cons (spelledMember_quoted rfl hgap (spelled_indentedAt level value h.1))
      (forall₂_indentedMembers level members h.2)

end

/-- Values with one compact form are read alike. -/
theorem draft_eq_of_compact_eq {json other : Json} (h : Numbers json.spellings)
    (hother : Numbers other.spellings) (heq : json.compact = other.compact) :
    draft json = draft other := by
  have hread := read_spelled (fun draft => .ok draft) (spelled_compact json h) space_nil
  have hread' := read_spelled (fun draft => .ok draft) (spelled_compact other hother) space_nil
  rw [heq, hread'] at hread
  exact (Except.ok.inj hread).symm

end TrackingScore.Json
