import TrackingScore.Json.Decode
import TrackingScore.Proofs.JsonNumber

/-!
Texts of JSON values, with any white space and any escapes. The draft of such a text is that of the
value, and nothing of what stands behind it is touched.
-/

namespace TrackingScore.Json

open Draft (escape? readUnit readCodePoint readLowHalf textBytes passText)
open Text (ascii)
open Text.Utf8 (encode encodeChar)

/-! ## Texts in quotes -/

/-- How a character is spelled between quotes: as itself, by the letter of its escape, by its code, or
by the codes of two halves. -/
inductive SpelledChar : Char → List UInt8 → Prop where
  | plain {c : Char} (hquote : c ≠ '"') (hslash : c ≠ '\\') (h : 0x20 ≤ c.toNat) :
      SpelledChar c (encodeChar c)
  | escape {c : Char} {letter : UInt8} (hc : c.toNat < 0x80) (h : escape? letter = some (ascii c)) :
      SpelledChar c [ascii '\\', letter]
  | code {c : Char} {digits : List UInt8} (h : readUnit digits = .ok (c.toNat, [])) :
      SpelledChar c (ascii '\\' :: ascii 'u' :: digits)
  | halves {c : Char} {first second : List UInt8} {high low : Nat}
      (hfirst : readUnit first = .ok (high, [])) (hhigh : 0xd800 ≤ high ∧ high < 0xdc00)
      (hsecond : readUnit second = .ok (low, [])) (hlow : 0xdc00 ≤ low ∧ low ≤ 0xdfff)
      (hc : c.toNat = 0x10000 + (high - 0xd800) * 0x400 + (low - 0xdc00)) :
      SpelledChar c (ascii '\\' :: ascii 'u' :: first ++ ascii '\\' :: ascii 'u' :: second)

inductive SpelledText : List Char → List UInt8 → Prop where
  | nil : SpelledText [] [ascii '"']
  | cons {c : Char} {cs : List Char} {front bytes : List UInt8} (hc : SpelledChar c front)
      (h : SpelledText cs bytes) : SpelledText (c :: cs) (front ++ bytes)

def TextReads (bytes out rest : List UInt8) : Prop :=
  ∀ fuel, bytes.length < fuel → textBytes fuel bytes = .ok out ∧ passText fuel bytes = .ok rest

section texts

variable {bytes out rest : List UInt8}

theorem textReads_quote (rest : List UInt8) : TextReads (ascii '"' :: rest) [] rest := by
  intro fuel hfuel
  obtain ⟨fuel, rfl⟩ := Nat.exists_eq_add_one_of_ne_zero (Nat.ne_zero_of_lt hfuel)
  exact ⟨rfl, rfl⟩

theorem TextReads.plain_cons {b : UInt8} (hquote : b ≠ ascii '"') (hcontrol : ¬b < 0x20)
    (hslash : b ≠ ascii '\\') (h : TextReads bytes out rest) :
    TextReads (b :: bytes) (b :: out) rest := by
  intro fuel hfuel
  obtain ⟨fuel, rfl⟩ := Nat.exists_eq_add_one_of_ne_zero (Nat.ne_zero_of_lt hfuel)
  obtain ⟨hread, hpass⟩ := h fuel (by simpa using hfuel)
  simp [textBytes, passText, hquote, hcontrol, hslash, hread, hpass, Except.map]

theorem TextReads.plain_append {front : List UInt8}
    (hfront : ∀ b ∈ front, b ≠ ascii '"' ∧ ¬b < 0x20 ∧ b ≠ ascii '\\') (h : TextReads bytes out rest) :
    TextReads (front ++ bytes) (front ++ out) rest := by
  induction front with
  | nil => exact h
  | cons b front ih =>
    obtain ⟨hquote, hcontrol, hslash⟩ := hfront b List.mem_cons_self
    exact (ih fun d hd => hfront d (List.mem_cons_of_mem _ hd)).plain_cons hquote hcontrol hslash

theorem readUnit_append {digits : List UInt8} {n : Nat} (h : readUnit digits = .ok (n, []))
    (rest : List UInt8) : readUnit (digits ++ rest) = .ok (n, rest) := by
  unfold readUnit at h
  split at h
  · rename_i a b c d tail
    split at h
    · rename_i ha hb hc hd
      simp only [Except.ok.injEq, Prod.mk.injEq] at h
      obtain ⟨rfl, rfl⟩ := h
      simp [readUnit, ha, hb, hc, hd]
    · cases h
  · cases h

theorem readCodePoint_append {digits : List UInt8} {c : Char}
    (h : readUnit digits = .ok (c.toNat, [])) (rest : List UInt8) :
    readCodePoint (digits ++ rest) = .ok (c.toNat, rest) := by
  have hvalid : c.toNat < 0xd800 ∨ 0xdfff < c.toNat := c.valid.imp_right And.left
  simp [readCodePoint, readUnit_append h, bind, Except.bind, hvalid, pure, Except.pure]

theorem readCodePoint_halves {first second : List UInt8} {high low : Nat}
    (hfirst : readUnit first = .ok (high, [])) (hhigh : 0xd800 ≤ high ∧ high < 0xdc00)
    (hsecond : readUnit second = .ok (low, [])) (hlow : 0xdc00 ≤ low ∧ low ≤ 0xdfff)
    (rest : List UInt8) :
    readCodePoint (first ++ ascii '\\' :: ascii 'u' :: (second ++ rest)) =
      .ok (0x10000 + (high - 0xd800) * 0x400 + (low - 0xdc00), rest) := by
  have hunit : ¬(high < 0xd800 ∨ 0xdfff < high) := by omega
  have hhalf : ¬(low < 0xdc00 ∨ 0xdfff < low) := by omega
  simp [readCodePoint, readLowHalf, readUnit_append hfirst, readUnit_append hsecond, bind,
    Except.bind, hunit, hhigh.2, hhalf, pure, Except.pure]

theorem TextReads.escape_cons {letter b : UInt8} (hletter : escape? letter = some b)
    (h : TextReads bytes out rest) :
    TextReads (ascii '\\' :: letter :: bytes) (b :: out) rest := by
  have hcode : letter ≠ ascii 'u' := by
    rintro rfl
    cases hletter
  intro fuel hfuel
  obtain ⟨fuel, rfl⟩ := Nat.exists_eq_add_one_of_ne_zero (Nat.ne_zero_of_lt hfuel)
  obtain ⟨hread, hpass⟩ := h fuel (by simp at hfuel; omega)
  have hslash : ascii '\\' ≠ ascii '"' ∧ ¬ascii '\\' < 0x20 := by decide
  simp [textBytes, passText, hslash, hcode, hletter, hread, hpass, Except.map]

theorem TextReads.code_append {front : List UInt8} {n : Nat}
    (hread : readCodePoint (front ++ bytes) = .ok (n, bytes))
    (hpass : ∀ fuel, (front ++ bytes).length < fuel →
      passText (fuel + 1) (ascii '\\' :: ascii 'u' :: (front ++ bytes)) = .ok rest)
    (h : TextReads bytes out rest) :
    TextReads (ascii '\\' :: ascii 'u' :: (front ++ bytes)) (Text.Utf8.encodeCodePoint n ++ out) rest := by
  intro fuel hfuel
  obtain ⟨fuel, rfl⟩ := Nat.exists_eq_add_one_of_ne_zero (Nat.ne_zero_of_lt hfuel)
  have hlength : (front ++ bytes).length < fuel := by simp at hfuel ⊢; omega
  refine ⟨?_, hpass fuel hlength⟩
  obtain ⟨htext, -⟩ := h fuel (by simp at hlength; omega)
  have hslash : ascii '\\' ≠ ascii '"' ∧ ¬ascii '\\' < 0x20 := by decide
  simp [textBytes, hslash, hread, htext, bind, Except.bind, pure, Except.pure]

theorem passText_code {digits tail : List UInt8} {n fuel : Nat}
    (h : readUnit digits = .ok (n, [])) :
    passText (fuel + 1) (ascii '\\' :: ascii 'u' :: (digits ++ tail)) = passText fuel tail := by
  have hslash : ascii '\\' ≠ ascii '"' ∧ ¬ascii '\\' < 0x20 := by decide
  simp [passText, hslash, readUnit_append h, bind, Except.bind]

theorem TextReads.spelledChar {c : Char} {front : List UInt8} (hc : SpelledChar c front)
    (h : TextReads bytes out rest) : TextReads (front ++ bytes) (encodeChar c ++ out) rest := by
  cases hc with
  | plain hquote hslash hspace =>
    refine h.plain_append fun b hb => ⟨?_, fun hcontrol => ?_, ?_⟩
    · rintro rfl
      exact hquote (Char.toNat_inj.1 (Text.Utf8.toNat_eq_of_mem_encodeChar (by decide) hb))
    · have hcode : b.toNat < 0x20 := UInt8.lt_iff_toNat_lt.1 hcontrol
      have hsame := Text.Utf8.toNat_eq_of_mem_encodeChar (by omega) hb
      omega
    · rintro rfl
      exact hslash (Char.toNat_inj.1 (Text.Utf8.toNat_eq_of_mem_encodeChar (by decide) hb))
  | escape hc hletter =>
    rw [Text.Utf8.encodeChar_ascii hc]
    exact h.escape_cons hletter
  | code hunit =>
    refine h.code_append (readCodePoint_append hunit bytes) fun fuel hfuel => ?_
    rw [passText_code hunit]
    exact (h fuel (by simp at hfuel; omega)).2
  | @halves first second _ _ hfirst hhigh hsecond hlow hc =>
    have hread := readCodePoint_halves hfirst hhigh hsecond hlow bytes
    have happend : first ++ ascii '\\' :: ascii 'u' :: (second ++ bytes) =
        (first ++ ascii '\\' :: ascii 'u' :: second) ++ bytes := by simp
    rw [happend, ← hc] at hread
    rw [List.append_assoc, List.cons_append, List.cons_append, List.cons_append, List.cons_append,
      happend]
    refine h.code_append hread fun fuel hfuel => ?_
    obtain ⟨fuel, rfl⟩ := Nat.exists_eq_add_one_of_ne_zero (Nat.ne_zero_of_lt hfuel)
    rw [← happend, passText_code hfirst, passText_code hsecond]
    exact (h fuel (by simp at hfuel; omega)).2

theorem textReads_spelledText {cs : List Char} (h : SpelledText cs bytes) (rest : List UInt8) :
    TextReads (bytes ++ rest) (encode cs) rest := by
  induction h with
  | nil => exact textReads_quote rest
  | cons hc h ih =>
    rw [List.append_assoc]
    exact ih.spelledChar hc

theorem readText_spelledText {s : String} (h : SpelledText s.toList bytes) (rest : List UInt8) :
    Draft.readText (bytes ++ rest) = .ok s ∧
      passText ((bytes ++ rest).length + 1) (bytes ++ rest) = .ok rest := by
  obtain ⟨hread, hpass⟩ := textReads_spelledText h rest _ (Nat.lt_add_one _)
  refine ⟨?_, hpass⟩
  simp only [Draft.readText, hread, bind, Except.bind, Text.Utf8.decode_encode, pure, Except.pure,
    String.ofList_toList]

theorem textAt_spelledText {s : String} (h : SpelledText s.toList bytes) (rest : List UInt8) :
    Draft.textAt (bytes ++ rest) = (.text (.ok s) none, .ok rest) := by
  obtain ⟨hread, hpass⟩ := readText_spelledText h rest
  rw [Draft.textAt, hread, hpass]
  rfl

theorem readUnit_control : ∀ n < 0x20, readUnit (encode
    ['0', '0', Nat.digitChar (n / 16), Nat.digitChar (n % 16)]) = .ok (n, []) := by decide

theorem spelledChar_escapedChar (c : Char) : SpelledChar c (encode (escapedChar c).toList) := by
  unfold escapedChar
  split_ifs with hquote hslash hfeed hreturn htab hback hform hcontrol
  · subst hquote; exact .escape (by decide) (by decide)
  · subst hslash; exact .escape (by decide) (by decide)
  · subst hfeed; exact .escape (by decide) (by decide)
  · subst hreturn; exact .escape (by decide) (by decide)
  · subst htab; exact .escape (by decide) (by decide)
  · subst hback; exact .escape (by decide) (by decide)
  · subst hform; exact .escape (by decide) (by decide)
  · have htext : ("\\u00" ++ String.ofList [Nat.digitChar (c.toNat / 16),
          Nat.digitChar (c.toNat % 16)]).toList =
        '\\' :: 'u' :: ['0', '0', Nat.digitChar (c.toNat / 16), Nat.digitChar (c.toNat % 16)] := by
      rw [String.toList_append, String.toList_ofList, String.toList_ofList]
      rfl
    rw [htext]
    exact .code (readUnit_control c.toNat hcontrol)
  · have hplain : encode c.toString.toList = encodeChar c := by
      simp [Char.toString, encode]
    rw [hplain]
    exact .plain hquote hslash (not_lt.1 hcontrol)

theorem spelledText_escaped (cs : List Char) :
    SpelledText cs (encode (String.join (cs.map escapedChar)).toList ++ [ascii '"']) := by
  induction cs with
  | nil => exact .nil
  | cons c cs ih =>
    rw [List.map_cons, String.join_cons, String.toList_append, Text.Utf8.encode_append,
      List.append_assoc]
    exact .cons (spelledChar_escapedChar c) ih

theorem encode_quoted (s : String) :
    encode (quoted s).toList =
      ascii '"' :: (encode (String.join (s.toList.map escapedChar)).toList ++ [ascii '"']) := by
  rw [quoted, String.toList_append, String.toList_append, Text.Utf8.encode_append,
    Text.Utf8.encode_append]
  rfl

end texts

/-! ## Values -/

def numeralOf (spelling : String) : Except Fault Numeral :=
  (Draft.readNumber (encode spelling.toList)).map Prod.fst

theorem numeralOf_string (n : NumberText) : numeralOf n.string = .ok n.numeral := by
  have hends : NumberEnds [] := fun _ h => absurd h (Option.not_mem_none _)
  have hread := n.readNumber_encode hends
  rw [List.append_nil] at hread
  rw [numeralOf, NumberText.string, String.toList_ofList, hread]
  rfl

mutual

/-- What is read from a text of a value. -/
def draft : Json → Draft
  | .null => .null
  | .bool value => .bool value
  | .number spelling => .number (numeralOf spelling) none
  | .string value => .text (.ok value) none
  | .array items => .array (draftItems items) none
  | .object members => .object (draftMembers members) none

def draftItems : List Json → List Draft
  | [] => []
  | item :: items => draft item :: draftItems items

def draftMembers : List (String × Json) → List (Except Fault String × Draft)
  | [] => []
  | (key, value) :: members => (.ok key, draft value) :: draftMembers members

end

def Space (gap : List UInt8) : Prop := ∀ b ∈ gap, Draft.isSpace b = true

instance : DecidablePred Space := fun gap => List.decidableBAll _ gap

mutual

inductive Spelled : Json → List UInt8 → Prop where
  | space {json : Json} {b : UInt8} {text : List UInt8} (hb : Draft.isSpace b = true)
      (h : Spelled json text) : Spelled json (b :: text)
  | null : Spelled .null (encode ['n', 'u', 'l', 'l'])
  | true : Spelled (.bool true) (encode ['t', 'r', 'u', 'e'])
  | false : Spelled (.bool false) (encode ['f', 'a', 'l', 's', 'e'])
  | number (n : NumberText) : Spelled (.number n.string) (encode n.chars)
  | string {s : String} {bytes : List UInt8} (h : SpelledText s.toList bytes) :
      Spelled (.string s) (ascii '"' :: bytes)
  | emptyArray {gap : List UInt8} (hgap : Space gap) :
      Spelled (.array []) (ascii '[' :: (gap ++ [ascii ']']))
  | array {items : List Json} {bytes : List UInt8} (h : SpelledItems items bytes) :
      Spelled (.array items) (ascii '[' :: bytes)
  | emptyObject {gap : List UInt8} (hgap : Space gap) :
      Spelled (.object []) (ascii '\x7b' :: (gap ++ [ascii '\x7d']))
  | object {members : List (String × Json)} {bytes : List UInt8} (h : SpelledMembers members bytes) :
      Spelled (.object members) (ascii '\x7b' :: bytes)

inductive SpelledItems : List Json → List UInt8 → Prop where
  | last {item : Json} {text gap : List UInt8} (h : Spelled item text) (hgap : Space gap) :
      SpelledItems [item] (text ++ (gap ++ [ascii ']']))
  | cons {item : Json} {items : List Json} {text gap bytes : List UInt8} (h : Spelled item text)
      (hgap : Space gap) (hs : SpelledItems items bytes) :
      SpelledItems (item :: items) (text ++ (gap ++ ascii ',' :: bytes))

inductive SpelledMembers : List (String × Json) → List UInt8 → Prop where
  | space {members : List (String × Json)} {b : UInt8} {bytes : List UInt8}
      (hb : Draft.isSpace b = true) (h : SpelledMembers members bytes) : SpelledMembers members (b :: bytes)
  | last {key : String} {value : Json} {name gap text gap' : List UInt8}
      (hkey : SpelledText key.toList name) (hgap : Space gap) (h : Spelled value text)
      (hgap' : Space gap') : SpelledMembers [(key, value)]
        (ascii '"' :: (name ++ (gap ++ ascii ':' :: (text ++ (gap' ++ [ascii '\x7d'])))))
  | cons {key : String} {value : Json} {members : List (String × Json)}
      {name gap text gap' bytes : List UInt8} (hkey : SpelledText key.toList name)
      (hgap : Space gap) (h : Spelled value text) (hgap' : Space gap')
      (hs : SpelledMembers members bytes) : SpelledMembers ((key, value) :: members)
        (ascii '"' :: (name ++ (gap ++ ascii ':' :: (text ++ (gap' ++ ascii ',' :: bytes)))))

end

/-- What may stand behind a value: white space, or what ends or separates values. -/
def Delimited (rest : List UInt8) : Prop :=
  ∀ b ∈ rest.head?, Draft.isSpace b = true ∨ b = ascii ',' ∨ b = ascii ']' ∨ b = ascii '\x7d'

theorem Delimited.numberEnds {rest : List UInt8} (h : Delimited rest) : NumberEnds rest := by
  intro b hb
  have hmark := h b hb
  simp only [Draft.isSpace, Bool.or_eq_true, decide_eq_true_eq] at hmark
  rcases hmark with (((rfl | rfl) | rfl) | rfl) | rfl | rfl | rfl <;> decide

theorem delimited_gap {gap : List UInt8} (hgap : Space gap) {b : UInt8}
    (hb : b = ascii ',' ∨ b = ascii ']' ∨ b = ascii '\x7d') (rest : List UInt8) :
    Delimited (gap ++ b :: rest) := by
  intro d hd
  cases gap with
  | nil =>
    obtain rfl : b = d := by simpa using hd
    exact .inr hb
  | cons c gap =>
    obtain rfl : c = d := by simpa using hd
    exact .inl (hgap c List.mem_cons_self)

theorem dropSpace_gap {gap : List UInt8} (hgap : Space gap) {b : UInt8}
    (hb : Draft.isSpace b = false) (rest : List UInt8) :
    Draft.dropSpace (gap ++ b :: rest) = b :: rest := by
  rw [Draft.dropSpace, List.dropWhile_append_of_pos hgap, List.dropWhile_cons_of_neg (by simp [hb])]

theorem dropSpace_cons {b : UInt8} (hb : Draft.isSpace b = true) (bytes : List UInt8) :
    Draft.dropSpace (b :: bytes) = Draft.dropSpace bytes := by
  rw [Draft.dropSpace, List.dropWhile_cons_of_pos hb, ← Draft.dropSpace]

theorem dropSpace_start {b : UInt8} (hb : Draft.isSpace b = false) (bytes : List UInt8) :
    Draft.dropSpace (b :: bytes) = b :: bytes :=
  List.dropWhile_cons_of_neg (by simp [hb])

theorem exists_start_number (n : NumberText) :
    ∃ b tail, encode n.chars = b :: tail ∧ (b = ascii '-' ∨ Text.isDigitByte b = true) := by
  rw [NumberText.chars, NumberText.minus]
  cases n.negative with
  | true => exact ⟨_, _, Text.Utf8.encode_cons_ascii (by decide) _, .inl rfl⟩
  | false =>
    obtain ⟨c, tail, hc, htext⟩ :=
      exists_digit (encode (n.places ++ n.power)) n.whole_ne_nil n.isDigit_whole
    refine ⟨ascii c, tail, ?_, .inr (isDigitByte_ascii hc)⟩
    rw [if_neg (by decide), List.nil_append, Text.Utf8.encode_append, htext]

theorem start_ne {b d : UInt8} (hb : b = ascii '-' ∨ Text.isDigitByte b = true)
    (hd : d ≠ ascii '-' ∧ Text.isDigitByte d = false) : b ≠ d := by
  rintro rfl
  rcases hb with rfl | hb
  · exact hd.1 rfl
  · rw [hd.2] at hb
    cases hb

theorem isSpace_start {b : UInt8} (hb : b = ascii '-' ∨ Text.isDigitByte b = true) :
    Draft.isSpace b = false := by
  simp only [Draft.isSpace, Bool.or_eq_false_iff, decide_eq_false_iff_not]
  exact ⟨⟨⟨start_ne hb (by decide), start_ne hb (by decide)⟩, start_ne hb (by decide)⟩,
    start_ne hb (by decide)⟩

theorem valueAt_number (n : NumberText) {rest : List UInt8} (hrest : Delimited rest) (fuel : Nat) :
    Draft.valueAt (fuel + 1) (encode n.chars ++ rest) =
      (.number (.ok n.numeral) none, .ok rest) := by
  obtain ⟨b, tail, htext, hb⟩ := exists_start_number n
  have hread := n.readNumber_encode hrest.numberEnds
  have hquote : b ≠ ascii '"' := start_ne hb (by decide)
  have hbracket : b ≠ ascii '[' := start_ne hb (by decide)
  have hbrace : b ≠ ascii '\x7b' := start_ne hb (by decide)
  have hnull : b ≠ ascii 'n' := start_ne hb (by decide)
  have htrue : b ≠ ascii 't' := start_ne hb (by decide)
  have hfalse : b ≠ ascii 'f' := start_ne hb (by decide)
  have hstart : (decide (b = ascii '-') || Text.isDigitByte b) = true := by simpa using hb
  rw [htext, List.cons_append] at hread ⊢
  simp only [Draft.valueAt, dropSpace_start (isSpace_start hb), hquote, hbracket, hbrace, hnull,
    htrue, hfalse, hstart, if_true, if_false, Draft.numberAt, hread]

theorem exists_start_spelled (rest : List UInt8) : ∀ {json : Json} {text : List UInt8},
    Spelled json text → ∃ b tail, Draft.dropSpace (text ++ rest) = b :: tail ∧ b ≠ ascii ']'
  | _, _, .space hb h => by
    rw [List.cons_append, dropSpace_cons hb]
    exact exists_start_spelled rest h
  | _, _, .number n => by
    obtain ⟨b, tail, htext, hb⟩ := exists_start_number n
    rw [htext, List.cons_append, dropSpace_start (isSpace_start hb)]
    exact ⟨b, _, rfl, start_ne hb (by decide)⟩
  | _, _, .null => ⟨_, _, rfl, by decide⟩
  | _, _, .true => ⟨_, _, rfl, by decide⟩
  | _, _, .false => ⟨_, _, rfl, by decide⟩
  | _, _, .string _ => ⟨_, _, rfl, by decide⟩
  | _, _, .emptyArray _ => ⟨_, _, rfl, by decide⟩
  | _, _, .array _ => ⟨_, _, rfl, by decide⟩
  | _, _, .emptyObject _ => ⟨_, _, rfl, by decide⟩
  | _, _, .object _ => ⟨_, _, rfl, by decide⟩

theorem exists_start_items (rest : List UInt8) {items : List Json} {bytes : List UInt8}
    (h : SpelledItems items bytes) :
    ∃ b tail, Draft.dropSpace (bytes ++ rest) = b :: tail ∧ b ≠ ascii ']' := by
  cases h with
  | last h => rw [List.append_assoc]; exact exists_start_spelled _ h
  | cons h => rw [List.append_assoc]; exact exists_start_spelled _ h

theorem valueAt_array {rest bytes : List UInt8} {items : List Json} {b : UInt8} {tail : List UInt8}
    {fuel : Nat} (hstart : Draft.dropSpace bytes = b :: tail) (hb : b ≠ ascii ']')
    (h : Draft.itemsAt fuel bytes = (draftItems items, .ok rest)) :
    Draft.valueAt (fuel + 1) (ascii '[' :: bytes) = (.array (draftItems items) none, .ok rest) := by
  have hquote : ascii '[' ≠ ascii '"' := by decide
  simp only [Draft.valueAt, dropSpace_start (show Draft.isSpace (ascii '[') = false by decide), hquote,
    hstart, hb, h, if_true, if_false]
  rfl

theorem valueAt_emptyArray {gap : List UInt8} (hgap : Space gap) (rest : List UInt8) (fuel : Nat) :
    Draft.valueAt (fuel + 1) (ascii '[' :: (gap ++ ascii ']' :: rest)) =
      (.array [] none, .ok rest) := by
  have hquote : ascii '[' ≠ ascii '"' := by decide
  simp only [Draft.valueAt, dropSpace_start (show Draft.isSpace (ascii '[') = false by decide), hquote,
    dropSpace_gap hgap (show Draft.isSpace (ascii ']') = false by decide), if_true, if_false]

theorem valueAt_object {rest bytes : List UInt8} {members : List (String × Json)} {tail : List UInt8}
    {fuel : Nat} (hstart : Draft.dropSpace bytes = ascii '"' :: tail)
    (h : Draft.membersAt fuel bytes = (draftMembers members, .ok rest)) :
    Draft.valueAt (fuel + 1) (ascii '\x7b' :: bytes) =
      (.object (draftMembers members) none, .ok rest) := by
  have hquote : ascii '\x7b' ≠ ascii '"' ∧ ascii '\x7b' ≠ ascii '[' := by decide
  have hbrace : ascii '"' ≠ ascii '\x7d' := by decide
  simp only [Draft.valueAt, dropSpace_start (show Draft.isSpace (ascii '\x7b') = false by decide),
    hquote.1, hquote.2, hstart, hbrace, h, if_true, if_false]
  rfl

theorem valueAt_emptyObject {gap : List UInt8} (hgap : Space gap) (rest : List UInt8) (fuel : Nat) :
    Draft.valueAt (fuel + 1) (ascii '\x7b' :: (gap ++ ascii '\x7d' :: rest)) =
      (.object [] none, .ok rest) := by
  have hquote : ascii '\x7b' ≠ ascii '"' ∧ ascii '\x7b' ≠ ascii '[' := by decide
  simp only [Draft.valueAt, dropSpace_start (show Draft.isSpace (ascii '\x7b') = false by decide),
    hquote.1, hquote.2, dropSpace_gap hgap (show Draft.isSpace (ascii '\x7d') = false by decide),
    if_true, if_false]

section member

variable {key : String} {name gap gap' tail rest : List UInt8} {value : Draft} {fuel : Nat}

theorem membersAt_last (hkey : SpelledText key.toList name) (hgap : Space gap)
    (hvalue : Draft.valueAt fuel tail = (value, .ok (gap' ++ ascii '\x7d' :: rest)))
    (hgap' : Space gap') :
    Draft.membersAt (fuel + 1) (ascii '"' :: (name ++ (gap ++ ascii ':' :: tail))) =
      ([(.ok key, value)], .ok rest) := by
  obtain ⟨hread, hpass⟩ := readText_spelledText hkey (gap ++ ascii ':' :: tail)
  have hcolon := dropSpace_gap hgap (show Draft.isSpace (ascii ':') = false by decide) tail
  have hclose := dropSpace_gap hgap' (show Draft.isSpace (ascii '\x7d') = false by decide) rest
  simp only [Draft.membersAt, dropSpace_start (show Draft.isSpace (ascii '"') = false by decide), ne_eq,
    not_true_eq_false, if_false, if_true, hread, hpass, hcolon, hvalue, hclose]

theorem membersAt_cons {members : List (Except Fault String × Draft)} {bytes : List UInt8}
    (hkey : SpelledText key.toList name) (hgap : Space gap)
    (hvalue : Draft.valueAt fuel tail = (value, .ok (gap' ++ ascii ',' :: bytes)))
    (hgap' : Space gap') (hmembers : Draft.membersAt fuel bytes = (members, .ok rest)) :
    Draft.membersAt (fuel + 1) (ascii '"' :: (name ++ (gap ++ ascii ':' :: tail))) =
      ((.ok key, value) :: members, .ok rest) := by
  obtain ⟨hread, hpass⟩ := readText_spelledText hkey (gap ++ ascii ':' :: tail)
  have hcolon := dropSpace_gap hgap (show Draft.isSpace (ascii ':') = false by decide) tail
  have hcomma := dropSpace_gap hgap' (show Draft.isSpace (ascii ',') = false by decide) bytes
  have hbrace : ascii ',' ≠ ascii '\x7d' := by decide
  simp only [Draft.membersAt, dropSpace_start (show Draft.isSpace (ascii '"') = false by decide), ne_eq,
    not_true_eq_false, if_false, if_true, hread, hpass, hcolon, hvalue, hcomma, hbrace, hmembers]

end member

theorem exists_start_members (rest : List UInt8) : ∀ {members : List (String × Json)}
    {bytes : List UInt8}, SpelledMembers members bytes →
      ∃ tail, Draft.dropSpace (bytes ++ rest) = ascii '"' :: tail
  | _, _, .space hb h => by
    rw [List.cons_append, dropSpace_cons hb]
    exact exists_start_members rest h
  | _, _, .last _ _ _ _ => ⟨_, rfl⟩
  | _, _, .cons _ _ _ _ _ => ⟨_, rfl⟩

mutual

/-- The draft of a text of a value is that of the value, with what stands behind the text left. -/
theorem valueAt_spelled : ∀ {json : Json} {text : List UInt8}, Spelled json text →
    ∀ (fuel : Nat) {rest : List UInt8}, Delimited rest → 2 * text.length + 1 ≤ fuel →
      Draft.valueAt fuel (text ++ rest) = (draft json, .ok rest)
  | _, _, _, 0, _, _, hfuel => absurd hfuel (by omega)
  | _, _, .space hb h, fuel + 1, rest, hrest, hfuel => by
    have hvalue := valueAt_spelled h (fuel + 1) hrest (by simp at hfuel; omega)
    rw [Draft.valueAt] at hvalue ⊢
    rwa [List.cons_append, dropSpace_cons hb]
  | _, _, .null, fuel + 1, rest, hrest, hfuel => rfl
  | _, _, .true, fuel + 1, rest, hrest, hfuel => rfl
  | _, _, .false, fuel + 1, rest, hrest, hfuel => rfl
  | _, _, .number n, fuel + 1, rest, hrest, hfuel => by
    rw [valueAt_number n hrest, draft, numeralOf_string]
  | _, _, .string h, fuel + 1, rest, hrest, hfuel => textAt_spelledText h rest
  | _, _, .emptyArray hgap, fuel + 1, rest, hrest, hfuel => by
    rw [List.cons_append, List.append_assoc]
    exact valueAt_emptyArray hgap rest fuel
  | _, _, .array h, fuel + 1, rest, hrest, hfuel => by
    obtain ⟨b, tail, hstart, hb⟩ := exists_start_items rest h
    exact valueAt_array hstart hb (itemsAt_spelled h fuel rest (by simp at hfuel; omega))
  | _, _, .emptyObject hgap, fuel + 1, rest, hrest, hfuel => by
    rw [List.cons_append, List.append_assoc]
    exact valueAt_emptyObject hgap rest fuel
  | _, _, .object h, fuel + 1, rest, hrest, hfuel => by
    obtain ⟨tail, hstart⟩ := exists_start_members rest h
    exact valueAt_object hstart (membersAt_spelled h fuel rest (by simp at hfuel; omega))

theorem itemsAt_spelled : ∀ {items : List Json} {bytes : List UInt8}, SpelledItems items bytes →
    ∀ (fuel : Nat) (rest : List UInt8), 2 * bytes.length + 2 ≤ fuel →
      Draft.itemsAt fuel (bytes ++ rest) = (draftItems items, .ok rest)
  | _, _, _, 0, _, hfuel => absurd hfuel (by omega)
  | _, _, .last h hgap, fuel + 1, rest, hfuel => by
    have hvalue := valueAt_spelled h fuel (delimited_gap hgap (.inr (.inl rfl)) rest)
      (by simp at hfuel; omega)
    have hclose := dropSpace_gap hgap (show Draft.isSpace (ascii ']') = false by decide) rest
    rw [List.append_assoc, List.append_assoc, List.singleton_append, Draft.itemsAt, hvalue]
    simp only [hclose, if_true]
    rfl
  | _, _, @SpelledItems.cons _ _ _ _ bytes h hgap hs, fuel + 1, rest, hfuel => by
    have hvalue := valueAt_spelled h fuel (delimited_gap hgap (.inl rfl) (bytes ++ rest))
      (by simp at hfuel; omega)
    have hitems := itemsAt_spelled hs fuel rest (by simp at hfuel; omega)
    have hcomma := dropSpace_gap hgap (show Draft.isSpace (ascii ',') = false by decide)
      (bytes ++ rest)
    have hbracket : ascii ',' ≠ ascii ']' := by decide
    rw [List.append_assoc, List.append_assoc, List.cons_append, Draft.itemsAt, hvalue]
    simp only [hcomma, hbracket, if_true, if_false, hitems]
    rfl

theorem membersAt_spelled : ∀ {members : List (String × Json)} {bytes : List UInt8},
    SpelledMembers members bytes → ∀ (fuel : Nat) (rest : List UInt8),
      2 * bytes.length + 2 ≤ fuel →
        Draft.membersAt fuel (bytes ++ rest) = (draftMembers members, .ok rest)
  | _, _, _, 0, _, hfuel => absurd hfuel (by omega)
  | _, _, .space hb h, fuel + 1, rest, hfuel => by
    have hmembers := membersAt_spelled h (fuel + 1) rest (by simp at hfuel; omega)
    rw [Draft.membersAt] at hmembers ⊢
    rwa [List.cons_append, dropSpace_cons hb]
  | _, _, .last hkey hgap h hgap', fuel + 1, rest, hfuel => by
    have hvalue := valueAt_spelled h fuel (delimited_gap hgap' (.inr (.inr rfl)) rest)
      (by simp at hfuel; omega)
    simp only [List.cons_append, List.append_assoc, List.nil_append]
    exact membersAt_last hkey hgap hvalue hgap'
  | _, _, @SpelledMembers.cons _ _ _ _ _ _ _ bytes hkey hgap h hgap' hs, fuel + 1, rest, hfuel => by
    have hvalue := valueAt_spelled h fuel (delimited_gap hgap' (.inl rfl) (bytes ++ rest))
      (by simp at hfuel; omega)
    have hmembers := membersAt_spelled hs fuel rest (by simp at hfuel; omega)
    simp only [List.cons_append, List.append_assoc]
    exact membersAt_cons hkey hgap hvalue hgap' hmembers

end

/-- A text of a value, with nothing behind it but white space, is read as that value is. -/
theorem read_spelled {σ : Type} (reader : Reader σ) {json : Json} {text gap : List UInt8}
    (h : Spelled json text) (hgap : Space gap) : read reader (text ++ gap) = reader (draft json) := by
  have hrest : Delimited gap := fun b hb => .inl (hgap b (List.mem_of_mem_head? hb))
  have hvalue := valueAt_spelled h (2 * (text ++ gap).length + 2) hrest (by simp; omega)
  have hend : Draft.dropSpace gap = [] := List.dropWhile_eq_nil_iff.2 hgap
  rw [read, Draft.ofBytes, hvalue]
  simp only [hend, List.isEmpty_nil, if_true]
  cases reader (draft json) <;> rfl

end TrackingScore.Json
