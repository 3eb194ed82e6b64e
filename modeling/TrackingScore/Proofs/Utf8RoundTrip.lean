import Mathlib.Data.List.Basic
import TrackingScore.Text.Ascii
import TrackingScore.Text.Blank
import TrackingScore.Text.Utf8

/-!
UTF-8 read back: the bytes of a text are the text again. A byte below 0x80 stands for its ASCII
character wherever it occurs, so what parts a text at ASCII characters may part its bytes.
-/

namespace TrackingScore.Text.Utf8

theorem toNat_ofNat {n : Nat} (h : n < 0x100) : (UInt8.ofNat n).toNat = n :=
  UInt8.toNat_ofNat_of_lt' h

theorem continuation?_ofNat {n : Nat} (h : n < 0x40) :
    continuation? (UInt8.ofNat (0x80 + n)) = some n := by
  have hrange : 0x80 ≤ 0x80 + n ∧ 0x80 + n < 0xc0 := by omega
  rw [continuation?, toNat_ofNat (by omega)]
  simp only [hrange, decide_true, Bool.and_self, if_true, Nat.add_sub_cancel_left]

theorem character?_toNat {least : Nat} {c : Char} (h : least ≤ c.toNat) :
    character? least c.toNat = some c := by
  have hvalid : c.toNat.isValidChar := c.valid
  have hchar : Char.ofNatAux c.toNat hvalid = c := by
    have := Char.ofNat_toNat c
    rwa [Char.ofNat, dif_pos hvalid] at this
  rw [character?, dif_pos hvalid, if_pos h, hchar]

theorem toNat_lt (c : Char) : c.toNat < 0x110000 := by
  rcases c.valid with h | ⟨-, h⟩ <;> exact Nat.lt_of_lt_of_le h (by decide)

/-- A character written in front of a text is the first one read, with all of its bytes. -/
theorem front?_encodeChar (c : Char) (rest : List UInt8) :
    front? (encodeChar c ++ rest) = some (c, (encodeChar c).length) := by
  have hc := toNat_lt c
  have htail (k : Nat) : continuation? (UInt8.ofNat (0x80 + k % 0x40)) = some (k % 0x40) :=
    continuation?_ofNat (Nat.mod_lt _ (by decide))
  -- One case for each number of bytes; in each the lead byte tells that number again.
  rw [encodeChar, encodeCodePoint]
  split_ifs with h1 h2 h3
  · have hlead : (UInt8.ofNat c.toNat).toNat = c.toNat := toNat_ofNat (by omega)
    simp [front?, hlead, h1]
  · have hlead : (UInt8.ofNat (0xc0 + c.toNat / 0x40)).toNat = 0xc0 + c.toNat / 0x40 :=
      toNat_ofNat (by omega)
    have hsum : (0xc0 + c.toNat / 0x40 - 0xc0) * 0x40 + c.toNat % 0x40 = c.toNat := by omega
    simp only [List.cons_append, List.nil_append, front?, hlead, htail]
    rw [if_neg (by omega), if_neg (by omega), if_pos (by omega)]
    simp only [Option.bind_eq_bind, Option.bind_some, hsum, character?_toNat (Nat.not_lt.1 h1)]
    rfl
  · have hlead : (UInt8.ofNat (0xe0 + c.toNat / 0x1000)).toNat = 0xe0 + c.toNat / 0x1000 :=
      toNat_ofNat (by omega)
    have hsum : ((0xe0 + c.toNat / 0x1000 - 0xe0) * 0x40 + c.toNat / 0x40 % 0x40) * 0x40 +
        c.toNat % 0x40 = c.toNat := by omega
    simp only [List.cons_append, List.nil_append, front?, hlead, htail]
    rw [if_neg (by omega), if_neg (by omega), if_neg (by omega), if_pos (by omega)]
    simp only [Option.bind_eq_bind, Option.bind_some, hsum, character?_toNat (Nat.not_lt.1 h2)]
    rfl
  · have hlead : (UInt8.ofNat (0xf0 + c.toNat / 0x40000)).toNat = 0xf0 + c.toNat / 0x40000 :=
      toNat_ofNat (by omega)
    have hsum : (((0xf0 + c.toNat / 0x40000 - 0xf0) * 0x40 + c.toNat / 0x1000 % 0x40) * 0x40 +
        c.toNat / 0x40 % 0x40) * 0x40 + c.toNat % 0x40 = c.toNat := by omega
    simp only [List.cons_append, List.nil_append, front?, hlead, htail]
    rw [if_neg (by omega), if_neg (by omega), if_neg (by omega), if_neg (by omega)]
    simp only [Option.bind_eq_bind, Option.bind_some, hsum, character?_toNat (Nat.not_lt.1 h3)]
    rfl

theorem encodeChar_ne_nil (c : Char) : encodeChar c ≠ [] := by
  rw [encodeChar, encodeCodePoint]
  split_ifs <;> simp

@[simp] theorem encode_cons (c : Char) (cs : List Char) :
    encode (c :: cs) = encodeChar c ++ encode cs := rfl

@[simp] theorem encode_append (cs ds : List Char) : encode (cs ++ ds) = encode cs ++ encode ds :=
  List.flatMap_append

theorem encode_intercalate (separator : List Char) (items : List (List Char)) :
    encode (separator.intercalate items) = (encode separator).intercalate (items.map encode) := by
  induction items with
  | nil => rfl
  | cons item items ih =>
    rcases items with _ | ⟨next, items⟩
    · simp [List.intercalate_singleton]
    · rw [List.intercalate_cons_cons, encode_append, encode_append, ih]
      exact List.intercalate_cons_cons.symm

theorem decodeFrom_append (offset : Nat) (passed rest : List UInt8) :
    decodeFrom offset passed.length (passed ++ rest) =
      decodeFrom (offset + passed.length) 0 rest := by
  induction passed generalizing offset with
  | nil => rfl
  | cons b passed ih =>
    rw [List.length_cons, List.cons_append, decodeFrom, ih]
    congr 1
    omega

theorem decodeFrom_encode (offset : Nat) (cs : List Char) :
    decodeFrom offset 0 (encode cs) = .ok cs := by
  induction cs generalizing offset with
  | nil => rfl
  | cons c cs ih =>
    rw [encode_cons]
    have hfront := front?_encodeChar c (encode cs)
    obtain ⟨b, tail, hbytes⟩ := List.exists_cons_of_ne_nil (encodeChar_ne_nil c)
    rw [hbytes, List.cons_append, List.length_cons] at hfront
    rw [hbytes, List.cons_append, decodeFrom]
    simp only [hfront, Nat.add_sub_cancel, decodeFrom_append, ih]
    rfl

@[simp] theorem decode_encode (cs : List Char) : decode (encode cs) = .ok cs :=
  decodeFrom_encode 0 cs

theorem toNat_eq_of_mem_encodeChar {b : UInt8} {c : Char} (hb : b.toNat < 0x80)
    (h : b ∈ encodeChar c) : c.toNat = b.toNat := by
  have hc := toNat_lt c
  rw [encodeChar, encodeCodePoint] at h
  split_ifs at h with h1 h2 h3 <;> simp only [List.mem_cons, List.not_mem_nil, or_false] at h
  · rw [h, toNat_ofNat (by omega)]
  · rcases h with rfl | rfl <;> rw [toNat_ofNat (by omega)] at hb <;> omega
  · rcases h with rfl | rfl | rfl <;> rw [toNat_ofNat (by omega)] at hb <;> omega
  · rcases h with rfl | rfl | rfl | rfl <;> rw [toNat_ofNat (by omega)] at hb <;> omega

theorem toNat_ascii {a : Char} (ha : a.toNat < 0x80) : (ascii a).toNat = a.toNat := by
  change a.val.toNat % 256 = a.toNat
  exact Nat.mod_eq_of_lt (Nat.lt_trans ha (by decide))

theorem encodeChar_ascii {a : Char} (ha : a.toNat < 0x80) : encodeChar a = [ascii a] := by
  rw [encodeChar, encodeCodePoint, if_pos ha, ← toNat_ascii ha, UInt8.ofNat_toNat]

theorem encode_cons_ascii {a : Char} (ha : a.toNat < 0x80) (cs : List Char) :
    encode (a :: cs) = ascii a :: encode cs := by
  rw [encode_cons, encodeChar_ascii ha, List.singleton_append]

theorem ascii_mem_encode_iff {a : Char} (ha : a.toNat < 0x80) {cs : List Char} :
    ascii a ∈ encode cs ↔ a ∈ cs := by
  rw [encode, List.mem_flatMap]
  constructor
  · rintro ⟨c, hc, hmem⟩
    have hcode : c.toNat = a.toNat := by
      rw [toNat_eq_of_mem_encodeChar (by rwa [toNat_ascii ha]) hmem, toNat_ascii ha]
    rwa [← Char.toNat_inj.1 hcode]
  · intro h
    exact ⟨a, h, by simp [encodeChar_ascii ha]⟩

theorem isBlank_of_isSpaceByte {b : UInt8} {c : Char} (hb : isSpaceByte b = true)
    (h : b ∈ encodeChar c) : isBlank c = true := by
  simp only [isSpaceByte, Bool.or_eq_true, decide_eq_true_eq] at hb
  rcases hb with (((rfl | rfl) | rfl) | rfl) | rfl <;>
    simp only [isBlank, toNat_eq_of_mem_encodeChar (by decide) h] <;>
    decide

theorem encodeChar_of_isSpaceByte {b : UInt8} {c : Char} (hb : isSpaceByte b = true)
    (h : b ∈ encodeChar c) : encodeChar c = [b] := by
  have hlt : b.toNat < 0x80 := by
    simp only [isSpaceByte, Bool.or_eq_true, decide_eq_true_eq] at hb
    rcases hb with (((rfl | rfl) | rfl) | rfl) | rfl <;> decide
  have hc := toNat_eq_of_mem_encodeChar hlt h
  rw [encodeChar, encodeCodePoint, if_pos (hc ▸ hlt), hc, UInt8.ofNat_toNat]

end TrackingScore.Text.Utf8
