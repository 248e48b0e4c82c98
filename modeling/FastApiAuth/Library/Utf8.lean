import Mathlib.Data.List.Infix

/-!
# UTF-8

What is encoded decodes to itself, and a character beyond ASCII has no ASCII byte.

The first `n` bytes of a text decode to the first characters of it, unless the cut goes
through a character. Whether it does is seen from the byte behind the cut.
-/

namespace Utf8

set_option autoImplicit false

def encode (cs : List Char) : List UInt8 := cs.flatMap String.utf8EncodeChar

def decode (bytes : List UInt8) : Option String := String.fromUTF8? ⟨bytes.toArray⟩

/-- The byte behind the cut does not begin a character. -/
def SplitsCharacter (bytes : List UInt8) (n : Nat) : Prop :=
  ∃ b, bytes[n]? = some b ∧ ¬ b.IsUTF8FirstByte

section Encoding

theorem encode_cons (c : Char) (cs : List Char) :
    encode (c :: cs) = String.utf8EncodeChar c ++ encode cs := List.flatMap_cons

theorem encode_append (cs cs' : List Char) : encode (cs ++ cs') = encode cs ++ encode cs' :=
  List.flatMap_append

theorem toUTF8_eq (text : String) : text.toUTF8 = (encode text.toList).toByteArray := by
  conv_lhs => rw [String.toUTF8_eq_toByteArray, ← String.ofList_toList (s := text)]
  rw [String.toByteArray_ofList]
  rfl

theorem length_pos_utf8EncodeChar (c : Char) : 0 < (String.utf8EncodeChar c).length := by
  rw [String.length_utf8EncodeChar]
  exact c.utf8Size_pos

theorem length_le_encode (cs : List Char) : cs.length ≤ (encode cs).length := by
  induction cs with
  | nil => exact Nat.zero_le _
  | cons c cs ih =>
    have hpos := length_pos_utf8EncodeChar c
    rw [encode_cons, List.length_append, List.length_cons]
    omega

theorem utf8EncodeChar_of_ascii {c : Char} (h : c.toNat < 128) :
    String.utf8EncodeChar c = [UInt8.ofNat c.toNat] := by
  have hle : c.val.toNat ≤ 127 := Nat.le_of_lt_succ h
  simp only [String.utf8EncodeChar, hle, if_true]
  rfl

theorem le_of_mem_utf8EncodeChar {c : Char} (h : 128 ≤ c.toNat) {b : UInt8}
    (hb : b ∈ String.utf8EncodeChar c) : 128 ≤ b.toNat := by
  have hgt : ¬ c.val.toNat ≤ 127 := Nat.not_le.mpr h
  simp only [String.utf8EncodeChar, hgt, if_false] at hb
  split at hb
  · simp only [List.mem_cons, List.not_mem_nil, or_false] at hb
    rcases hb with rfl | rfl <;> simp only [UInt8.toNat_ofNat'] <;> omega
  · split at hb
    · simp only [List.mem_cons, List.not_mem_nil, or_false] at hb
      rcases hb with rfl | rfl | rfl <;> simp only [UInt8.toNat_ofNat'] <;> omega
    · simp only [List.mem_cons, List.not_mem_nil, or_false] at hb
      rcases hb with rfl | rfl | rfl | rfl <;> simp only [UInt8.toNat_ofNat'] <;> omega

end Encoding

variable {bytes : List UInt8} {text front : String} {n : Nat}

theorem decode_eq_some_iff : decode bytes = some text ↔ text.toByteArray = ⟨bytes.toArray⟩ := by
  unfold decode String.fromUTF8?
  constructor
  · intro h
    split at h
    · cases h
      rfl
    · cases h
  · intro h
    rw [← h, dif_pos text.isValidUTF8]
    rfl

theorem decode_encode (text : String) : decode (encode text.toList) = some text := by
  rw [decode_eq_some_iff, ← String.toUTF8_eq_toByteArray, toUTF8_eq]
  exact ByteArray.ext List.data_toByteArray

theorem decode_eq_none_iff :
    decode bytes = none ↔ ¬ (ByteArray.mk bytes.toArray).IsValidUTF8 := by
  unfold decode String.fromUTF8?
  split
  · rename_i h
    simp [h]
  · rename_i h
    simp [h]

theorem utf8ByteSize_eq (h : decode bytes = some text) : text.utf8ByteSize = bytes.length := by
  rw [← String.size_toByteArray, decode_eq_some_iff.mp h]
  rfl

theorem eq_encode (h : decode bytes = some text) : bytes = encode text.toList := by
  have hbytes : (encode text.toList).toByteArray = ⟨bytes.toArray⟩ := by
    rw [← toUTF8_eq, String.toUTF8_eq_toByteArray]
    exact decode_eq_some_iff.mp h
  have hdata := congrArg (fun b => b.data.toList) hbytes
  simpa using hdata.symm

/-- A text has no more characters than bytes. -/
theorem length_toList_le (h : decode bytes = some text) : text.toList.length ≤ bytes.length := by
  rw [eq_encode h]
  exact length_le_encode text.toList

theorem bytes_take (h : decode bytes = some text) (n : Nat) :
    ByteArray.mk (bytes.take n).toArray = text.toByteArray.extract 0 n := by
  rw [decode_eq_some_iff.mp h]
  apply ByteArray.ext
  simp

theorem isValid_iff (h : decode bytes = some text) (hn : n ≤ bytes.length) :
    String.Pos.Raw.IsValid text ⟨n⟩ ↔ (ByteArray.mk (bytes.take n).toArray).IsValidUTF8 := by
  rw [String.Pos.Raw.isValid_iff_isValidUTF8_extract_zero, bytes_take h]
  constructor
  · exact And.right
  · intro hvalid
    refine ⟨?_, hvalid⟩
    rw [String.Pos.Raw.le_iff, String.byteIdx_rawEndPos, utf8ByteSize_eq h]
    exact hn

/-- The first bytes decode to the first characters. -/
theorem decode_take_append (h : decode bytes = some text)
    (hfront : decode (bytes.take n) = some front) : ∃ back, text = front ++ back := by
  rcases Nat.le_total bytes.length n with hlong | hn
  · rw [List.take_of_length_le hlong, h] at hfront
    cases hfront
    exact ⟨"", String.append_empty.symm⟩
  have hvalid : String.Pos.Raw.IsValid text ⟨n⟩ := by
    rw [isValid_iff h hn, ← decode_eq_some_iff.mp hfront]
    exact front.isValidUTF8
  obtain ⟨t₁, t₂, htext, hpos⟩ := String.Pos.Raw.isValid_iff_exists_append.mp hvalid
  have hn' : n = t₁.toByteArray.size := by
    rw [String.size_toByteArray, ← String.byteIdx_rawEndPos, ← hpos]
  have hsame : front = t₁ := by
    apply String.toByteArray_inj.mp
    rw [decode_eq_some_iff.mp hfront, bytes_take h, htext, String.toByteArray_append,
      ByteArray.extract_append_eq_left hn']
  exact ⟨t₂, hsame ▸ htext⟩

/-- The first bytes of a text that is not empty have a character. -/
theorem decode_take_ne_empty (h : decode bytes = some text) (hfront : decode (bytes.take n) =
    some front) (hn : 0 < n) (htext : text ≠ "") : front ≠ "" := by
  rintro rfl
  have hempty := utf8ByteSize_eq hfront
  rw [String.utf8ByteSize_empty, List.length_take] at hempty
  have hsize := utf8ByteSize_eq h
  exact htext (String.utf8ByteSize_eq_zero_iff.mp (by omega))

theorem decode_take_eq_none_iff (h : decode bytes = some text) :
    decode (bytes.take n) = none ↔ SplitsCharacter bytes n := by
  rcases Nat.le_total bytes.length n with hlong | hn
  · rw [List.take_of_length_le hlong, h]
    constructor
    · nofun
    · rintro ⟨b, hb, _⟩
      rw [List.getElem?_eq_none hlong] at hb
      cases hb
  rw [decode_eq_none_iff, ← isValid_iff h hn, String.Pos.Raw.isValid_iff_isUTF8FirstByte]
  have hsize := utf8ByteSize_eq h
  have hend : (⟨n⟩ : String.Pos.Raw) < text.rawEndPos ↔ n < bytes.length := by
    rw [String.Pos.Raw.lt_iff, String.byteIdx_rawEndPos, hsize]
  have hbyte : ∀ hlt : (⟨n⟩ : String.Pos.Raw) < text.rawEndPos,
      bytes[n]? = some (text.getUTF8Byte ⟨n⟩ hlt) := by
    intro hlt
    rw [List.getElem?_eq_getElem (hend.mp hlt), String.getUTF8Byte]
    simp only [decode_eq_some_iff.mp h]
    rfl
  constructor
  · intro hnot
    rcases Nat.lt_or_ge n bytes.length with hlt | hge
    · refine ⟨_, hbyte (hend.mpr hlt), ?_⟩
      intro hfirst
      exact hnot (Or.inr ⟨hend.mpr hlt, hfirst⟩)
    · apply absurd (Or.inl _) hnot
      apply String.Pos.Raw.ext
      rw [String.byteIdx_rawEndPos, hsize]
      exact Nat.le_antisymm hn hge
  · rintro ⟨b, hb, hfirst⟩ (heq | ⟨hlt, hfirst'⟩)
    · have hlength : n = bytes.length := by
        rw [← hsize, ← String.byteIdx_rawEndPos, ← heq]
      rw [List.getElem?_eq_none hlength.ge] at hb
      cases hb
    · rw [hbyte hlt] at hb
      cases hb
      exact hfirst hfirst'

end Utf8
