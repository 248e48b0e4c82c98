import FastApiAuth.Library.Utf8

/-!
# URL-safe base64

`encode` takes bytes three at a time and pads the last group. `decode` is the lenient
reading: characters outside the alphabet are skipped, `+` and `/` are read like `-`
and `_`, and the pad that completes a group ends the input. `decodeBytes` reads the bytes
of a text in the same way.
-/

namespace Base64

set_option autoImplicit false

def alphabet : List Char :=
  "ABCDEFGHIJKLMNOPQRSTUVWXYZabcdefghijklmnopqrstuvwxyz0123456789-_".toList

def digit (n : Nat) : Char := alphabet.getD n 'A'

def value (c : Char) : Option Nat :=
  if c = '+' then some 62
  else if c = '/' then some 63
  else alphabet.idxOf? c

def encodeGroups : List UInt8 → List Char
  | [] => []
  | [a] => [digit (a.toNat / 4), digit (a.toNat % 4 * 16), '=', '=']
  | [a, b] =>
    [digit (a.toNat / 4), digit (a.toNat % 4 * 16 + b.toNat / 16), digit (b.toNat % 16 * 4), '=']
  | a :: b :: c :: rest =>
    digit (a.toNat / 4) :: digit (a.toNat % 4 * 16 + b.toNat / 16) ::
      digit (b.toNat % 16 * 4 + c.toNat / 64) :: digit (c.toNat % 64) :: encodeGroups rest

def encode (bytes : List UInt8) : String := String.ofList (encodeGroups bytes)

/-- What has been read of a group: the bits that no byte has taken yet. -/
inductive Quad where
  | empty
  | six (left : Nat)
  | four (left : Nat)
  | two (left : Nat)

/-- `pads` counts the pads since the last digit. -/
def decodeFrom : Quad → Nat → List Char → Option (List UInt8)
  | .empty, _, [] => some []
  | _, _, [] => none
  | quad, pads, c :: cs =>
    if c = '=' then
      match quad with
      | .empty | .six _ => decodeFrom quad pads cs
      | .four _ => if pads = 0 then decodeFrom quad 1 cs else some []
      | .two _ => some []
    else
      match value c with
      | none => decodeFrom quad pads cs
      | some v =>
        match quad with
        | .empty => decodeFrom (.six v) 0 cs
        | .six left => (decodeFrom (.four (v % 16)) 0 cs).map (UInt8.ofNat (left * 4 + v / 16) :: ·)
        | .four left => (decodeFrom (.two (v % 4)) 0 cs).map (UInt8.ofNat (left * 16 + v / 4) :: ·)
        | .two left => (decodeFrom .empty 0 cs).map (UInt8.ofNat (left * 64 + v) :: ·)

/-- `none` is the error about an incomplete last group. -/
def decode (text : String) : Option (List UInt8) := decodeFrom .empty 0 text.toList

theorem value_digit : ∀ n < 64, value (digit n) = some n ∧ digit n ≠ '=' := by
  decide +kernel

section Digits

variable {left n pads : Nat} {cs : List Char}

theorem decodeFrom_empty (hn : n < 64) :
    decodeFrom .empty pads (digit n :: cs) = decodeFrom (.six n) 0 cs := by
  obtain ⟨hvalue, hpad⟩ := value_digit n hn
  simp [decodeFrom, hvalue, hpad]

theorem decodeFrom_six (hn : n < 64) :
    decodeFrom (.six left) pads (digit n :: cs) =
      (decodeFrom (.four (n % 16)) 0 cs).map (UInt8.ofNat (left * 4 + n / 16) :: ·) := by
  obtain ⟨hvalue, hpad⟩ := value_digit n hn
  simp [decodeFrom, hvalue, hpad]

theorem decodeFrom_four (hn : n < 64) :
    decodeFrom (.four left) pads (digit n :: cs) =
      (decodeFrom (.two (n % 4)) 0 cs).map (UInt8.ofNat (left * 16 + n / 4) :: ·) := by
  obtain ⟨hvalue, hpad⟩ := value_digit n hn
  simp [decodeFrom, hvalue, hpad]

theorem decodeFrom_two (hn : n < 64) :
    decodeFrom (.two left) pads (digit n :: cs) =
      (decodeFrom .empty 0 cs).map (UInt8.ofNat (left * 64 + n) :: ·) := by
  obtain ⟨hvalue, hpad⟩ := value_digit n hn
  simp [decodeFrom, hvalue, hpad]

end Digits

theorem ofNat_eq {a : UInt8} {n : Nat} (h : n = a.toNat) : UInt8.ofNat n = a := by
  rw [h, UInt8.ofNat_toNat]

theorem decodeFrom_encodeGroups (bytes : List UInt8) (pads : Nat) :
    decodeFrom .empty pads (encodeGroups bytes) = some bytes := by
  induction bytes using encodeGroups.induct generalizing pads with
  | case1 => rfl
  | case2 a =>
    have ha := a.toNat_lt
    rw [encodeGroups, decodeFrom_empty (by omega), decodeFrom_six (by omega),
      ofNat_eq (a := a) (by omega)]
    simp [decodeFrom]
  | case3 a b =>
    have ha := a.toNat_lt
    have hb := b.toNat_lt
    rw [encodeGroups, decodeFrom_empty (by omega), decodeFrom_six (by omega),
      decodeFrom_four (by omega), ofNat_eq (a := a) (by omega), ofNat_eq (a := b) (by omega)]
    simp [decodeFrom]
  | case4 a b c rest ih =>
    have ha := a.toNat_lt
    have hb := b.toNat_lt
    have hc := c.toNat_lt
    rw [encodeGroups, decodeFrom_empty (by omega), decodeFrom_six (by omega),
      decodeFrom_four (by omega), decodeFrom_two (by omega), ih,
      ofNat_eq (a := a) (by omega), ofNat_eq (a := b) (by omega), ofNat_eq (a := c) (by omega)]
    rfl

/-- Decoding gives back whatever was encoded. -/
theorem decode_encode (bytes : List UInt8) : decode (encode bytes) = some bytes := by
  rw [decode, encode, String.toList_ofList]
  exact decodeFrom_encodeGroups bytes 0

theorem digit_mem (n : Nat) : digit n ∈ alphabet := by
  rw [digit, List.getD_eq_getElem?_getD]
  cases hget : alphabet[n]? with
  | none => decide
  | some c => exact List.mem_of_getElem? hget

/-- Encoded text has letters of the alphabet and pads. -/
theorem mem_encodeGroups {bytes : List UInt8} {c : Char} (hc : c ∈ encodeGroups bytes) :
    c ∈ alphabet ∨ c = '=' := by
  induction bytes using encodeGroups.induct with
  | case1 => cases hc
  | case2 a =>
    simp only [encodeGroups, List.mem_cons, List.not_mem_nil, or_false] at hc
    rcases hc with rfl | rfl | rfl | rfl
    · exact Or.inl (digit_mem _)
    · exact Or.inl (digit_mem _)
    · exact Or.inr rfl
    · exact Or.inr rfl
  | case3 a b =>
    simp only [encodeGroups, List.mem_cons, List.not_mem_nil, or_false] at hc
    rcases hc with rfl | rfl | rfl | rfl
    · exact Or.inl (digit_mem _)
    · exact Or.inl (digit_mem _)
    · exact Or.inl (digit_mem _)
    · exact Or.inr rfl
  | case4 a b c' rest ih =>
    simp only [encodeGroups, List.mem_cons] at hc
    rcases hc with rfl | rfl | rfl | rfl | hc
    · exact Or.inl (digit_mem _)
    · exact Or.inl (digit_mem _)
    · exact Or.inl (digit_mem _)
    · exact Or.inl (digit_mem _)
    · exact ih hc

section TextBytes

/-- Each byte as a character: those from 128 on are outside of the alphabet. -/
def latin1 (bytes : List UInt8) : List Char := bytes.map fun b => Char.ofNat b.toNat

def decodeBytes (bytes : List UInt8) : Option (List UInt8) := decodeFrom .empty 0 (latin1 bytes)

theorem toNat_latin1 (b : UInt8) : (Char.ofNat b.toNat).toNat = b.toNat := by
  have hlt := b.toNat_lt
  have hvalid : b.toNat.isValidChar := Or.inl (by omega)
  rw [Char.ofNat, dif_pos hvalid]
  rfl

theorem value_of_not_ascii {c : Char} (h : 128 ≤ c.toNat) : value c = none ∧ c ≠ '=' := by
  have hascii : ∀ d ∈ alphabet ++ ['+', '/', '='], d.toNat < 128 := by
    have hall : (alphabet ++ ['+', '/', '=']).all (fun d => d.toNat < 128) := by decide
    intro d hd
    exact of_decide_eq_true (List.all_eq_true.mp hall d hd)
  have hne : ∀ d ∈ alphabet ++ ['+', '/', '='], c ≠ d := by
    intro d hd heq
    have hlt := hascii d hd
    rw [← heq] at hlt
    omega
  refine ⟨?_, hne '=' (by decide)⟩
  have hmem : c ∉ alphabet := fun hc => hne c (List.mem_append_left _ hc) rfl
  simp only [value, hne '+' (by decide), hne '/' (by decide), if_false]
  exact List.idxOf?_eq_none_iff.mpr hmem

theorem decodeFrom_skip {skipped : List Char} (h : ∀ c ∈ skipped, value c = none ∧ c ≠ '=')
    (quad : Quad) (pads : Nat) (cs : List Char) :
    decodeFrom quad pads (skipped ++ cs) = decodeFrom quad pads cs := by
  induction skipped with
  | nil => rfl
  | cons c skipped ih =>
    obtain ⟨hvalue, hpad⟩ := h c List.mem_cons_self
    have hrest := ih fun d hd => h d (List.mem_cons_of_mem c hd)
    rw [List.cons_append, ← hrest]
    cases quad <;> simp [decodeFrom, hvalue, hpad]

theorem decodeFrom_cons_congr {cs cs' : List Char} (c : Char)
    (h : ∀ quad pads, decodeFrom quad pads cs = decodeFrom quad pads cs') (quad : Quad)
    (pads : Nat) : decodeFrom quad pads (c :: cs) = decodeFrom quad pads (c :: cs') := by
  cases quad <;> simp only [decodeFrom, h]

theorem decodeFrom_latin1_encode (cs : List Char) (quad : Quad) (pads : Nat) :
    decodeFrom quad pads (latin1 (Utf8.encode cs)) = decodeFrom quad pads cs := by
  induction cs generalizing quad pads with
  | nil => rfl
  | cons c cs ih =>
    have happend : latin1 (Utf8.encode (c :: cs)) =
        latin1 (String.utf8EncodeChar c) ++ latin1 (Utf8.encode cs) := by
      rw [Utf8.encode_cons]
      exact List.map_append
    rw [happend]
    rcases Nat.lt_or_ge c.toNat 128 with hc | hc
    · have hbyte : (UInt8.ofNat c.toNat).toNat = c.toNat := by
        rw [UInt8.toNat_ofNat']
        omega
      have hsame : latin1 (String.utf8EncodeChar c) = [c] := by
        rw [Utf8.utf8EncodeChar_of_ascii hc, latin1, List.map_singleton, hbyte, Char.ofNat_toNat]
      rw [hsame, List.singleton_append]
      exact decodeFrom_cons_congr c ih quad pads
    · have hbytes : ∀ d ∈ latin1 (String.utf8EncodeChar c), value d = none ∧ d ≠ '=' := by
        intro d hd
        obtain ⟨b, hb, rfl⟩ := List.mem_map.mp hd
        apply value_of_not_ascii
        rw [toNat_latin1]
        exact Utf8.le_of_mem_utf8EncodeChar hc hb
      have hskip : decodeFrom quad pads (c :: cs) = decodeFrom quad pads cs := by
        have hchar : ∀ d ∈ [c], value d = none ∧ d ≠ '=' :=
          List.forall_mem_singleton.mpr (value_of_not_ascii hc)
        exact decodeFrom_skip hchar quad pads cs
      rw [decodeFrom_skip hbytes, ih, hskip]

/-- The bytes of a text are read as the text itself is. -/
theorem decodeBytes_encode (text : String) :
    decodeBytes (Utf8.encode text.toList) = decode text := decodeFrom_latin1_encode _ _ _

end TextBytes

end Base64
