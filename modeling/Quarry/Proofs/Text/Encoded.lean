import Quarry.Proofs.Text.Snake
import Quarry.Text.Percent

/-!
# Encoded texts

A text in percent encoding is read back as the text. The bytes of its UTF-8 form come in order: each
of them is the ASCII character that it is the number of, if that is unreserved, or is written with a
percent sign and two hexadecimal digits in either case (`Percent.Encodes`). Decoding gives back the
bytes, and these are scanned character by character: what a first byte announces is what the bytes
behind it keep to.
-/

set_option autoImplicit false

namespace Quarry.Text

/-! ## UTF-8 -/

namespace Utf8

variable {i : Nat} {b : UInt8} {p : Pending} {rest : List UInt8}

/-- A byte of ASCII is a character. -/
theorem scan_ascii (h : b.toNat < 0x80) :
    scan i none (b :: rest) = .ok (Char.ofNat b.toNat) :: scan (i + 1) none rest := by
  rw [scan]
  exact if_pos h

/-- A first byte begins a character. -/
theorem scan_first (h : 0x80 ≤ b.toNat) (hbegin : begin? b.toNat = some p) :
    scan i none (b :: rest) = scan (i + 1) (some p) rest := by
  rw [scan]
  simp only [if_neg (Nat.not_lt.mpr h), hbegin]

/-- A further byte goes on with a character. -/
theorem scan_further {byte seen left low high bits : Nat} (hlow : low ≤ b.toNat)
    (hhigh : b.toNat ≤ high) :
    scan i (some ⟨byte, seen, left + 2, low, high, bits⟩) (b :: rest) =
      scan (i + 1) (some ⟨byte, seen + 1, left + 1, 0x80, 0xBF, bits * 64 + b.toNat % 64⟩) rest := by
  have hleft : ¬left + 2 ≤ 1 := by omega
  rw [scan]
  simp only [hlow, hhigh, decide_true, Bool.and_self, if_true, if_neg hleft]
  rfl

/-- The last byte ends a character. -/
theorem scan_last {byte seen low high bits : Nat} (hlow : low ≤ b.toNat) (hhigh : b.toNat ≤ high) :
    scan i (some ⟨byte, seen, 1, low, high, bits⟩) (b :: rest) =
      .ok (Char.ofNat (bits * 64 + b.toNat % 64)) :: scan (i + 1) none rest := by
  rw [scan]
  simp only [hlow, hhigh, decide_true, Bool.and_self, if_true, Nat.le_refl]

/-- A first byte of two. -/
theorem begin?_two {n : Nat} (hlow : 0xC2 ≤ n) (hhigh : n < 0xE0) :
    begin? n = some ⟨n, 1, 1, 0x80, 0xBF, n - 0xC0⟩ := by
  rw [begin?, if_neg (by omega), if_pos hhigh]

/-- After the first byte of three the next one has less room where the sequence would be overlong or
a surrogate. -/
theorem begin?_three {n : Nat} (hlow : 0xE0 ≤ n) (hhigh : n < 0xF0) :
    begin? n = some ⟨n, 1, 2, if n = 0xE0 then 0xA0 else 0x80, if n = 0xED then 0x9F else 0xBF,
      n - 0xE0⟩ := by
  rw [begin?, if_neg (by omega), if_neg (by omega)]
  by_cases h0 : n = 0xE0
  · subst h0
    rfl
  · by_cases hd : n = 0xED
    · subst hd
      rfl
    · simp [h0, hd, hhigh]

/-- After the first byte of four the next one has less room where the sequence would be overlong or
beyond the last character. -/
theorem begin?_four {n : Nat} (hlow : 0xF0 ≤ n) (hhigh : n ≤ 0xF4) :
    begin? n = some ⟨n, 1, 3, if n = 0xF0 then 0x90 else 0x80, if n = 0xF4 then 0x8F else 0xBF,
      n - 0xF0⟩ := by
  obtain rfl | rfl | rfl | rfl | rfl : n = 0xF0 ∨ n = 0xF1 ∨ n = 0xF2 ∨ n = 0xF3 ∨ n = 0xF4 := by omega
  all_goals rfl

/-- A number below 256 is that of its byte. -/
theorem toNat_ofNat_of_lt {n : Nat} (h : n < 256) : (UInt8.ofNat n).toNat = n := by
  rw [UInt8.toNat_ofNat']
  exact Nat.mod_eq_of_lt h

/-- A byte behind the first one has the next six bits. -/
theorem toNat_tail (v : Nat) : (UInt8.ofNat (v % 64 + 128)).toNat = v % 64 + 0x80 :=
  toNat_ofNat_of_lt (by omega)

/-- The bytes of a character are scanned as the character. -/
theorem exists_scan_utf8EncodeChar (c : Char) (i : Nat) (rest : List UInt8) :
    ∃ j, scan i none (String.utf8EncodeChar c ++ rest) = .ok c :: scan j none rest := by
  have hvalid : c.val.toNat < 0xD800 ∨ 0xDFFF < c.val.toNat ∧ c.val.toNat < 0x110000 := c.valid
  have hself : Char.ofNat c.val.toNat = c := Char.ofNat_toNat c
  rw [String.utf8EncodeChar]
  generalize c.val.toNat = v at hvalid hself
  split_ifs with hone htwo hthree
  · have hbyte : (UInt8.ofNat v).toNat = v := toNat_ofNat_of_lt (by omega)
    rw [List.singleton_append, scan_ascii (by omega), hbyte, hself]
    exact ⟨_, rfl⟩
  · have hfirst : (UInt8.ofNat (v / 64 % 32 + 192)).toNat = v / 64 + 0xC0 := by
      rw [toNat_ofNat_of_lt (by omega)]
      omega
    have hlast := toNat_tail v
    have hbits : (v / 64 + 0xC0 - 0xC0) * 64 + (v % 64 + 0x80) % 64 = v := by omega
    simp only [List.cons_append, List.nil_append]
    rw [scan_first (by omega) (begin?_two (by omega) (by omega)), scan_last (by omega) (by omega), hfirst,
      hlast, hbits, hself]
    exact ⟨_, rfl⟩
  · have hfirst : (UInt8.ofNat (v / 4096 % 16 + 224)).toNat = v / 4096 + 0xE0 := by
      rw [toNat_ofNat_of_lt (by omega)]
      omega
    have hsecond := toNat_tail (v / 64)
    have hlast := toNat_tail v
    have hbits : ((v / 4096 + 0xE0 - 0xE0) * 64 + (v / 64 % 64 + 0x80) % 64) * 64 + (v % 64 + 0x80) % 64
        = v := by omega
    simp only [List.cons_append, List.nil_append]
    rw [scan_first (by omega) (begin?_three (by omega) (by omega)),
      scan_further (by split_ifs <;> omega) (by split_ifs <;> omega),
      scan_last (by omega) (by omega), hfirst, hsecond, hlast, hbits, hself]
    exact ⟨_, rfl⟩
  · have hfirst : (UInt8.ofNat (v / 262144 % 8 + 240)).toNat = v / 262144 + 0xF0 := by
      rw [toNat_ofNat_of_lt (by omega)]
      omega
    have hsecond := toNat_tail (v / 4096)
    have hthird := toNat_tail (v / 64)
    have hlast := toNat_tail v
    have hbits : (((v / 262144 + 0xF0 - 0xF0) * 64 + (v / 4096 % 64 + 0x80) % 64) * 64 +
        (v / 64 % 64 + 0x80) % 64) * 64 + (v % 64 + 0x80) % 64 = v := by omega
    simp only [List.cons_append, List.nil_append]
    rw [scan_first (by omega) (begin?_four (by omega) (by omega)),
      scan_further (by split_ifs <;> omega) (by split_ifs <;> omega),
      scan_further (by omega) (by omega),
      scan_last (by omega) (by omega), hfirst, hsecond, hthird, hlast, hbits, hself]
    exact ⟨_, rfl⟩

/-- The bytes of characters are read back as these. -/
theorem scan_utf8 (cs : List Char) (i : Nat) :
    scan i none (cs.flatMap String.utf8EncodeChar) = cs.map .ok := by
  induction cs generalizing i with
  | nil => rfl
  | cons c cs ih =>
    obtain ⟨j, hj⟩ := exists_scan_utf8EncodeChar c i (cs.flatMap String.utf8EncodeChar)
    rw [List.flatMap_cons, hj, ih, List.map_cons]

/-- The tolerant reading of the bytes of characters gives these. -/
theorem decodeTolerant_utf8 (cs : List Char) :
    decodeTolerant (cs.flatMap String.utf8EncodeChar) = cs := by
  rw [decodeTolerant, scan_utf8, List.map_map]
  exact List.map_id cs

end Utf8

/-! ## Percent encoding -/

namespace Percent

/-- Whether a character stands for itself in every part of an address. -/
def isUnreserved (c : Char) : Bool :=
  ('a' ≤ c && c ≤ 'z') || ('A' ≤ c && c ≤ 'Z') || ('0' ≤ c && c ≤ '9') ||
    c == '-' || c == '.' || c == '_' || c == '~'

/-- Bytes in percent encoding. -/
inductive Encodes : List UInt8 → List Char → Prop
  | nil : Encodes [] []
  | plain {c : Char} {bytes : List UInt8} {cs : List Char} (hc : isUnreserved c = true)
      (h : Encodes bytes cs) : Encodes (UInt8.ofNat c.toNat :: bytes) (c :: cs)
  | escaped {b : UInt8} {high low : Char} {m n : Nat} {bytes : List UInt8} {cs : List Char}
      (hhigh : hexValue? high = some m) (hlow : hexValue? low = some n) (hb : b.toNat = 16 * m + n)
      (h : Encodes bytes cs) : Encodes (b :: bytes) ('%' :: high :: low :: cs)

/-- A text in percent encoding. -/
def Spells (text : String) (cs : List Char) : Prop :=
  Encodes (text.toList.flatMap String.utf8EncodeChar) cs

/-! ### Encoding -/

/-- A hexadecimal digit with an upper-case letter. -/
def hexDigit (n : Nat) : Char := Char.ofNat (if n < 10 then 0x30 + n else 0x37 + n)

/-- What stands for a byte: its character if it is unreserved, else a percent sign and two
digits. -/
def encodeByte (b : UInt8) : List Char :=
  if isUnreserved (Char.ofNat b.toNat) then [Char.ofNat b.toNat]
  else ['%', hexDigit (b.toNat / 16), hexDigit (b.toNat % 16)]

/-- A text with every byte encoded that is not unreserved. -/
def encode (text : String) : List Char := (text.toList.flatMap String.utf8EncodeChar).flatMap encodeByte

/-- A hexadecimal digit is read back. -/
theorem hexValue?_hexDigit {n : Nat} (h : n < 16) : hexValue? (hexDigit n) = some n := by
  have hall : ∀ m : Fin 16, hexValue? (hexDigit m) = some m.val := by decide
  exact hall ⟨n, h⟩

/-- What encoding writes spells the text. -/
theorem spells_encode (text : String) : Spells text (encode text) := by
  rw [Spells, encode]
  generalize text.toList.flatMap String.utf8EncodeChar = bytes
  induction bytes with
  | nil => exact .nil
  | cons b bytes ih =>
    have hlt : b.toNat < 256 := b.toNat_lt
    rw [List.flatMap_cons, encodeByte]
    split_ifs with hplain
    · have hbyte : UInt8.ofNat (Char.ofNat b.toNat).toNat = b := by
        rw [Text.toNat_ofNat (.inl (by omega)), UInt8.ofNat_toNat]
      have hencodes := Encodes.plain hplain ih
      rwa [hbyte] at hencodes
    · exact .escaped (hexValue?_hexDigit (by omega)) (hexValue?_hexDigit (by omega)) (by omega) ih

/-! ### Decoding -/

/-- The characters of encoded texts. -/
def isEncodedChar (c : Char) : Bool := isUnreserved c || c == '%'

/-- An encoded text has characters of ASCII alone. -/
theorem toNat_lt_of_isEncodedChar {c : Char} (h : isEncodedChar c = true) : c.toNat < 0x80 := by
  simp only [isEncodedChar, isUnreserved, Bool.or_eq_true, Bool.and_eq_true, decide_eq_true_eq, beq_iff_eq,
    Char.le_def, UInt32.le_iff_toNat_le] at h
  have hc : c.toNat = c.val.toNat := rfl
  obtain (((((((⟨-, h⟩ | ⟨-, h⟩) | ⟨-, h⟩) | rfl) | rfl) | rfl) | rfl)) | rfl := h
  all_goals first
    | decide
    | exact Nat.lt_of_le_of_lt h (by decide)

/-- Hexadecimal digits are unreserved. -/
theorem isUnreserved_of_hexValue? {c : Char} {n : Nat} (h : hexValue? c = some n) :
    isUnreserved c = true := by
  have hbounds : ('0' ≤ c ∧ c ≤ '9') ∨ ('a' ≤ c ∧ c ≤ 'f') ∨ ('A' ≤ c ∧ c ≤ 'F') := by
    unfold hexValue? at h
    split_ifs at h with hdigit hlower hupper
    · exact .inl (by simpa using hdigit)
    · exact .inr (.inl (by simpa using hlower))
    · exact .inr (.inr (by simpa using hupper))
  obtain ⟨hzero, hnine⟩ | ⟨ha, hf⟩ | ⟨ha, hf⟩ := hbounds
  · simp [isUnreserved, hzero, hnine]
  · have hz : c ≤ 'z' := Char.le_trans hf (by decide)
    simp [isUnreserved, ha, hz]
  · have hz : c ≤ 'Z' := Char.le_trans hf (by decide)
    simp [isUnreserved, ha, hz]

/-- What encodes bytes has encoded characters alone. -/
theorem isEncodedChar_of_encodes {bytes : List UInt8} {cs : List Char} (h : Encodes bytes cs) :
    ∀ c ∈ cs, isEncodedChar c = true := by
  induction h with
  | nil => exact nofun
  | plain hc _ ih =>
    refine List.forall_mem_cons.mpr ⟨?_, ih⟩
    rw [isEncodedChar, hc, Bool.true_or]
  | escaped hhigh hlow _ _ ih =>
    refine List.forall_mem_cons.mpr ⟨rfl, List.forall_mem_cons.mpr ⟨?_, List.forall_mem_cons.mpr ⟨?_, ih⟩⟩⟩
    · rw [isEncodedChar, isUnreserved_of_hexValue? hhigh, Bool.true_or]
    · rw [isEncodedChar, isUnreserved_of_hexValue? hlow, Bool.true_or]

/-- A character of ASCII is one byte. -/
theorem utf8EncodeChar_of_ascii {c : Char} (h : c.toNat < 0x80) :
    String.utf8EncodeChar c = [UInt8.ofNat c.toNat] := by
  have hone : c.val.toNat ≤ 0x7F := Nat.le_of_lt_succ h
  rw [String.utf8EncodeChar]
  simp only [if_pos hone]
  rfl

/-- A character of ASCII is found again in its byte. -/
theorem ofNat_toNat_of_ascii {c : Char} (h : c.toNat < 0x80) :
    Char.ofNat (UInt8.ofNat c.toNat).toNat = c := by
  rw [Utf8.toNat_ofNat_of_lt (by omega), Char.ofNat_toNat]

/-- A byte that is no percent sign stands for itself. -/
theorem decodeBytes_plain {b : UInt8} (h : b ≠ 0x25) (rest : List UInt8) :
    decodeBytes (b :: rest) = b :: decodeBytes rest := by
  rw [decodeBytes.eq_def]
  split
  · simp_all
  · simp_all
  · simp_all

/-- What encodes bytes is decoded to them. -/
theorem decodeBytes_of_encodes {bytes : List UInt8} {cs : List Char} (h : Encodes bytes cs) :
    decodeBytes (cs.flatMap String.utf8EncodeChar) = bytes := by
  induction h with
  | nil => rfl
  | @plain c bytes cs hc _ ih =>
    have hascii : c.toNat < 0x80 := toNat_lt_of_isEncodedChar (by rw [isEncodedChar, hc, Bool.true_or])
    have hne : UInt8.ofNat c.toNat ≠ 0x25 := by
      intro hpercent
      have hself := ofNat_toNat_of_ascii hascii
      rw [hpercent] at hself
      rw [← hself] at hc
      exact absurd hc (by decide)
    rw [List.flatMap_cons, utf8EncodeChar_of_ascii hascii, List.singleton_append, decodeBytes_plain hne, ih]
  | @escaped b high low m n bytes cs hhigh hlow hb _ ih =>
    have hascii {c : Char} {k : Nat} (hc : hexValue? c = some k) : c.toNat < 0x80 :=
      toNat_lt_of_isEncodedChar (by rw [isEncodedChar, isUnreserved_of_hexValue? hc, Bool.true_or])
    have hpercent : String.utf8EncodeChar '%' = [0x25] := rfl
    have hbyte : hexByte? (UInt8.ofNat high.toNat) (UInt8.ofNat low.toNat) = some b := by
      rw [hexByte?, ofNat_toNat_of_ascii (hascii hhigh), ofNat_toNat_of_ascii (hascii hlow), hhigh, hlow]
      dsimp only
      rw [← hb, UInt8.ofNat_toNat]
    rw [List.flatMap_cons, List.flatMap_cons, List.flatMap_cons, hpercent,
      utf8EncodeChar_of_ascii (hascii hhigh), utf8EncodeChar_of_ascii (hascii hlow)]
    simp only [List.singleton_append, decodeBytes, hbyte, ih]

/-- An encoded text is decoded to the text. -/
theorem decode_of_spells {text : String} {cs : List Char} (h : Spells text cs) : decode cs = text.toList := by
  rw [decode, decodeBytes_of_encodes h, Utf8.decodeTolerant_utf8]

end Percent

end Quarry.Text
