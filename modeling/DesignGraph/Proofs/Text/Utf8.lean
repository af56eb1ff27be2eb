import Mathlib.Data.Nat.Notation
import Mathlib.Logic.Basic
import Mathlib.Tactic.Conv
import DesignGraph.Text.Utf8

/-! # Text in UTF-8 is read back, and nothing else is

A character is encoded as a byte that tells how many continuation bytes follow it, and those bytes. There
are four forms (`utf8Form?_one` to `utf8Form?_four`), and a continuation byte contributes six bits
(`utf8Continue_tail`). So decoding takes the bytes of a character for this character
(`exists_utf8Form?`), and by induction on the text gives all of it back (`decodeUtf8_encodeUtf8`).

Nothing else is read. The bounds of a form and of its first continuation byte leave just the bytes of one
character (`utf8EncodeChar_of_form`), so bytes that are read as a text are this text in UTF-8
(`decodeUtf8_eq_ok_iff`). -/

namespace DesignGraph.Text

/-! ### The bytes of a character -/

section

variable {b : UInt8}

theorem utf8Form?_one (h : b.toNat < 0x80) : utf8Form? b = some (0, 0x80, 0xbf, b.toNat) :=
  if_pos (UInt8.lt_iff_toNat_lt.2 h)

theorem utf8Form?_two (h : 0xc2 ≤ b.toNat) (h' : b.toNat < 0xe0) :
    utf8Form? b = some (1, 0x80, 0xbf, b.toNat - 0xc0) := by
  simp only [utf8Form?, UInt8.lt_iff_toNat_lt, UInt8.toNat_ofNat]
  rw [if_neg (by omega), if_neg (by omega), if_pos (by omega)]

theorem utf8Form?_three (h : 0xe0 ≤ b.toNat) (h' : b.toNat < 0xf0) :
    utf8Form? b = some (2, if b = 0xe0 then 0xa0 else 0x80, if b = 0xed then 0x9f else 0xbf,
      b.toNat - 0xe0) := by
  simp only [utf8Form?, UInt8.lt_iff_toNat_lt, UInt8.toNat_ofNat]
  rw [if_neg (by omega), if_neg (by omega), if_neg (by omega), if_pos (by omega)]

theorem utf8Form?_four (h : 0xf0 ≤ b.toNat) (h' : b.toNat < 0xf5) :
    utf8Form? b = some (3, if b = 0xf0 then 0x90 else 0x80, if b = 0xf4 then 0x8f else 0xbf,
      b.toNat - 0xf0) := by
  simp only [utf8Form?, UInt8.lt_iff_toNat_lt, UInt8.toNat_ofNat]
  rw [if_neg (by omega), if_neg (by omega), if_neg (by omega), if_neg (by omega), if_pos (by omega)]

end

/-- The continuation byte for six bits. -/
def tailByte (x : ℕ) : UInt8 := .ofNat (x % 64 + 128)

theorem toNat_tailByte (x : ℕ) : (tailByte x).toNat = x % 64 + 128 := by
  rw [tailByte, UInt8.toNat_ofNat']
  omega

theorem toNat_startByte {x : ℕ} (h : x < 256) : (UInt8.ofNat x).toNat = x := by
  rw [UInt8.toNat_ofNat']
  omega

theorem toNat_bound (b k p q : UInt8) :
    (if b = k then p else q).toNat = if b.toNat = k.toNat then p.toNat else q.toNat := by
  rw [apply_ite UInt8.toNat]
  simp only [UInt8.toNat_inj]

variable {n good code x : ℕ} {least greatest : UInt8} {bytes rest : List UInt8}

/-- A continuation byte in range contributes its bits. -/
theorem utf8Continue_tail (hleast : least.toNat ≤ x % 64 + 128) (hgreatest : x % 64 + 128 ≤ greatest.toNat) :
    utf8Continue (n + 1) least greatest good code (tailByte x :: bytes) =
      utf8Continue n 0x80 0xbf (good + 1) (64 * code + x % 64) bytes := by
  have hin : least ≤ tailByte x ∧ tailByte x ≤ greatest := by
    rw [UInt8.le_iff_toNat_le, UInt8.le_iff_toNat_le, toNat_tailByte]
    exact ⟨hleast, hgreatest⟩
  rw [utf8Continue, if_pos hin, toNat_tailByte, Nat.add_sub_cancel]

/-- Behind the first one, every continuation byte is in range. -/
theorem utf8Continue_next :
    utf8Continue (n + 1) 0x80 0xbf good code (tailByte x :: bytes) =
      utf8Continue n 0x80 0xbf (good + 1) (64 * code + x % 64) bytes :=
  utf8Continue_tail (by change 128 ≤ _; omega) (by change _ ≤ 191; omega)

/-- The bytes of a character, by its number. -/
theorem utf8EncodeChar_eq (c : Char) : String.utf8EncodeChar c =
    if c.toNat ≤ 127 then [UInt8.ofNat c.toNat]
    else if c.toNat ≤ 2047 then [UInt8.ofNat (c.toNat / 64 % 32 + 192), tailByte c.toNat]
    else if c.toNat ≤ 65535 then
      [UInt8.ofNat (c.toNat / 4096 % 16 + 224), tailByte (c.toNat / 64), tailByte c.toNat]
    else
      [UInt8.ofNat (c.toNat / 262144 % 8 + 240), tailByte (c.toNat / 4096), tailByte (c.toNat / 64),
        tailByte c.toNat] := rfl

/-- The bytes of a character are a form with its continuation, and these make up the character. -/
theorem exists_utf8Form? (c : Char) (rest : List UInt8) : ∃ b bytes count least greatest code,
    String.utf8EncodeChar c ++ rest = b :: bytes ∧
      utf8Form? b = some (count, least, greatest, code) ∧
      utf8Continue count least greatest 0 code bytes = .ok (c.toNat, rest) := by
  have hvalid : c.toNat < 0xd800 ∨ (0xdfff < c.toNat ∧ c.toNat < 0x110000) := c.valid
  have henc := utf8EncodeChar_eq c
  generalize c.toNat = v at hvalid henc ⊢
  rw [henc]
  split
  · have hb := toNat_startByte (x := v) (by omega)
    simp only [List.cons_append, List.nil_append]
    refine ⟨_, _, _, _, _, _, rfl, utf8Form?_one (by omega), ?_⟩
    rw [utf8Continue, hb]
  split
  · have hb := toNat_startByte (x := v / 64 % 32 + 192) (by omega)
    simp only [List.cons_append, List.nil_append]
    refine ⟨_, _, _, _, _, _, rfl, utf8Form?_two (by omega) (by omega), ?_⟩
    rw [utf8Continue_next, hb, utf8Continue]
    congr 2
    omega
  split
  · have hb := toNat_startByte (x := v / 4096 % 16 + 224) (by omega)
    simp only [List.cons_append, List.nil_append]
    refine ⟨_, _, _, _, _, _, rfl, utf8Form?_three (by omega) (by omega), ?_⟩
    -- the first continuation byte has a bound of its own below 0x1000 and above 0xcfff
    rw [utf8Continue_tail, hb, utf8Continue_next, utf8Continue]
    · congr 2
      omega
    · rw [toNat_bound, hb]
      change (if _ = 224 then 160 else 128) ≤ _
      split <;> omega
    · rw [toNat_bound, hb]
      change _ ≤ if _ = 237 then 159 else 191
      split <;> omega
  · have hb := toNat_startByte (x := v / 262144 % 8 + 240) (by omega)
    simp only [List.cons_append, List.nil_append]
    refine ⟨_, _, _, _, _, _, rfl, utf8Form?_four (by omega) (by omega), ?_⟩
    -- the same below 0x40000 and above 0xfffff
    rw [utf8Continue_tail, hb, utf8Continue_next, utf8Continue_next, utf8Continue]
    · congr 2
      omega
    · rw [toNat_bound, hb]
      change (if _ = 240 then 144 else 128) ≤ _
      split <;> omega
    · rw [toNat_bound, hb]
      change _ ≤ if _ = 244 then 143 else 191
      split <;> omega

/-! ### Texts -/

/-- **The step**: the bytes of a character are read as this character. -/
theorem decodeUtf8From_char (c : Char) (n position : ℕ) (rest : List UInt8) : ∃ position',
    decodeUtf8From (n + 1) position (String.utf8EncodeChar c ++ rest) =
      (decodeUtf8From n position' rest).map (c :: ·) := by
  obtain ⟨b, bytes, count, least, greatest, code, hbytes, hform, htail⟩ := exists_utf8Form? c rest
  refine ⟨position + count + 1, ?_⟩
  rw [hbytes, decodeUtf8From, hform]
  simp only [htail, Char.ofNat_toNat]
  cases decodeUtf8From n (position + count + 1) rest <;> rfl

theorem decodeUtf8From_flatMap (text : List Char) : ∀ (n position : ℕ), text.length ≤ n →
    decodeUtf8From n position (text.flatMap String.utf8EncodeChar) = .ok text := by
  induction text with
  | nil =>
    intro n position _
    cases n <;> rfl
  | cons c text ih =>
    intro n position hn
    obtain ⟨n, rfl⟩ : ∃ m, n = m + 1 := ⟨n - 1, by rw [List.length_cons] at hn; omega⟩
    obtain ⟨position', hstep⟩ :=
      decodeUtf8From_char c n position (text.flatMap String.utf8EncodeChar)
    rw [List.flatMap_cons, hstep, ih n position' (by simpa using hn)]
    rfl

theorem encodeUtf8_eq_flatMap (text : String) :
    encodeUtf8 text = text.toList.flatMap String.utf8EncodeChar := by
  conv_lhs => rw [encodeUtf8, ← String.ofList_toList (s := text), String.toUTF8_eq_toByteArray,
    String.toByteArray_ofList, List.utf8Encode, List.data_toByteArray]

theorem length_le_flatMap (text : List Char) :
    text.length ≤ (text.flatMap String.utf8EncodeChar).length := by
  induction text with
  | nil => exact Nat.le_refl 0
  | cons c text ih =>
    have hpos := c.utf8Size_pos
    rw [List.flatMap_cons, List.length_cons, List.length_append, String.length_utf8EncodeChar]
    omega

/-- **Text in UTF-8 is read back**. -/
theorem decodeUtf8_encodeUtf8 (text : String) : decodeUtf8 (encodeUtf8 text) = .ok text.toList := by
  rw [decodeUtf8, encodeUtf8_eq_flatMap]
  exact decodeUtf8From_flatMap _ _ 0 (length_le_flatMap _)

/-! ### Bytes that are a text -/

theorem utf8Form?_cases {b : UInt8} {form : ℕ × UInt8 × UInt8 × ℕ} (h : utf8Form? b = some form) :
    (b.toNat < 0x80 ∧ form = (0, 0x80, 0xbf, b.toNat)) ∨
    (0xc2 ≤ b.toNat ∧ b.toNat < 0xe0 ∧ form = (1, 0x80, 0xbf, b.toNat - 0xc0)) ∨
    (0xe0 ≤ b.toNat ∧ b.toNat < 0xf0 ∧
      form = (2, if b = 0xe0 then 0xa0 else 0x80, if b = 0xed then 0x9f else 0xbf, b.toNat - 0xe0)) ∨
    (0xf0 ≤ b.toNat ∧ b.toNat < 0xf5 ∧
      form = (3, if b = 0xf0 then 0x90 else 0x80, if b = 0xf4 then 0x8f else 0xbf, b.toNat - 0xf0)) := by
  simp only [utf8Form?, UInt8.lt_iff_toNat_lt, UInt8.toNat_ofNat] at h
  split at h
  · exact .inl ⟨by omega, (Option.some.inj h).symm⟩
  split at h
  · cases h
  split at h
  · exact .inr (.inl ⟨by omega, by omega, (Option.some.inj h).symm⟩)
  split at h
  · exact .inr (.inr (.inl ⟨by omega, by omega, (Option.some.inj h).symm⟩))
  split at h
  · exact .inr (.inr (.inr ⟨by omega, by omega, (Option.some.inj h).symm⟩))
  · cases h

/-- A continuation that is read starts with a byte in range. -/
theorem utf8Continue_succ_eq_ok {result : ℕ × List UInt8}
    (h : utf8Continue (n + 1) least greatest good code bytes = .ok result) : ∃ b tail, bytes = b :: tail ∧
      least.toNat ≤ b.toNat ∧ b.toNat ≤ greatest.toNat ∧
      utf8Continue n 0x80 0xbf (good + 1) (64 * code + (b.toNat - 0x80)) tail = .ok result := by
  cases bytes with
  | nil => cases h
  | cons b tail =>
    rw [utf8Continue] at h
    split at h
    · rename_i hin
      rw [UInt8.le_iff_toNat_le, UInt8.le_iff_toNat_le] at hin
      exact ⟨b, tail, rfl, hin.1, hin.2, h⟩
    · cases h

theorem startByte_eq {b : UInt8} (h : b.toNat = x) : UInt8.ofNat x = b := by
  rw [← h, UInt8.ofNat_toNat]

theorem tailByte_eq {b : UInt8} (h : b.toNat = x % 64 + 128) : tailByte x = b := startByte_eq h

theorem toNat_ofNat_of_isValidChar {v : ℕ} (h : v.isValidChar) : (Char.ofNat v).toNat = v := by
  rw [Char.ofNat, dif_pos h]
  rfl

/-- A form with its continuation is the bytes of the character that they make up. -/
theorem utf8EncodeChar_of_form {b : UInt8} {count v : ℕ} (hform : utf8Form? b = some (count, least, greatest, code))
    (htail : utf8Continue count least greatest 0 code bytes = .ok (v, rest)) :
    String.utf8EncodeChar (Char.ofNat v) ++ rest = b :: bytes := by
  rw [utf8EncodeChar_eq]
  rcases utf8Form?_cases hform with ⟨h, he⟩ | ⟨h, h', he⟩ | ⟨h, h', he⟩ | ⟨h, h', he⟩ <;> cases he
  · rw [utf8Continue] at htail
    obtain ⟨hv, rfl⟩ := Prod.mk.inj (Except.ok.inj htail)
    rw [toNat_ofNat_of_isValidChar (.inl (by omega)), if_pos (by omega), startByte_eq hv]
    rfl
  · obtain ⟨b₁, tail, rfl, hb₁, hb₁', htail⟩ := utf8Continue_succ_eq_ok htail
    change 128 ≤ _ at hb₁
    change _ ≤ 191 at hb₁'
    rw [utf8Continue] at htail
    obtain ⟨hv, rfl⟩ := Prod.mk.inj (Except.ok.inj htail)
    rw [toNat_ofNat_of_isValidChar (.inl (by omega)), if_neg (by omega), if_pos (by omega),
      startByte_eq (b := b) (by omega), tailByte_eq (b := b₁) (by omega)]
    rfl
  · obtain ⟨b₁, tail, rfl, hb₁, hb₁', htail⟩ := utf8Continue_succ_eq_ok htail
    obtain ⟨b₂, tail, rfl, hb₂, hb₂', htail⟩ := utf8Continue_succ_eq_ok htail
    rw [toNat_bound] at hb₁ hb₁'
    have hleast : 128 ≤ b₁.toNat ∧ (b.toNat = 224 → 160 ≤ b₁.toNat) := by
      change (if _ = 224 then 160 else 128) ≤ _ at hb₁
      split at hb₁ <;> omega
    have hgreatest : b₁.toNat ≤ 191 ∧ (b.toNat = 237 → b₁.toNat ≤ 159) := by
      change _ ≤ (if _ = 237 then 159 else 191) at hb₁'
      split at hb₁' <;> omega
    change 128 ≤ _ at hb₂
    change _ ≤ 191 at hb₂'
    rw [utf8Continue] at htail
    obtain ⟨hv, rfl⟩ := Prod.mk.inj (Except.ok.inj htail)
    have hvalid : v < 0xd800 ∨ (0xdfff < v ∧ v < 0x110000) := by omega
    rw [toNat_ofNat_of_isValidChar hvalid, if_neg (by omega), if_neg (by omega), if_pos (by omega),
      startByte_eq (b := b) (by omega), tailByte_eq (b := b₁) (by omega), tailByte_eq (b := b₂) (by omega)]
    rfl
  · obtain ⟨b₁, tail, rfl, hb₁, hb₁', htail⟩ := utf8Continue_succ_eq_ok htail
    obtain ⟨b₂, tail, rfl, hb₂, hb₂', htail⟩ := utf8Continue_succ_eq_ok htail
    obtain ⟨b₃, tail, rfl, hb₃, hb₃', htail⟩ := utf8Continue_succ_eq_ok htail
    rw [toNat_bound] at hb₁ hb₁'
    have hleast : 128 ≤ b₁.toNat ∧ (b.toNat = 240 → 144 ≤ b₁.toNat) := by
      change (if _ = 240 then 144 else 128) ≤ _ at hb₁
      split at hb₁ <;> omega
    have hgreatest : b₁.toNat ≤ 191 ∧ (b.toNat = 244 → b₁.toNat ≤ 143) := by
      change _ ≤ (if _ = 244 then 143 else 191) at hb₁'
      split at hb₁' <;> omega
    change 128 ≤ _ at hb₂ hb₃
    change _ ≤ 191 at hb₂' hb₃'
    rw [utf8Continue] at htail
    obtain ⟨hv, rfl⟩ := Prod.mk.inj (Except.ok.inj htail)
    have hvalid : v < 0xd800 ∨ (0xdfff < v ∧ v < 0x110000) := by omega
    rw [toNat_ofNat_of_isValidChar hvalid, if_neg (by omega), if_neg (by omega), if_neg (by omega),
      startByte_eq (b := b) (by omega), tailByte_eq (b := b₁) (by omega), tailByte_eq (b := b₂) (by omega),
      tailByte_eq (b := b₃) (by omega)]
    rfl

theorem length_le_of_utf8Continue {count v : ℕ} : ∀ {least greatest : UInt8} {good code : ℕ} {bytes : List UInt8},
    utf8Continue count least greatest good code bytes = .ok (v, rest) → rest.length ≤ bytes.length := by
  induction count with
  | zero =>
    intro least greatest good code bytes h
    rw [utf8Continue] at h
    obtain ⟨-, rfl⟩ := Prod.mk.inj (Except.ok.inj h)
    exact Nat.le_refl _
  | succ count ih =>
    intro least greatest good code bytes h
    obtain ⟨b, tail, rfl, -, -, h⟩ := utf8Continue_succ_eq_ok h
    exact Nat.le_succ_of_le (ih h)

theorem flatMap_of_decodeUtf8From {n : ℕ} : ∀ {position : ℕ} {bytes : List UInt8} {text : List Char},
    bytes.length ≤ n → decodeUtf8From n position bytes = .ok text → text.flatMap String.utf8EncodeChar = bytes := by
  induction n with
  | zero =>
    intro position bytes text hn h
    rw [decodeUtf8From] at h
    rw [← Except.ok.inj h, List.eq_nil_of_length_eq_zero (Nat.le_zero.1 hn)]
    rfl
  | succ n ih =>
    intro position bytes text hn h
    cases bytes with
    | nil =>
      rw [decodeUtf8From] at h
      rw [← Except.ok.inj h]
      rfl
    | cons b bytes =>
      rw [decodeUtf8From] at h
      split at h
      · cases h
      rename_i count least greatest code hform
      split at h
      · cases h
      rename_i v rest htail
      cases hrest : decodeUtf8From n (position + count + 1) rest with
      | error e =>
        rw [hrest] at h
        cases h
      | ok text' =>
        rw [hrest] at h
        have hshort : rest.length ≤ n :=
          Nat.le_trans (length_le_of_utf8Continue htail) (Nat.le_of_succ_le_succ hn)
        rw [← Except.ok.inj h, List.flatMap_cons, ih hshort hrest, utf8EncodeChar_of_form hform htail]

/-- **Bytes are read as a text** exactly if they are this text in UTF-8. -/
theorem decodeUtf8_eq_ok_iff {bytes : List UInt8} {text : List Char} :
    decodeUtf8 bytes = .ok text ↔ bytes = encodeUtf8 (String.ofList text) := by
  constructor
  · intro h
    rw [encodeUtf8_eq_flatMap, String.toList_ofList]
    exact (flatMap_of_decodeUtf8From (Nat.le_refl _) h).symm
  · rintro rfl
    rw [decodeUtf8_encodeUtf8, String.toList_ofList]

/-! ### Ends of lines -/

/-- Text without carriage returns is left as it is. -/
theorem unifyLineEnds_eq_self {text : List Char} (h : '\r' ∉ text) : unifyLineEnds text = text := by
  induction text with
  | nil => rfl
  | cons c text ih =>
    obtain ⟨hc, ht⟩ := not_or.1 (List.mem_cons.not.1 h)
    rw [unifyLineEnds, ih ht]
    · exact fun _ hr _ => hc hr.symm
    · exact fun hr => hc hr.symm

end DesignGraph.Text
