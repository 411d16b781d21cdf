import CatalogSync.Text.Lines
import CatalogSync.Text.Utf8

/-!
Texts that are written as bytes and read back. UTF-8 gives each character back whatever follows it,
and a text without carriage returns passes through the reading of a file as it is.
-/

namespace CatalogSync.Text

/-- The code point of a character is no half of a pair and not past the last one. -/
theorem val_lt_or_gt (c : Char) :
    c.val.toNat < 0xD800 ∨ 0xDFFF < c.val.toNat ∧ c.val.toNat < 0x110000 := by
  have hvalid := c.valid
  simpa only [UInt32.isValidChar, Nat.isValidChar] using hvalid

theorem toNat_byte {n : Nat} (h : n < 256) : (UInt8.ofNat n).toNat = n := UInt8.toNat_ofNat_of_lt h

theorem isContinuation_byte (n : Nat) : isContinuation (UInt8.ofNat (n % 64 + 128)) = true ∧
    tailBits (UInt8.ofNat (n % 64 + 128)) = n % 64 := by
  rw [isContinuation, tailBits, toNat_byte (by omega), Bool.and_eq_true, decide_eq_true_eq,
    decide_eq_true_eq]
  omega

theorem isSecond_eq_true_iff {first second : UInt8} (h : isContinuation second = true) :
    isSecond first second = true ↔ (first.toNat ≠ 0xE0 ∨ 0xA0 ≤ second.toNat) ∧
      (first.toNat ≠ 0xED ∨ second.toNat < 0xA0) ∧ (first.toNat ≠ 0xF0 ∨ 0x90 ≤ second.toNat) ∧
      (first.toNat ≠ 0xF4 ∨ second.toNat < 0x90) := by
  simp only [isSecond, h, Bool.true_and, Bool.and_eq_true, Bool.or_eq_true, bne_iff_ne,
    decide_eq_true_eq, and_assoc]

/-! ### Characters of one to four bytes -/

section
variable {position : Nat} {a b c d : UInt8} {rest : List UInt8}

theorem decodeFrom_one (ha : a.toNat < 0x80) : decodeFrom position (a :: rest) =
    (decodeFrom (position + 1) rest).map (Char.ofNat a.toNat :: ·) := by
  rw [decodeFrom.eq_def]
  exact if_pos ha

theorem decodeFrom_two (ha : 0xC2 ≤ a.toNat ∧ a.toNat < 0xE0) (hb : isSecond a b = true) :
    decodeFrom position (a :: b :: rest) = (decodeFrom (position + 2) rest).map
      (Char.ofNat (a.toNat % 0x20 * 0x40 + tailBits b) :: ·) := by
  rw [decodeFrom.eq_def]
  dsimp only
  rw [if_neg (by omega), if_neg (by omega), if_neg (by simp [hb]), if_pos ha.2]

theorem decodeFrom_three (ha : 0xE0 ≤ a.toNat ∧ a.toNat < 0xF0) (hb : isSecond a b = true)
    (hc : isContinuation c = true) :
    decodeFrom position (a :: b :: c :: rest) = (decodeFrom (position + 3) rest).map
      (Char.ofNat ((a.toNat % 0x10 * 0x40 + tailBits b) * 0x40 + tailBits c) :: ·) := by
  rw [decodeFrom.eq_def]
  dsimp only
  rw [if_neg (by omega), if_neg (by omega), if_neg (by simp [hb]), if_neg (by omega),
    if_neg (by simp [hc]), if_pos ha.2]

theorem decodeFrom_four (ha : 0xF0 ≤ a.toNat ∧ a.toNat ≤ 0xF4) (hb : isSecond a b = true)
    (hc : isContinuation c = true) (hd : isContinuation d = true) :
    decodeFrom position (a :: b :: c :: d :: rest) = (decodeFrom (position + 4) rest).map
      (Char.ofNat (((a.toNat % 0x08 * 0x40 + tailBits b) * 0x40 + tailBits c) * 0x40
        + tailBits d) :: ·) := by
  rw [decodeFrom.eq_def]
  dsimp only
  rw [if_neg (by omega), if_neg (by omega), if_neg (by simp [hb]), if_neg (by omega),
    if_neg (by simp [hc]), if_neg (by omega), if_neg (by simp [hd])]

end

/-- The bytes of a character are read as the character, whatever follows them. -/
theorem decodeFrom_append (c : Char) (position : Nat) (rest : List UInt8) :
    decodeFrom position (String.utf8EncodeChar c ++ rest) =
      (decodeFrom (position + (String.utf8EncodeChar c).length) rest).map (c :: ·) := by
  have hvalid := val_lt_or_gt c
  have hchar : ∀ n, n = c.val.toNat → Char.ofNat n = c := by
    rintro n rfl
    exact Char.ofNat_toNat c
  rw [String.utf8EncodeChar]
  generalize c.val.toNat = v at hvalid hchar
  split
  next h =>
    have ha := toNat_byte (n := v) (by omega)
    rw [List.cons_append, List.nil_append, decodeFrom_one (by omega), ha, hchar v rfl]
    rfl
  split
  next h =>
    have ha := toNat_byte (n := v / 64 % 32 + 192) (by omega)
    obtain ⟨hb, hbits⟩ := isContinuation_byte v
    rw [List.cons_append, List.cons_append, List.nil_append, decodeFrom_two (by omega)
      ((isSecond_eq_true_iff hb).2 (by omega)), ha, hbits, hchar _ (by omega)]
    rfl
  split
  next h =>
    have ha := toNat_byte (n := v / 4096 % 16 + 224) (by omega)
    have hbyte := toNat_byte (n := v / 64 % 64 + 128) (by omega)
    obtain ⟨hb, hbits⟩ := isContinuation_byte (v / 64)
    obtain ⟨hc, hcbits⟩ := isContinuation_byte v
    rw [List.cons_append, List.cons_append, List.cons_append, List.nil_append,
      decodeFrom_three (by omega) ((isSecond_eq_true_iff hb).2 (by omega)) hc, ha, hbits, hcbits,
      hchar _ (by omega)]
    rfl
  next h =>
    have ha := toNat_byte (n := v / 262144 % 8 + 240) (by omega)
    have hbyte := toNat_byte (n := v / 4096 % 64 + 128) (by omega)
    obtain ⟨hb, hbits⟩ := isContinuation_byte (v / 4096)
    obtain ⟨hc, hcbits⟩ := isContinuation_byte (v / 64)
    obtain ⟨hd, hdbits⟩ := isContinuation_byte v
    rw [List.cons_append, List.cons_append, List.cons_append, List.cons_append, List.nil_append,
      decodeFrom_four (by omega) ((isSecond_eq_true_iff hb).2 (by omega)) hc hd, ha, hbits, hcbits,
      hdbits, hchar _ (by omega)]
    rfl

theorem decode_encode (s : List Char) : decode (encode s) = .ok s := by
  have hfrom : ∀ position, decodeFrom position (encode s) = .ok s := by
    induction s with
    | nil => exact fun _ => rfl
    | cons c s ih =>
      intro position
      have hcons : encode (c :: s) = String.utf8EncodeChar c ++ encode s := rfl
      rw [hcons, decodeFrom_append, ih]
      rfl
  exact hfrom 0

/-- A text without carriage returns has its lines ended by line feeds alone. -/
theorem unifyBreaks_eq_self {s : List Char} (h : '\r' ∉ s) : unifyBreaks s = s := by
  induction s with
  | nil => rfl
  | cons c s ih =>
    have hc : c ≠ '\r' := fun hc => h (hc ▸ List.mem_cons_self)
    have hs := ih fun hmem => h (List.mem_cons_of_mem _ hmem)
    rw [unifyBreaks, if_neg hc, hs]
    exact fun _ hreturn _ => hc hreturn

end CatalogSync.Text
