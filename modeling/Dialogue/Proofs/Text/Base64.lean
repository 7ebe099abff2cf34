import Dialogue.Proofs.Text.Utf8
import Dialogue.Text.Base64
import Mathlib.Tactic.SplitIfs
/-!
# `Dialogue.Proofs.Text.Base64` — payloads read back.

Three bytes are four numbers of six bits, and a number is a character of the alphabet. Main statement: the text of a byte
string is the one text that is decoded to it.
-/

namespace Dialogue.Text.Base64

/-! ## §1 — the alphabet -/

/-- **A character of the alphabet** stands for a number of six bits, and is the one that stands for it. -/
theorem value?_eq_some_iff {c : Char} {n : Nat} : value? c = some n ↔ n < 64 ∧ digit n = c := by
  refine ⟨fun h => ?_, fun ⟨small, same⟩ => same ▸ value?_digit small⟩
  have back : Char.ofNat c.toNat = c := Char.ofNat_toNat c
  unfold value? at h
  dsimp only at h
  split_ifs at h with upper lower number plus slash
  · obtain rfl := Option.some.inj h
    refine ⟨by omega, ?_⟩
    rw [digit, if_pos (by omega), Nat.add_sub_cancel' upper.1, back]
  · obtain rfl := Option.some.inj h
    refine ⟨by omega, ?_⟩
    rw [digit, if_neg (by omega), if_pos (by omega), Nat.add_sub_cancel' (by omega), back]
  · obtain rfl := Option.some.inj h
    refine ⟨by omega, ?_⟩
    rw [digit, if_neg (by omega), if_neg (by omega), if_pos (by omega), Nat.add_sub_cancel, back]
  · cases h
    exact ⟨by decide, plus.symm⟩
  · cases h
    exact ⟨by decide, slash.symm⟩

/-- The character that fills up the last group stands for nothing. -/
theorem digit_ne_fill {n : Nat} (small : n < 64) : digit n ≠ '=' := by
  intro same
  have value := value?_digit small
  rw [same] at value
  cases value

/-! ## §2 — groups -/

section

variable {x y z w : Nat}

theorem decode?_one (hx : x < 64) (hy : y < 64) (unused : y % 16 = 0) :
    decode? [digit x, digit y, '=', '='] = some [UInt8.ofNat (x * 4 + y / 16)] := by
  simp [decode?, value?_digit hx, value?_digit hy, unused]

theorem decode?_two (hx : x < 64) (hy : y < 64) (hz : z < 64) (unused : z % 4 = 0) :
    decode? [digit x, digit y, digit z, '='] =
      some [UInt8.ofNat (x * 4 + y / 16), UInt8.ofNat (y % 16 * 16 + z / 4)] := by
  simp [decode?, value?_digit hx, value?_digit hy, value?_digit hz, digit_ne_fill hz, unused]

theorem decode?_three (hx : x < 64) (hy : y < 64) (hz : z < 64) (hw : w < 64) (rest : List Char) :
    decode? (digit x :: digit y :: digit z :: digit w :: rest) = (decode? rest).map fun tail =>
      UInt8.ofNat (x * 4 + y / 16) :: UInt8.ofNat (y % 16 * 16 + z / 4) :: UInt8.ofNat (z % 4 * 64 + w) :: tail := by
  have last : digit w ≠ '=' := digit_ne_fill hw
  rw [decode?, value?_digit hx, value?_digit hy, value?_digit hz, value?_digit hw]
  · cases decode? rest <;> rfl
  · exact fun _ same _ => last same
  · exact fun same _ => last same

end

/-! ## §3 — texts -/

/-- **What is encoded is decoded again.** -/
theorem decode?_encode (bs : Bytes) : decode? (encode bs) = some bs := by
  -- the cases are those of a group: none, one byte, two, or three with more to come
  fun_induction encode bs with
  | case1 => rfl
  | case2 a n =>
    have whole : n = a.toNat := rfl
    have range := a.toNat_lt
    have first : n / 4 * 4 + n % 4 * 16 / 16 = a.toNat := by omega
    rw [decode?_one (by omega) (by omega) (by omega), Utf8.byte_eq first]
  | case3 a b n =>
    have whole : n = a.toNat * 256 + b.toNat := rfl
    have rangeA := a.toNat_lt
    have rangeB := b.toNat_lt
    have first : n / 1024 * 4 + n / 16 % 64 / 16 = a.toNat := by omega
    have second : n / 16 % 64 % 16 * 16 + n % 16 * 4 / 4 = b.toNat := by omega
    rw [decode?_two (by omega) (by omega) (by omega) (by omega), Utf8.byte_eq first, Utf8.byte_eq second]
  | case4 a b c rest n ih =>
    have whole : n = (a.toNat * 256 + b.toNat) * 256 + c.toNat := rfl
    have rangeA := a.toNat_lt
    have rangeB := b.toNat_lt
    have rangeC := c.toNat_lt
    have first : n / 262144 * 4 + n / 4096 % 64 / 16 = a.toNat := by omega
    have second : n / 4096 % 64 % 16 * 16 + n / 64 % 64 / 4 = b.toNat := by omega
    have third : n / 64 % 64 % 4 * 64 + n % 64 = c.toNat := by omega
    rw [decode?_three (by omega) (by omega) (by omega) (by omega), ih, Utf8.byte_eq first, Utf8.byte_eq second,
      Utf8.byte_eq third]
    rfl

/-- **Nothing else is decoded.** -/
theorem eq_encode_of_decode? {cs : List Char} {bs : Bytes} (h : decode? cs = some bs) : cs = encode bs := by
  fun_induction decode? cs generalizing bs with
  | case1 =>
    cases h
    rfl
  | case2 p q =>
    simp only [Option.bind_eq_bind, Option.bind_eq_some_iff, value?_eq_some_iff] at h
    obtain ⟨x, ⟨hx, rfl⟩, y, ⟨hy, rfl⟩, h⟩ := h
    split at h
    · -- the four bits that belong to no byte are zero, so that `q` is given by its first two
      rename_i unused
      cases h
      have whole : (UInt8.ofNat (x * 4 + y / 16)).toNat = x * 4 + y / 16 := Utf8.toNat_byte (by omega)
      have first : (x * 4 + y / 16) / 4 = x := by omega
      have second : (x * 4 + y / 16) % 4 * 16 = y := by omega
      rw [encode, whole]
      rw [first, second]
    · cases h
  | case3 p q r =>
    simp only [Option.bind_eq_bind, Option.bind_eq_some_iff, value?_eq_some_iff] at h
    obtain ⟨x, ⟨hx, rfl⟩, y, ⟨hy, rfl⟩, z, ⟨hz, rfl⟩, h⟩ := h
    split at h
    · rename_i unused
      cases h
      have high : (UInt8.ofNat (x * 4 + y / 16)).toNat = x * 4 + y / 16 := Utf8.toNat_byte (by omega)
      have low : (UInt8.ofNat (y % 16 * 16 + z / 4)).toNat = y % 16 * 16 + z / 4 := Utf8.toNat_byte (by omega)
      rw [encode, high, low]
      generalize number : (x * 4 + y / 16) * 256 + (y % 16 * 16 + z / 4) = n
      have first : n / 1024 = x := by omega
      have second : n / 16 % 64 = y := by omega
      have third : n % 16 * 4 = z := by omega
      rw [first, second, third]
    · cases h
  | case4 p q r s rest _ _ ih =>
    simp only [Option.bind_eq_bind, Option.bind_eq_some_iff, value?_eq_some_iff] at h
    obtain ⟨x, ⟨hx, rfl⟩, y, ⟨hy, rfl⟩, z, ⟨hz, rfl⟩, w, ⟨hw, rfl⟩, tail, decoded, h⟩ := h
    cases h
    have high : (UInt8.ofNat (x * 4 + y / 16)).toNat = x * 4 + y / 16 := Utf8.toNat_byte (by omega)
    have middle : (UInt8.ofNat (y % 16 * 16 + z / 4)).toNat = y % 16 * 16 + z / 4 := Utf8.toNat_byte (by omega)
    have low : (UInt8.ofNat (z % 4 * 64 + w)).toNat = z % 4 * 64 + w := Utf8.toNat_byte (by omega)
    rw [encode, high, middle, low, ← ih decoded]
    generalize number : ((x * 4 + y / 16) * 256 + (y % 16 * 16 + z / 4)) * 256 + (z % 4 * 64 + w) = n
    have first : n / 262144 = x := by omega
    have second : n / 4096 % 64 = y := by omega
    have third : n / 64 % 64 = z := by omega
    have fourth : n % 64 = w := by omega
    rw [first, second, third, fourth]
  | case5 => cases h

/-- **The text of a byte string** is the one that is decoded to it. -/
theorem decode?_eq_some_iff {cs : List Char} {bs : Bytes} : decode? cs = some bs ↔ cs = encode bs :=
  ⟨eq_encode_of_decode?, fun h => h ▸ decode?_encode bs⟩

end Dialogue.Text.Base64
