import Dialogue.Proofs.Text.Utf8
import Dialogue.Text.Percent
import Mathlib.Data.List.Basic
/-!
# `Dialogue.Proofs.Text.Percent` — escapes only ever shrink a name.

An escape takes three ASCII characters and stands for one byte, which is at most one of them; a byte that is no text
becomes a character beyond ASCII. Main statement: decoding a name never yields more ASCII characters than the name has.
-/

namespace Dialogue.Text

/-- The code of an ASCII character other than the null character. -/
def isAsciiCode (n : Nat) : Bool := 0 < n && n < 0x80

/-- How many ASCII characters a text has. -/
def asciiCount (cs : List Char) : Nat := cs.countP fun c => isAsciiCode c.toNat

theorem asciiCount_cons (c : Char) (cs : List Char) : asciiCount (c :: cs) = asciiCount [c] + asciiCount cs := by
  rw [← List.singleton_append]
  exact List.countP_append

theorem asciiCount_append (as bs : List Char) : asciiCount (as ++ bs) = asciiCount as + asciiCount bs :=
  List.countP_append

namespace Utf8

/-- How many bytes stand for an ASCII character. -/
def asciiBytes (bs : Bytes) : Nat := bs.countP fun b => isAsciiCode b.toNat

theorem asciiBytes_cons (b : UInt8) (bs : Bytes) :
    asciiBytes (b :: bs) = asciiBytes bs + if isAsciiCode b.toNat then 1 else 0 := List.countP_cons

theorem asciiBytes_append (as bs : Bytes) : asciiBytes (as ++ bs) = asciiBytes as + asciiBytes bs :=
  List.countP_append

/-! ## §1 — encoding -/

theorem isAsciiCode_of_le {n : Nat} (low : 0x80 ≤ n) : isAsciiCode n = false := by
  simp only [isAsciiCode, Bool.and_eq_false_iff, decide_eq_false_iff_not]
  omega

theorem isAsciiCode_byte {n : Nat} (low : 0x80 ≤ n) (high : n < 0x100) :
    isAsciiCode (UInt8.ofNat n).toNat = false := by
  have same : (UInt8.ofNat n).toNat = n := UInt8.toNat_ofNat_of_lt' high
  rw [same]
  exact isAsciiCode_of_le low

/-- The bytes of a character beyond ASCII stand for none of ASCII. -/
theorem isAsciiCode_of_mem_encodeChar {c : Char} (beyond : 0x80 ≤ c.toNat) {b : UInt8}
    (mem : b ∈ String.utf8EncodeChar c) : isAsciiCode b.toNat = false := by
  have code : c.val.toNat = c.toNat := rfl
  unfold String.utf8EncodeChar at mem
  dsimp only at mem
  rw [code, if_neg (by omega)] at mem
  split at mem
  · simp only [List.mem_cons, List.not_mem_nil, or_false] at mem
    rcases mem with rfl | rfl <;> exact isAsciiCode_byte (by omega) (by omega)
  · split at mem
    · simp only [List.mem_cons, List.not_mem_nil, or_false] at mem
      rcases mem with rfl | rfl | rfl <;> exact isAsciiCode_byte (by omega) (by omega)
    · simp only [List.mem_cons, List.not_mem_nil, or_false] at mem
      rcases mem with rfl | rfl | rfl | rfl <;> exact isAsciiCode_byte (by omega) (by omega)

/-- A character of ASCII is one byte, any other has none of ASCII. -/
theorem asciiBytes_encodeChar (c : Char) : asciiBytes (String.utf8EncodeChar c) = asciiCount [c] := by
  rw [asciiCount, List.countP_singleton]
  by_cases ascii : c.toNat < 0x80
  · have code : c.val.toNat = c.toNat := rfl
    have one : String.utf8EncodeChar c = [UInt8.ofNat c.toNat] := by
      unfold String.utf8EncodeChar
      dsimp only
      rw [code, if_pos (by omega)]
    have same : (UInt8.ofNat c.toNat).toNat = c.toNat := UInt8.toNat_ofNat_of_lt' (Nat.lt_trans ascii (by decide))
    rw [one, asciiBytes, List.countP_singleton, same]
  · have beyond : 0x80 ≤ c.toNat := Nat.not_lt.mp ascii
    rw [isAsciiCode_of_le beyond]
    refine List.countP_eq_zero.mpr fun b mem => ?_
    rw [isAsciiCode_of_mem_encodeChar beyond mem]
    exact Bool.false_ne_true

theorem asciiBytes_encodeList (cs : List Char) : asciiBytes (encodeList cs) = asciiCount cs := by
  induction cs with
  | nil => rfl
  | cons c cs ih =>
    rw [encodeList_cons, asciiBytes_append, asciiBytes_encodeChar, ih, asciiCount_cons c cs]

/-! ## §2 — decoding -/

/-- **How many ASCII characters** a step of decoding yields and leaves. -/
def Piece.ascii : Piece → Nat
  | .scalar c rest => asciiCount [c] + asciiBytes rest
  | .malformed _ rest => asciiBytes rest
  | .truncated => 0

/-- **A step of decoding** yields no ASCII characters but those that stand there as bytes. -/
theorem ascii_next_le (b : UInt8) (bs : Bytes) : (next b bs).ascii ≤ asciiBytes (b :: bs) := by
  cases read : next b bs with
  | scalar c rest =>
    -- the bytes that were read are those of the character
    rw [(reads_of_next read).eq_encodeChar, asciiBytes_append, asciiBytes_encodeChar]
    exact Nat.le_refl _
  | malformed n rest =>
    have later : rest.Sublist (b :: bs) := rest_of_next_malformed read ▸ List.drop_sublist n (b :: bs)
    exact later.countP_le
  | truncated => exact Nat.zero_le _

theorem asciiCount_decodeLenientList_le (bs : Bytes) : asciiCount (decodeLenientList bs) ≤ asciiBytes bs := by
  fun_induction decodeLenientList bs with
  | case1 => exact Nat.le_refl _
  | case2 b bs c rest read _ ih =>
    have step := ascii_next_le b bs
    rw [read] at step
    rw [asciiCount_cons]
    exact Nat.le_trans (Nat.add_le_add_left ih _) step
  | case3 b bs n rest read _ ih =>
    have step := ascii_next_le b bs
    rw [read] at step
    have replaced : asciiCount ['\uFFFD'] = 0 := by decide
    rw [asciiCount_cons, replaced, Nat.zero_add]
    exact Nat.le_trans ih step
  | case4 b bs read => exact Nat.zero_le _

end Utf8

namespace Percent

/-! ## §3 — escapes -/

open Utf8 (asciiBytes asciiBytes_cons)

theorem asciiBytes_unescape_le (bs : Bytes) : asciiBytes (unescape bs) ≤ asciiBytes bs := by
  fun_induction unescape bs with
  | case1 => exact Nat.le_refl _
  | case2 x y rest byte _ ih =>
    have sign : isAsciiCode (0x25 : UInt8).toNat = true := by decide
    rw [asciiBytes_cons, asciiBytes_cons, asciiBytes_cons, asciiBytes_cons, if_pos sign]
    split <;> omega
  | case3 x y rest _ ih =>
    rw [asciiBytes_cons, asciiBytes_cons 0x25]
    omega
  | case4 => exact Nat.le_refl _
  | case5 b bs _ ih =>
    rw [asciiBytes_cons, asciiBytes_cons b]
    omega

/-- **Decoding a name** never yields more ASCII characters than the name has. -/
theorem asciiCount_decode_le (path : List Char) : asciiCount (decode path).toList ≤ asciiCount path := by
  have spaced : asciiCount (path.map fun c => if c = '+' then ' ' else c) = asciiCount path := by
    unfold asciiCount
    rw [List.countP_map]
    refine List.countP_congr fun c _ => ?_
    by_cases plus : c = '+'
    · subst plus
      decide
    · simp [plus]
  calc asciiCount (decode path).toList
      ≤ asciiBytes (unescape (Utf8.encodeList (path.map fun c => if c = '+' then ' ' else c))) := by
        unfold decode Utf8.decodeLenient
        rw [String.toList_ofList]
        exact Utf8.asciiCount_decodeLenientList_le _
    _ ≤ asciiBytes (Utf8.encodeList (path.map fun c => if c = '+' then ' ' else c)) := asciiBytes_unescape_le _
    _ = asciiCount path := by rw [Utf8.asciiBytes_encodeList, spaced]

end Percent

end Dialogue.Text
