import Dialogue.Proofs.Text.Percent
import Dialogue.Proofs.Text.Utf8
/-!
# `Dialogue.Proofs.Text.Spelling` — the ways to write a file name in a reference.

A name has many spellings: each of its characters may stand for itself or be escaped byte by byte, with digits of either
case, and a space has a sign of its own. Main statement: whichever spelling is chosen, it is decoded to the name.
-/

namespace Dialogue.Text.Percent

/-! ## §1 — spellings -/

/-- **A hexadecimal digit** of the given value, of either case. -/
def IsDigit (value : Nat) (c : Char) : Prop :=
  c = Nat.digitChar value ∨ c = (Nat.digitChar value).toUpper

instance (value : Nat) (c : Char) : Decidable (IsDigit value c) :=
  inferInstanceAs (Decidable (c = Nat.digitChar value ∨ c = (Nat.digitChar value).toUpper))

/-- **Bytes that are all escaped.** -/
inductive Escapes : Bytes → List Char → Prop
  | nil : Escapes [] []
  | cons {b : UInt8} {bytes : Bytes} {high low : Char} {written : List Char} (first : IsDigit (b.toNat / 16) high)
    (second : IsDigit (b.toNat % 16) low) (rest : Escapes bytes written) :
    Escapes (b :: bytes) ('%' :: high :: low :: written)

/-- **A name and a spelling of it**, character by character. -/
inductive Spells : List Char → List Char → Prop
  | nil : Spells [] []
  | itself {c : Char} {name written : List Char} (plain : c ≠ '+' ∧ c ≠ '%') (rest : Spells name written) :
    Spells (c :: name) (c :: written)
  | space {name written : List Char} (rest : Spells name written) : Spells (' ' :: name) ('+' :: written)
  | escaped {c : Char} {name escapes written : List Char} (bytes : Escapes (String.utf8EncodeChar c) escapes)
    (rest : Spells name written) : Spells (c :: name) (escapes ++ written)

/-- Escapes come apart where the bytes do. -/
theorem Escapes.of_append {bytes more : Bytes} {written : List Char} (h : Escapes (bytes ++ more) written) :
    ∃ front back, written = front ++ back ∧ Escapes bytes front ∧ Escapes more back := by
  induction bytes generalizing written with
  | nil => exact ⟨[], written, rfl, .nil, h⟩
  | cons b bytes ih =>
    cases h with
    | cons first second rest =>
      obtain ⟨front, back, rfl, here, there⟩ := ih rest
      exact ⟨_ :: _ :: _ :: front, back, rfl, .cons first second here, there⟩

/-- **A name may be escaped as a whole.** -/
theorem Escapes.spells {name written : List Char} (h : Escapes (Utf8.encodeList name) written) :
    Spells name written := by
  induction name generalizing written with
  | nil =>
    cases h with
    | nil => exact .nil
  | cons c name ih =>
    rw [Utf8.encodeList_cons] at h
    obtain ⟨front, back, rfl, here, there⟩ := h.of_append
    exact .escaped here (ih there)

/-! ## §2 — one byte at a time -/

/-- A digit is one byte, has its value, and is no sign. -/
theorem IsDigit.read {value : Nat} {c : Char} (h : IsDigit value c) (small : value < 16) :
    (∃ b, String.utf8EncodeChar c = [b] ∧ hexValue? b = some value) ∧ c ≠ '+' := by
  have all : ∀ v : Fin 16, [Nat.digitChar v, (Nat.digitChar v).toUpper].all (fun c =>
      String.utf8EncodeChar c = [UInt8.ofNat c.toNat] ∧ hexValue? (UInt8.ofNat c.toNat) = some v.val ∧ c ≠ '+') := by
    decide
  obtain ⟨one, same, sign⟩ := of_decide_eq_true
    (List.all_eq_true.mp (all ⟨value, small⟩) c (by simpa [IsDigit] using h))
  exact ⟨⟨_, one, same⟩, sign⟩

theorem hexPair?_digits {b x y : UInt8} (first : hexValue? x = some (b.toNat / 16))
    (second : hexValue? y = some (b.toNat % 16)) : hexPair? x y = some b := by
  have whole : b.toNat / 16 * 16 + b.toNat % 16 = b.toNat := Nat.div_add_mod' _ _
  rw [hexPair?, first, second]
  dsimp only
  rw [whole, UInt8.ofNat_toNat]

theorem unescape_pair {x y byte : UInt8} (rest : Bytes) (h : hexPair? x y = some byte) :
    unescape (0x25 :: x :: y :: rest) = byte :: unescape rest := by
  rw [unescape, if_pos rfl]
  simp only [h]

theorem unescape_cons {b : UInt8} (bs : Bytes) (h : b ≠ 0x25) : unescape (b :: bs) = b :: unescape bs := by
  rw [unescape.eq_def]
  exact if_neg h

/-- Bytes without a `%` stand for themselves. -/
theorem unescape_plain {bs : Bytes} (h : ∀ b ∈ bs, b ≠ 0x25) (rest : Bytes) :
    unescape (bs ++ rest) = bs ++ unescape rest := by
  induction bs with
  | nil => rfl
  | cons b bs ih =>
    obtain ⟨first, others⟩ := List.forall_mem_cons.mp h
    rw [List.cons_append, unescape_cons _ first, ih others, List.cons_append]

/-- No byte of a character is a `%`, unless the character is. -/
theorem plain_encodeChar {c : Char} (h : c ≠ '%') : ∀ b ∈ String.utf8EncodeChar c, b ≠ 0x25 := by
  rintro b mem rfl
  by_cases ascii : c.toNat < 0x80
  · have code : c.val.toNat = c.toNat := rfl
    have one : String.utf8EncodeChar c = [UInt8.ofNat c.toNat] := by
      unfold String.utf8EncodeChar
      dsimp only
      rw [code, if_pos (by omega)]
    rw [one, List.mem_singleton] at mem
    have same : (0x25 : UInt8).toNat = c.toNat :=
      (congrArg UInt8.toNat mem).trans (UInt8.toNat_ofNat_of_lt' (Nat.lt_trans ascii (by decide)))
    exact h (Char.toNat_inj.mp same.symm)
  · -- beyond ASCII no byte of a character is a code of ASCII
    have none := Utf8.isAsciiCode_of_mem_encodeChar (Nat.not_lt.mp ascii) mem
    exact absurd none (by decide)

/-! ## §3 — spellings are decoded -/

/-- The sign that stands for a space, read. -/
def readSpace (c : Char) : Char := if c = '+' then ' ' else c

theorem readSpace_of_ne {c : Char} (h : c ≠ '+') : readSpace c = c := if_neg h

theorem map_readSpace_escapes {bytes : Bytes} {written : List Char} (h : Escapes bytes written) :
    written.map readSpace = written := by
  induction h with
  | nil => rfl
  | @cons b _ _ _ _ first second _ ih =>
    have high := (first.read (by have := b.toNat_lt; omega)).2
    have low := (second.read (Nat.mod_lt _ (by decide))).2
    rw [List.map_cons, List.map_cons, List.map_cons, ih, readSpace_of_ne high, readSpace_of_ne low]
    rfl

/-- **Escapes are read as the bytes behind them.** -/
theorem unescape_escapes {bytes : Bytes} {written : List Char} (h : Escapes bytes written) (rest : Bytes) :
    unescape (Utf8.encodeList written ++ rest) = bytes ++ unescape rest := by
  induction h with
  | nil => rfl
  | @cons b bytes high low written first second _ ih =>
    obtain ⟨⟨x, bytesHigh, valueHigh⟩, -⟩ := first.read (by have := b.toNat_lt; omega)
    obtain ⟨⟨y, bytesLow, valueLow⟩, -⟩ := second.read (Nat.mod_lt _ (by decide))
    have sign : String.utf8EncodeChar '%' = [0x25] := by decide
    rw [Utf8.encodeList_cons, Utf8.encodeList_cons, Utf8.encodeList_cons, sign, bytesHigh, bytesLow]
    show unescape (0x25 :: x :: y :: (Utf8.encodeList written ++ rest)) = b :: (bytes ++ unescape rest)
    rw [unescape_pair _ (hexPair?_digits valueHigh valueLow), ih]

theorem unescape_spelling {name written : List Char} (h : Spells name written) :
    unescape (Utf8.encodeList (written.map readSpace)) = Utf8.encodeList name := by
  induction h with
  | nil => rfl
  | @itself c name written plain _ ih =>
    rw [List.map_cons, readSpace_of_ne plain.1, Utf8.encodeList_cons, unescape_plain (plain_encodeChar plain.2), ih,
      Utf8.encodeList_cons]
  | @space name written _ ih =>
    have sign : readSpace '+' = ' ' := rfl
    rw [List.map_cons, sign, Utf8.encodeList_cons, unescape_plain (plain_encodeChar (by decide)), ih,
      Utf8.encodeList_cons]
  | escaped bytes _ ih =>
    rw [List.map_append, map_readSpace_escapes bytes, Utf8.encodeList_append, unescape_escapes bytes, ih,
      Utf8.encodeList_cons]

/-- **Every spelling of a name is decoded to the name.** -/
theorem decode_spelling {name written : List Char} (h : Spells name written) :
    decode written = String.ofList name := by
  have whole := Utf8.decodeLenientList_encodeList name []
  rw [List.append_nil, Utf8.decodeLenientList, List.append_nil] at whole
  have bytes : unescape (Utf8.encodeList (written.map fun c => if c = '+' then ' ' else c)) = Utf8.encodeList name :=
    unescape_spelling h
  rw [decode, bytes, Utf8.decodeLenient, whole]

end Dialogue.Text.Percent
