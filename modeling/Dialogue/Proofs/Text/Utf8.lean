import Dialogue.Text.Utf8
import Mathlib.Tactic.SplitIfs
/-!
# `Dialogue.Proofs.Text.Utf8` — bytes of a text read as that text.

A character is read off the bytes that it is written with, and nothing of what comes after them. Main statements: the
bytes of a text are decoded to the text, lenient decoding has nothing to mend in them, and strict decoding yields a text
from its own bytes only.
-/

namespace Dialogue.Text.Utf8

/-! ## §1 — sequences of one to four bytes -/

section

variable {b₀ b₁ b₂ b₃ : UInt8} (rest : Bytes)

theorem next_one (width : sequenceLength b₀.toNat = 1) : next b₀ rest = .scalar (Char.ofNat b₀.toNat) rest := by
  simp [next, width]

theorem next_two (width : sequenceLength b₀.toNat = 2)
    (second : within b₁ (secondRange b₀.toNat).1 (secondRange b₀.toNat).2 = true) :
    next b₀ (b₁ :: rest) = .scalar (Char.ofNat (b₀.toNat % 32 * 64 + payload b₁)) rest := by
  simp [next, width, second]

theorem next_three (width : sequenceLength b₀.toNat = 3)
    (second : within b₁ (secondRange b₀.toNat).1 (secondRange b₀.toNat).2 = true)
    (third : within b₂ 0x80 0xBF = true) :
    next b₀ (b₁ :: b₂ :: rest) =
      .scalar (Char.ofNat ((b₀.toNat % 16 * 64 + payload b₁) * 64 + payload b₂)) rest := by
  simp [next, width, second, third]

theorem next_four (width : sequenceLength b₀.toNat = 4)
    (second : within b₁ (secondRange b₀.toNat).1 (secondRange b₀.toNat).2 = true)
    (third : within b₂ 0x80 0xBF = true) (fourth : within b₃ 0x80 0xBF = true) :
    next b₀ (b₁ :: b₂ :: b₃ :: rest) =
      .scalar (Char.ofNat (((b₀.toNat % 8 * 64 + payload b₁) * 64 + payload b₂) * 64 + payload b₃)) rest := by
  simp [next, width, second, third, fourth]

end

theorem toNat_byte {n : Nat} (small : n < 0x100) : (UInt8.ofNat n).toNat = n :=
  UInt8.toNat_ofNat_of_lt' small

/-- A continuation byte carries six bits. -/
theorem continuation (n : Nat) :
    payload (UInt8.ofNat (n % 64 + 128)) = n % 64 ∧ within (UInt8.ofNat (n % 64 + 128)) 0x80 0xBF = true := by
  have same : (UInt8.ofNat (n % 64 + 128)).toNat = n % 64 + 128 := toNat_byte (by omega)
  constructor
  · rw [payload, same]
    omega
  · rw [within, same]
    simp only [Bool.and_eq_true, decide_eq_true_eq]
    omega

/-- Any byte but four is followed by any continuation byte; these four cut the range where a shorter sequence would do,
where there are surrogates, and where there are no more characters. -/
theorem within_secondRange (lead n : Nat) (e0 : lead = 0xE0 → 0x20 ≤ n % 64) (ed : lead = 0xED → n % 64 < 0x20)
    (f0 : lead = 0xF0 → 0x10 ≤ n % 64) (f4 : lead = 0xF4 → n % 64 < 0x10) :
    within (UInt8.ofNat (n % 64 + 128)) (secondRange lead).1 (secondRange lead).2 = true := by
  have same : (UInt8.ofNat (n % 64 + 128)).toNat = n % 64 + 128 := toNat_byte (by omega)
  rw [within, same, secondRange]
  simp only [Bool.and_eq_true, decide_eq_true_eq]
  split_ifs with overlong surrogate overlong' beyond
  · have := e0 overlong
    show 0xA0 ≤ n % 64 + 128 ∧ n % 64 + 128 ≤ 0xBF
    omega
  · have := ed surrogate
    show 0x80 ≤ n % 64 + 128 ∧ n % 64 + 128 ≤ 0x9F
    omega
  · have := f0 overlong'
    show 0x90 ≤ n % 64 + 128 ∧ n % 64 + 128 ≤ 0xBF
    omega
  · have := f4 beyond
    show 0x80 ≤ n % 64 + 128 ∧ n % 64 + 128 ≤ 0x8F
    omega
  · show 0x80 ≤ n % 64 + 128 ∧ n % 64 + 128 ≤ 0xBF
    omega

/-! ## §2 — the bytes of a number -/

section

variable {n : Nat} (rest : Bytes)

/-- Two bytes spell a number of up to eleven bits. -/
theorem next_of_eleven (low : 0x80 ≤ n) (high : n < 0x800) :
    next (UInt8.ofNat (n / 64 % 32 + 192)) (UInt8.ofNat (n % 64 + 128) :: rest) = .scalar (Char.ofNat n) rest := by
  have lead : (UInt8.ofNat (n / 64 % 32 + 192)).toNat = n / 64 % 32 + 192 := toNat_byte (by omega)
  have width : sequenceLength (n / 64 % 32 + 192) = 2 := by
    rw [sequenceLength, if_neg (by omega), if_pos (by omega)]
  have second := within_secondRange (n / 64 % 32 + 192) n (by omega) (by omega) (by omega) (by omega)
  have whole : (n / 64 % 32 + 192) % 32 * 64 + n % 64 = n := by omega
  rw [← lead] at width second
  rw [next_two rest width second, lead, (continuation n).1, whole]

/-- Three bytes spell a number of up to sixteen bits that is no surrogate. -/
theorem next_of_sixteen (low : 0x800 ≤ n) (high : n < 0x10000) (scalar : n < 0xD800 ∨ 0xDFFF < n) :
    next (UInt8.ofNat (n / 4096 % 16 + 224)) (UInt8.ofNat (n / 64 % 64 + 128) :: UInt8.ofNat (n % 64 + 128) :: rest) =
      .scalar (Char.ofNat n) rest := by
  have lead : (UInt8.ofNat (n / 4096 % 16 + 224)).toNat = n / 4096 % 16 + 224 := toNat_byte (by omega)
  have width : sequenceLength (n / 4096 % 16 + 224) = 3 := by
    rw [sequenceLength, if_neg (by omega), if_neg (by omega), if_pos (by omega)]
  have second := within_secondRange (n / 4096 % 16 + 224) (n / 64)
    (by omega) (by omega) (by omega) (by omega)
  have whole : ((n / 4096 % 16 + 224) % 16 * 64 + n / 64 % 64) * 64 + n % 64 = n := by omega
  rw [← lead] at width second
  rw [next_three rest width second (continuation n).2, lead, (continuation n).1, (continuation (n / 64)).1, whole]

/-- Four bytes spell any other number of a character. -/
theorem next_of_more (low : 0x10000 ≤ n) (high : n < 0x110000) :
    next (UInt8.ofNat (n / 262144 % 8 + 240)) (UInt8.ofNat (n / 4096 % 64 + 128) :: UInt8.ofNat (n / 64 % 64 + 128) ::
      UInt8.ofNat (n % 64 + 128) :: rest) = .scalar (Char.ofNat n) rest := by
  have lead : (UInt8.ofNat (n / 262144 % 8 + 240)).toNat = n / 262144 % 8 + 240 := toNat_byte (by omega)
  have width : sequenceLength (n / 262144 % 8 + 240) = 4 := by
    rw [sequenceLength, if_neg (by omega), if_neg (by omega), if_neg (by omega), if_pos (by omega)]
  have second := within_secondRange (n / 262144 % 8 + 240) (n / 4096)
    (by omega) (by omega) (by omega) (by omega)
  have whole : (((n / 262144 % 8 + 240) % 8 * 64 + n / 4096 % 64) * 64 + n / 64 % 64) * 64 + n % 64 = n := by omega
  rw [← lead] at width second
  rw [next_four rest width second (continuation (n / 64)).2 (continuation n).2, lead, (continuation n).1,
    (continuation (n / 64)).1, (continuation (n / 4096)).1, whole]

end

/-! ## §3 — characters and texts -/

/-- **A character is read off its bytes**, whatever comes after them. -/
theorem next_encodeChar (c : Char) :
    ∃ b bs, String.utf8EncodeChar c = b :: bs ∧ ∀ rest, next b (bs ++ rest) = .scalar c rest := by
  have code : c.val.toNat = c.toNat := rfl
  have valid : c.toNat < 0xD800 ∨ 0xDFFF < c.toNat ∧ c.toNat < 0x110000 := c.valid
  have back : Char.ofNat c.toNat = c := Char.ofNat_toNat c
  unfold String.utf8EncodeChar
  dsimp only
  rw [code]
  -- only the number of the character matters from here on, and that it is no surrogate
  generalize c.toNat = n at valid back ⊢
  subst back
  split_ifs
  · -- a character of ASCII is its own byte
    have lead : (UInt8.ofNat n).toNat = n := toNat_byte (by omega)
    have width : sequenceLength (UInt8.ofNat n).toNat = 1 := by
      rw [lead, sequenceLength, if_pos (by omega)]
    refine ⟨_, [], rfl, fun rest => ?_⟩
    rw [List.nil_append, next_one rest width, lead]
  · exact ⟨_, [_], rfl, fun rest => next_of_eleven rest (by omega) (by omega)⟩
  · exact ⟨_, [_, _], rfl, fun rest => next_of_sixteen rest (by omega) (by omega) (by omega)⟩
  · exact ⟨_, [_, _, _], rfl, fun rest => next_of_more rest (by omega) (by omega)⟩

/-- Only an empty text has no bytes. -/
theorem encode_ne_nil {s : String} (some : s ≠ "") : encode s ≠ [] := by
  cases text : s.toList with
  | nil => exact absurd (String.toList_eq_nil_iff.mp text) some
  | cons c cs =>
    obtain ⟨b, bs, bytes, -⟩ := next_encodeChar c
    rw [encode, text, encodeList_cons, bytes]
    exact List.cons_ne_nil _ _

/-- **The bytes of a text are read as that text**, and what follows them as what it is. -/
theorem decodeLenientList_encodeList (cs : List Char) (rest : Bytes) :
    decodeLenientList (encodeList cs ++ rest) = cs ++ decodeLenientList rest := by
  induction cs with
  | nil => rfl
  | cons c cs ih =>
    obtain ⟨b, bs, bytes, read⟩ := next_encodeChar c
    rw [encodeList_cons, bytes, List.append_assoc, List.cons_append, decodeLenientList.eq_def]
    dsimp only
    split
    · rename_i c' rest' found
      rw [read] at found
      obtain ⟨rfl, rfl⟩ := Piece.scalar.inj found
      rw [ih, List.cons_append]
    · rename_i found
      rw [read] at found
      cases found
    · rename_i found
      rw [read] at found
      cases found

/-! ## §4 — strict decoding -/

theorem toNat_ofNat {n : Nat} (scalar : n.isValidChar) : (Char.ofNat n).toNat = n := by
  unfold Char.ofNat
  rw [dif_pos scalar]
  rfl

/-- The bytes of the character with a given number. -/
theorem encodeChar_ofNat {n : Nat} (scalar : n.isValidChar) : String.utf8EncodeChar (Char.ofNat n) =
    if n ≤ 0x7F then [UInt8.ofNat n]
    else if n ≤ 0x7FF then [UInt8.ofNat (n / 64 % 32 + 192), UInt8.ofNat (n % 64 + 128)]
    else if n ≤ 0xFFFF then
      [UInt8.ofNat (n / 4096 % 16 + 224), UInt8.ofNat (n / 64 % 64 + 128), UInt8.ofNat (n % 64 + 128)]
    else
      [UInt8.ofNat (n / 262144 % 8 + 240), UInt8.ofNat (n / 4096 % 64 + 128), UInt8.ofNat (n / 64 % 64 + 128),
        UInt8.ofNat (n % 64 + 128)] := by
  have code : (Char.ofNat n).val.toNat = n := toNat_ofNat scalar
  unfold String.utf8EncodeChar
  dsimp only
  rw [code]

/-- A byte is the one with its number. -/
theorem byte_eq {b : UInt8} {n : Nat} (same : n = b.toNat) : UInt8.ofNat n = b := by
  rw [same]
  exact UInt8.ofNat_toNat

theorem within_iff {b : UInt8} {lo hi : Nat} : within b lo hi = true ↔ lo ≤ b.toNat ∧ b.toNat ≤ hi := by
  rw [within, Bool.and_eq_true, decide_eq_true_eq, decide_eq_true_eq]

/-- The second byte of a sequence is a continuation byte, and four first bytes cut its range. -/
theorem of_within_secondRange {b : UInt8} {lead : Nat}
    (second : within b (secondRange lead).1 (secondRange lead).2 = true) :
    0x80 ≤ b.toNat ∧ b.toNat ≤ 0xBF ∧ (lead = 0xE0 → 0xA0 ≤ b.toNat) ∧ (lead = 0xED → b.toNat ≤ 0x9F) ∧
      (lead = 0xF0 → 0x90 ≤ b.toNat) ∧ (lead = 0xF4 → b.toNat ≤ 0x8F) := by
  rw [within_iff, secondRange] at second
  split_ifs at second <;> simp only at second <;> omega

theorem sequenceLength_cases (n : Nat) :
    sequenceLength n = 0 ∨ sequenceLength n = 1 ∧ n < 0x80 ∨ sequenceLength n = 2 ∧ 0xC2 ≤ n ∧ n ≤ 0xDF ∨
      sequenceLength n = 3 ∧ 0xE0 ≤ n ∧ n ≤ 0xEF ∨ sequenceLength n = 4 ∧ 0xF0 ≤ n ∧ n ≤ 0xF4 := by
  unfold sequenceLength
  split
  · omega
  · split
    · omega
    · split
      · omega
      · split <;> omega

/-- **What a character is read off**, by the number of bytes. -/
inductive Reads : Bytes → Char → Bytes → Prop
  | one {b₀ : UInt8} {rest : Bytes} (lead : b₀.toNat < 0x80) : Reads (b₀ :: rest) (Char.ofNat b₀.toNat) rest
  | two {b₀ b₁ : UInt8} {rest : Bytes} (lead : 0xC2 ≤ b₀.toNat ∧ b₀.toNat ≤ 0xDF)
    (second : within b₁ (secondRange b₀.toNat).1 (secondRange b₀.toNat).2 = true) :
    Reads (b₀ :: b₁ :: rest) (Char.ofNat (b₀.toNat % 32 * 64 + payload b₁)) rest
  | three {b₀ b₁ b₂ : UInt8} {rest : Bytes} (lead : 0xE0 ≤ b₀.toNat ∧ b₀.toNat ≤ 0xEF)
    (second : within b₁ (secondRange b₀.toNat).1 (secondRange b₀.toNat).2 = true)
    (third : within b₂ 0x80 0xBF = true) :
    Reads (b₀ :: b₁ :: b₂ :: rest) (Char.ofNat ((b₀.toNat % 16 * 64 + payload b₁) * 64 + payload b₂)) rest
  | four {b₀ b₁ b₂ b₃ : UInt8} {rest : Bytes} (lead : 0xF0 ≤ b₀.toNat ∧ b₀.toNat ≤ 0xF4)
    (second : within b₁ (secondRange b₀.toNat).1 (secondRange b₀.toNat).2 = true)
    (third : within b₂ 0x80 0xBF = true) (fourth : within b₃ 0x80 0xBF = true) :
    Reads (b₀ :: b₁ :: b₂ :: b₃ :: rest)
      (Char.ofNat (((b₀.toNat % 8 * 64 + payload b₁) * 64 + payload b₂) * 64 + payload b₃)) rest

/-- **A step of decoding that yields a character** has read all the bytes of a sequence. -/
theorem reads_of_next {b₀ : UInt8} {bs rest : Bytes} {c : Char} (h : next b₀ bs = .scalar c rest) :
    Reads (b₀ :: bs) c rest := by
  have range := sequenceLength_cases b₀.toNat
  unfold next at h
  dsimp only at h
  split at h
  · cases h
  · cases h
    exact .one (by omega)
  · rename_i some several
    have some : sequenceLength b₀.toNat ≠ 0 := some
    have several : sequenceLength b₀.toNat ≠ 1 := several
    cases bs with
    | nil => cases h
    | cons b₁ bs₁ =>
      dsimp only at h
      split at h
      · cases h
      · rename_i second
        rw [Bool.not_eq_true, Bool.not_eq_false'] at second
        split at h
        · cases h
          exact .two (by omega) second
        · cases bs₁ with
          | nil => cases h
          | cons b₂ bs₂ =>
            dsimp only at h
            split at h
            · cases h
            · rename_i third
              rw [Bool.not_eq_true, Bool.not_eq_false'] at third
              split at h
              · cases h
                exact .three (by omega) second third
              · cases bs₂ with
                | nil => cases h
                | cons b₃ bs₃ =>
                  dsimp only at h
                  split at h
                  · cases h
                  · rename_i fourth
                    rw [Bool.not_eq_true, Bool.not_eq_false'] at fourth
                    cases h
                    exact .four (by omega) second third fourth

/-- **A step of decoding that yields none** has read as many bytes as the malformed sequence is wide. -/
theorem rest_of_next_malformed {b₀ : UInt8} {bs rest : Bytes} {n : Nat} (h : next b₀ bs = .malformed n rest) :
    rest = (b₀ :: bs).drop n := by
  unfold next at h
  dsimp only at h
  repeat' split at h
  -- the ways to anything but a malformed sequence are closed at once
  all_goals
    cases h
    try rfl

/-- **The bytes that a character is read off** are those it is written with. -/
theorem Reads.eq_encodeChar {bs rest : Bytes} {c : Char} (h : Reads bs c rest) :
    bs = String.utf8EncodeChar c ++ rest := by
  cases h with
  | @one b₀ _ lead =>
    rw [encodeChar_ofNat (.inl (by omega)), if_pos (by omega), byte_eq rfl]
    rfl
  | @two b₀ b₁ _ lead second =>
    have range := of_within_secondRange second
    generalize number : b₀.toNat % 32 * 64 + payload b₁ = n
    unfold payload at number
    have first : n / 64 % 32 + 192 = b₀.toNat := by omega
    have last : n % 64 + 128 = b₁.toNat := by omega
    rw [encodeChar_ofNat (.inl (by omega)), if_neg (by omega), if_pos (by omega), byte_eq first, byte_eq last]
    rfl
  | @three b₀ b₁ b₂ _ lead second third =>
    have range := of_within_secondRange second
    rw [within_iff] at third
    generalize number : (b₀.toNat % 16 * 64 + payload b₁) * 64 + payload b₂ = n
    unfold payload at number
    have first : n / 4096 % 16 + 224 = b₀.toNat := by omega
    have middle : n / 64 % 64 + 128 = b₁.toNat := by omega
    have last : n % 64 + 128 = b₂.toNat := by omega
    have scalar : n.isValidChar := by
      unfold Nat.isValidChar
      omega
    rw [encodeChar_ofNat scalar, if_neg (by omega), if_neg (by omega), if_pos (by omega), byte_eq first, byte_eq middle,
      byte_eq last]
    rfl
  | @four b₀ b₁ b₂ b₃ _ lead second third fourth =>
    have range := of_within_secondRange second
    rw [within_iff] at third fourth
    generalize number : ((b₀.toNat % 8 * 64 + payload b₁) * 64 + payload b₂) * 64 + payload b₃ = n
    unfold payload at number
    have first : n / 262144 % 8 + 240 = b₀.toNat := by omega
    have next : n / 4096 % 64 + 128 = b₁.toNat := by omega
    have middle : n / 64 % 64 + 128 = b₂.toNat := by omega
    have last : n % 64 + 128 = b₃.toNat := by omega
    rw [encodeChar_ofNat (.inr (by omega)), if_neg (by omega), if_neg (by omega), if_neg (by omega), byte_eq first,
      byte_eq next, byte_eq middle, byte_eq last]
    rfl

/-- **The bytes of a text are decoded to that text**, strictly. -/
theorem decodeFrom_encodeList (start : Nat) (cs : List Char) : decodeFrom start (encodeList cs) = .ok cs := by
  induction cs generalizing start with
  | nil => rw [encodeList_nil, decodeFrom.eq_def]
  | cons c cs ih =>
    obtain ⟨b, bs, bytes, read⟩ := next_encodeChar c
    rw [encodeList_cons, bytes, List.cons_append, decodeFrom.eq_def]
    dsimp only
    split
    · rename_i c' rest' found
      rw [read] at found
      obtain ⟨rfl, rfl⟩ := Piece.scalar.inj found
      rw [ih]
    · rename_i found
      rw [read] at found
      cases found
    · rename_i found
      rw [read] at found
      cases found

/-- **What is decoded strictly** are the bytes of a text, and of no other text. -/
theorem eq_encodeList_of_decodeFrom {start : Nat} {bs : Bytes} {cs : List Char} (h : decodeFrom start bs = .ok cs) :
    bs = encodeList cs := by
  fun_induction decodeFrom start bs generalizing cs with
  | case1 => 
    cases h
    rfl
  | case2 start b bs c rest read _ cs' found ih =>
    cases h
    rw [(reads_of_next read).eq_encodeChar, encodeList_cons, ih found]
  | case3 => cases h
  | case4 => cases h
  | case5 => cases h

/-- **Strict decoding inverts encoding:** it yields a text just from the bytes of that text. -/
theorem decode_eq_ok_iff {bs : Bytes} {s : String} : decode bs = .ok s ↔ encode s = bs := by
  constructor
  · intro h
    unfold decode at h
    cases decoded : decodeFrom 0 bs with
    | error f =>
      rw [decoded] at h
      cases h
    | ok cs =>
      rw [decoded] at h
      cases h
      rw [eq_encodeList_of_decodeFrom decoded, encode, String.toList_ofList]
  · rintro rfl
    rw [decode, encode, decodeFrom_encodeList]
    exact congrArg Except.ok String.ofList_toList

/-- **No two texts have the same bytes.** -/
theorem encode_injective {s t : String} (same : encode s = encode t) : s = t := by
  have decoded := decode_eq_ok_iff.mpr same
  rw [decode_eq_ok_iff.mpr rfl] at decoded
  exact (Except.ok.inj decoded).symm

/-- **Bytes that are no text** are those that strict decoding finds a fault in. -/
theorem decode_eq_error_iff {bs : Bytes} : (∃ f, decode bs = .error f) ↔ ∀ s, encode s ≠ bs := by
  cases decoded : decode bs with
  | ok s => simpa using ⟨s, decode_eq_ok_iff.mp decoded⟩
  | error f =>
    refine ⟨fun _ s same => ?_, fun _ => ⟨f, rfl⟩⟩
    rw [decode_eq_ok_iff.mpr same] at decoded
    cases decoded

theorem decode?_eq_some_iff {bs : Bytes} {s : String} : decode? bs = some s ↔ encode s = bs := by
  rw [← decode_eq_ok_iff, decode?]
  cases decode bs <;> simp [Except.toOption]

theorem decode?_eq_none_iff {bs : Bytes} : decode? bs = none ↔ ∀ s, encode s ≠ bs := by
  simp only [Option.eq_none_iff_forall_ne_some, ne_eq, decode?_eq_some_iff]

end Dialogue.Text.Utf8
