/-!
# `Dialogue.Text.Utf8` — bytes as text.

`next` reads one scalar value off a byte string or says how many bytes of it are beyond repair. Strict
decoding stops at the first fault and says where it is; lenient decoding puts one replacement character in
the place of each fault. Main statement: the rest that `next` leaves is never longer than what it was given.
-/

namespace Dialogue

/-- The contents of a file. -/
abbrev Bytes := List UInt8

namespace Text.Utf8

/-- **What a byte string starts with:** a scalar value, or a run of bytes that can be none. -/
inductive Piece
  /-- A scalar value and the bytes after it. -/
  | scalar (c : Char) (rest : Bytes)
  /-- `width` bytes that start a sequence and do not complete it, followed by a byte that does not fit. -/
  | malformed (width : Nat) (rest : Bytes)
  /-- The bytes end in the middle of a sequence. -/
  | truncated
  deriving Repr

/-- Is `b` a continuation byte in the range `lo … hi`? -/
def within (b : UInt8) (lo hi : Nat) : Bool :=
  lo ≤ b.toNat && b.toNat ≤ hi

/-- The six payload bits of a continuation byte. -/
def payload (b : UInt8) : Nat :=
  b.toNat % 64

/-- The second byte of a sequence of two or more: its range depends on the first, so that no scalar has two
spellings and no surrogate has one. -/
def secondRange (b₀ : Nat) : Nat × Nat :=
  if b₀ = 0xE0 then (0xA0, 0xBF)
  else if b₀ = 0xED then (0x80, 0x9F)
  else if b₀ = 0xF0 then (0x90, 0xBF)
  else if b₀ = 0xF4 then (0x80, 0x8F)
  else (0x80, 0xBF)

/-- How many bytes a sequence has whose first byte is `b₀`; zero when none starts so. -/
def sequenceLength (b₀ : Nat) : Nat :=
  if b₀ < 0x80 then 1
  else if 0xC2 ≤ b₀ ∧ b₀ ≤ 0xDF then 2
  else if 0xE0 ≤ b₀ ∧ b₀ ≤ 0xEF then 3
  else if 0xF0 ≤ b₀ ∧ b₀ ≤ 0xF4 then 4
  else 0

/-- **One step of decoding**, for the byte `b₀` and the bytes after it. -/
def next (b₀ : UInt8) (bs : Bytes) : Piece :=
  let lead := b₀.toNat
  match sequenceLength lead with
  | 0 => .malformed 1 bs
  | 1 => .scalar (Char.ofNat lead) bs
  | width =>
    match bs with
    | [] => .truncated
    | b₁ :: bs₁ =>
      let (lo, hi) := secondRange lead
      if !within b₁ lo hi then .malformed 1 bs
      else if width = 2 then .scalar (Char.ofNat (lead % 32 * 64 + payload b₁)) bs₁
      else match bs₁ with
        | [] => .truncated
        | b₂ :: bs₂ =>
          if !within b₂ 0x80 0xBF then .malformed 2 bs₁
          else if width = 3 then
            .scalar (Char.ofNat ((lead % 16 * 64 + payload b₁) * 64 + payload b₂)) bs₂
          else match bs₂ with
            | [] => .truncated
            | b₃ :: bs₃ =>
              if !within b₃ 0x80 0xBF then .malformed 3 bs₂
              else
                .scalar (Char.ofNat
                  (((lead % 8 * 64 + payload b₁) * 64 + payload b₂) * 64 + payload b₃)) bs₃

theorem length_rest_of_next_scalar {b₀ : UInt8} {bs rest : Bytes} {c : Char}
    (h : next b₀ bs = .scalar c rest) : rest.length ≤ bs.length := by
  unfold next at h
  grind

theorem length_rest_of_next_malformed {b₀ : UInt8} {bs rest : Bytes} {n : Nat}
    (h : next b₀ bs = .malformed n rest) : rest.length ≤ bs.length := by
  unfold next at h
  grind

/-- **Where a byte string stops being text.** -/
structure Fault where
  /-- How many bytes before the fault are text. -/
  index : Nat
  /-- How many bytes make up the fault; none when the bytes end too early. -/
  width : Option Nat
  deriving Repr, DecidableEq

/-- The wording of a fault. -/
def Fault.message (f : Fault) : String :=
  match f.width with
  | some n => s!"invalid utf-8 sequence of {n} bytes from index {f.index}"
  | none => s!"incomplete utf-8 byte sequence from index {f.index}"

/-- Strict decoding of bytes that come after `start` bytes already read. -/
def decodeFrom (start : Nat) : Bytes → Except Fault (List Char)
  | [] => .ok []
  | b :: bs =>
    match h : next b bs with
    | .scalar c rest =>
      have := length_rest_of_next_scalar h
      match decodeFrom (start + ((b :: bs).length - rest.length)) rest with
      | .ok cs => .ok (c :: cs)
      | .error f => .error f
    | .malformed n _ => .error ⟨start, some n⟩
    | .truncated => .error ⟨start, none⟩
termination_by bs => bs.length

/-- **Strict decoding:** the text whose encoding the bytes are, or the first fault. -/
def decode (bs : Bytes) : Except Fault String :=
  (decodeFrom 0 bs).map String.ofList

/-- The text whose encoding the bytes are, if there is one. -/
def decode? (bs : Bytes) : Option String :=
  (decode bs).toOption

/-- **Lenient decoding:** each fault becomes one replacement character. -/
def decodeLenientList : Bytes → List Char
  | [] => []
  | b :: bs =>
    match h : next b bs with
    | .scalar c rest =>
      have := length_rest_of_next_scalar h
      c :: decodeLenientList rest
    | .malformed _ rest =>
      have := length_rest_of_next_malformed h
      '\uFFFD' :: decodeLenientList rest
    | .truncated => ['\uFFFD']
termination_by bs => bs.length

/-- Lenient decoding as a string. -/
def decodeLenient (bs : Bytes) : String :=
  String.ofList (decodeLenientList bs)

/-- The bytes of a text. -/
def encodeList (cs : List Char) : Bytes :=
  cs.flatMap String.utf8EncodeChar

/-- The bytes of a string. -/
def encode (s : String) : Bytes :=
  encodeList s.toList

/-- How many bytes a text takes. -/
def size : List Char → Nat
  | [] => 0
  | c :: cs => c.utf8Size + size cs

@[simp] theorem size_cons (c : Char) (cs : List Char) : size (c :: cs) = c.utf8Size + size cs := rfl

theorem size_append (as bs : List Char) : size (as ++ bs) = size as + size bs := by
  induction as with
  | nil => exact (Nat.zero_add _).symm
  | cons a as ih => rw [List.cons_append, size_cons, size_cons, ih, Nat.add_assoc]

@[simp] theorem encodeList_nil : encodeList [] = [] := rfl

@[simp] theorem encodeList_cons (c : Char) (cs : List Char) :
    encodeList (c :: cs) = String.utf8EncodeChar c ++ encodeList cs := rfl

theorem encodeList_append (as bs : List Char) :
    encodeList (as ++ bs) = encodeList as ++ encodeList bs := by
  simp [encodeList]

theorem length_encodeList (cs : List Char) : (encodeList cs).length = size cs := by
  induction cs with
  | nil => rfl
  | cons c cs ih => simp [ih]

end Text.Utf8

end Dialogue
