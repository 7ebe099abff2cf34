import Dialogue.Json.Parser
import Mathlib.Data.List.Basic
/-!
# `Dialogue.Proofs.Json.Grammar` — what a JSON text is.

The grammar of JSON texts, each with the document that it stands for. It says nothing of how a text is written or read.
Main statement: both written forms of a document are texts of that document, whatever characters its strings hold.
-/

namespace Dialogue.Json

namespace Grammar

/-! ## §1 — tokens -/

/-- **Blanks** between tokens. -/
def Spaces (cs : List Char) : Prop := ∀ c ∈ cs, isSpace c = true

/-- **Digits**, one at least. -/
structure Digits (ds : List Char) : Prop where
  some : ds ≠ []
  all : ∀ d ∈ ds, isDigit d = true

/-- **A whole part:** a zero, or digits that do not start with one. -/
inductive Whole : List Char → Prop
  | zero : Whole ['0']
  | digits {d : Char} {ds : List Char} (lead : d ≠ '0') (all : ∀ c ∈ d :: ds, isDigit c = true) : Whole (d :: ds)

/-- A point and digits, or nothing. -/
inductive Fraction : List Char → Prop
  | none : Fraction []
  | digits {ds : List Char} (h : Digits ds) : Fraction ('.' :: ds)

/-- A power of ten, or nothing. -/
inductive Exponent : List Char → Prop
  | none : Exponent []
  | digits {mark : Char} {sign ds : List Char} (marks : mark = 'e' ∨ mark = 'E')
    (signs : sign = [] ∨ sign = ['+'] ∨ sign = ['-']) (h : Digits ds) : Exponent (mark :: (sign ++ ds))

/-- The number that is spelled so: a whole number is told by its value, any other by its text. -/
def numberOf (negative : Bool) (whole fraction exponent : List Char) : Json :=
  let sign := if negative then ['-'] else []
  if fraction = [] ∧ exponent = [] ∧ ¬ (negative ∧ natOf whole = 0) then
    .int (if negative then - (natOf whole : Int) else natOf whole)
  else .decimal (String.ofList (sign ++ whole ++ fraction ++ exponent))

/-- **A number.** -/
inductive Number : List Char → Json → Prop
  | mk (negative : Bool) {whole fraction exponent : List Char} (hw : Whole whole) (hf : Fraction fraction)
    (he : Exponent exponent) :
    Number ((if negative then ['-'] else []) ++ whole ++ fraction ++ exponent)
      (numberOf negative whole fraction exponent)

/-- **The inside of a string**, with the characters that it stands for. -/
inductive Letters : List Char → List Char → Prop
  | nil : Letters [] []
  | plain {c : Char} {written meant : List Char} (low : 0x20 ≤ c.toNat) (quote : c ≠ '"') (escape : c ≠ '\\')
    (rest : Letters written meant) : Letters (c :: written) (c :: meant)
  | simple {c e : Char} {written meant : List Char} (h : simpleEscape? c = some e) (rest : Letters written meant) :
    Letters ('\\' :: c :: written) (e :: meant)
  | unit {a b c d : Char} {n : Nat} {written meant : List Char} (h : unit? a b c d = some n) (high : isHigh n = false)
    (low : isLow n = false) (rest : Letters written meant) :
    Letters ('\\' :: 'u' :: a :: b :: c :: d :: written) (Char.ofNat n :: meant)
  | pair {a b c d e f g h : Char} {n m : Nat} {written meant : List Char} (first : unit? a b c d = some n)
    (high : isHigh n = true) (second : unit? e f g h = some m) (low : isLow m = true) (rest : Letters written meant) :
    Letters ('\\' :: 'u' :: a :: b :: c :: d :: '\\' :: 'u' :: e :: f :: g :: h :: written)
      (Char.ofNat (0x10000 + (n - 0xD800) * 0x400 + (m - 0xDC00)) :: meant)

/-! ## §2 — values -/

mutual

/-- **A value**, without blanks around it. -/
inductive Value : List Char → Json → Prop
  | null : Value ['n', 'u', 'l', 'l'] .null
  | true : Value ['t', 'r', 'u', 'e'] (.bool true)
  | false : Value ['f', 'a', 'l', 's', 'e'] (.bool false)
  | number {written : List Char} {j : Json} (h : Number written j) : Value written j
  | string {written meant : List Char} (h : Letters written meant) :
    Value ('"' :: (written ++ ['"'])) (.str (String.ofList meant))
  | noItems {blanks : List Char} (h : Spaces blanks) : Value ('[' :: (blanks ++ [']'])) (.arr [])
  | items {written : List Char} {js : List Json} (h : Elements written js) : Value ('[' :: (written ++ [']'])) (.arr js)
  | noFields {blanks : List Char} (h : Spaces blanks) : Value ('\x7b' :: (blanks ++ ['\x7d'])) (.obj [])
  | fields {written : List Char} {fs : List (String × Json)} (h : Members written fs) :
    Value ('\x7b' :: (written ++ ['\x7d'])) (.obj fs)

/-- **A value with blanks around it.** -/
inductive Element : List Char → Json → Prop
  | mk {left written right : List Char} {j : Json} (before : Spaces left) (value : Value written j)
    (after : Spaces right) : Element (left ++ (written ++ right)) j

/-- Values with commas between them. -/
inductive Elements : List Char → List Json → Prop
  | last {written : List Char} {j : Json} (h : Element written j) : Elements written [j]
  | cons {written rest : List Char} {j : Json} {js : List Json} (h : Element written j) (later : Elements rest js) :
    Elements (written ++ ',' :: rest) (j :: js)

/-- A field of an object. -/
inductive Member : List Char → String × Json → Prop
  | mk {left key meant right written : List Char} {j : Json} (before : Spaces left) (letters : Letters key meant)
    (after : Spaces right) (value : Element written j) :
    Member (left ++ '"' :: (key ++ '"' :: (right ++ ':' :: written))) (String.ofList meant, j)

/-- Fields with commas between them. -/
inductive Members : List Char → List (String × Json) → Prop
  | last {written : List Char} {f : String × Json} (h : Member written f) : Members written [f]
  | cons {written rest : List Char} {f : String × Json} {fs : List (String × Json)} (h : Member written f)
    (later : Members rest fs) : Members (written ++ ',' :: rest) (f :: fs)

end

/-! ## §3 — written tokens -/

theorem spaces_nil : Spaces [] := List.forall_mem_nil _

theorem spaces_newline (level : Nat) : Spaces (newline level) := by
  refine List.forall_mem_cons.mpr ⟨rfl, fun c mem => ?_⟩
  rw [List.eq_of_mem_replicate mem]
  rfl

theorem spaces_blank : Spaces [' '] := List.forall_mem_singleton.mpr rfl

theorem Element.of_value {written : List Char} {j : Json} (h : Value written j) : Element written j := by
  have element := Element.mk spaces_nil h spaces_nil
  rwa [List.append_nil] at element

theorem natDigits_eq (n : Nat) : natDigits n = Nat.toDigits 10 n := by
  rw [natDigits, Nat.toString_eq_ofList_toDigits, String.toList_ofList]

/-- Digits are read as the number that they were written for. -/
theorem natOf_natDigits (n : Nat) : natOf (natDigits n) = n := by
  have back : Nat.ofDigitChars 10 (Nat.toDigits 10 n) 0 = n := Nat.ofDigitChars_toDigits (by decide) (by decide)
  rw [Nat.ofDigitChars_eq_foldl] at back
  have order : (fun n (c : Char) => n * 10 + (c.toNat - 48)) = fun n c => 10 * n + (c.toNat - '0'.toNat) := by
    funext n c
    rw [Nat.mul_comm]
    rfl
  rw [natOf, natDigits_eq, order, back]

theorem isDigit_of_mem_natDigits {n : Nat} {c : Char} (mem : c ∈ natDigits n) : isDigit c = true := by
  rw [natDigits_eq] at mem
  have digit : c.isDigit = true := Nat.isDigit_of_mem_toDigits (by decide) (by decide) mem
  exact digit

/-- No number but zero starts with a zero. -/
theorem lead_natDigits {n : Nat} (some : 0 < n) : ∃ d ds, natDigits n = d :: ds ∧ d ≠ '0' := by
  rw [natDigits_eq]
  -- all digits but the last are those of `n / 10`, so the first one is found there
  induction n using Nat.strongRecOn with
  | ind n ih =>
    rw [Nat.toDigits_eq_if (by decide)]
    split
    · refine ⟨_, [], rfl, fun zero => ?_⟩
      rw [Nat.digitChar_eq_zero] at zero
      omega
    · obtain ⟨d, ds, digits, lead⟩ := ih (n / 10) (by omega) (by omega)
      exact ⟨d, ds ++ [(n % 10).digitChar], by rw [digits]; rfl, lead⟩

theorem whole_natDigits (n : Nat) : Whole (natDigits n) := by
  rcases Nat.eq_zero_or_pos n with rfl | some
  · exact .zero
  · obtain ⟨d, ds, digits, lead⟩ := lead_natDigits some
    have all : ∀ c ∈ natDigits n, isDigit c = true := fun c mem => isDigit_of_mem_natDigits mem
    rw [digits] at all ⊢
    exact .digits lead all

/-- **A whole number as it is written** is a number. -/
theorem number_intText (n : Int) : Number (intText n) (.int n) := by
  cases n with
  | ofNat m =>
    have number := Number.mk false (whole_natDigits m) .none .none
    have same : numberOf false (natDigits m) [] [] = .int m := by simp [numberOf, natOf_natDigits]
    rw [same, List.append_nil, List.append_nil] at number
    exact number
  | negSucc m =>
    have number := Number.mk true (whole_natDigits (m + 1)) .none .none
    have same : numberOf true (natDigits (m + 1)) [] [] = .int (.negSucc m) := by
      simp [numberOf, natOf_natDigits, Int.negSucc_eq]
    rw [same, List.append_nil, List.append_nil] at number
    exact number

theorem hexValue?_hexDigit {n : Nat} (small : n < 16) : hexValue? (hexDigit n) = some n := by
  have all : ∀ v : Fin 16, hexValue? (hexDigit v) = some v.val := by decide
  exact all ⟨n, small⟩

/-- A control character may be spelled by its number. -/
theorem letters_control {c : Char} (control : c.toNat < 0x20) {written meant : List Char} (rest : Letters written meant) :
    Letters (['\\', 'u', '0', '0', hexDigit (c.toNat / 16), hexDigit (c.toNat % 16)] ++ written) (c :: meant) := by
  have spelled : unit? '0' '0' (hexDigit (c.toNat / 16)) (hexDigit (c.toNat % 16)) = some c.toNat := by
    have zero : hexValue? '0' = some 0 := by decide
    have high := hexValue?_hexDigit (show c.toNat / 16 < 16 by omega)
    have low := hexValue?_hexDigit (Nat.mod_lt c.toNat (by decide : 0 < 16))
    have whole : ((0 * 16 + 0) * 16 + c.toNat / 16) * 16 + c.toNat % 16 = c.toNat := by omega
    simp only [unit?, zero, high, low, Option.bind_eq_bind, Option.bind_some, whole]
    rfl
  have letters := Letters.unit spelled (by simp [isHigh]; omega) (by simp [isLow]; omega) rest
  rwa [Char.ofNat_toNat] at letters

/-- **A character as it is written** stands for itself. -/
theorem letters_escapeChar (c : Char) {written meant : List Char} (rest : Letters written meant) :
    Letters (escapeChar c ++ written) (c :: meant) := by
  unfold escapeChar
  split_ifs with quote escape control feed back tab backspace page
  · subst quote
    exact .simple rfl rest
  · subst escape
    exact .simple rfl rest
  · subst feed
    exact .simple rfl rest
  · subst back
    exact .simple rfl rest
  · subst tab
    exact .simple rfl rest
  · obtain rfl : c = '\x08' := Char.toNat_inj.mp backspace
    exact .simple rfl rest
  · obtain rfl : c = '\x0C' := Char.toNat_inj.mp page
    exact .simple rfl rest
  · exact letters_control control rest
  · exact .plain (Nat.not_lt.mp control) quote escape rest

theorem letters_escaped (cs : List Char) : Letters (cs.flatMap escapeChar) cs := by
  induction cs with
  | nil => exact .nil
  | cons c cs ih => exact letters_escapeChar c ih

/-- **A string as it is written** is a string. -/
theorem value_quote (s : String) : Value (quote s) (.str s) := by
  have value := Value.string (letters_escaped s.toList)
  rwa [String.ofList_toList] at value

/-- A field as it is written, with blanks around its value. -/
theorem member_quote {left written : List Char} (k : String) {j : Json} (before : Spaces left)
    (h : Element written j) : Member (left ++ (quote k ++ ':' :: written)) (k, j) := by
  have member := Member.mk before (letters_escaped k.toList) spaces_nil h
  rw [String.ofList_toList] at member
  have same : quote k ++ ':' :: written = '"' :: (k.toList.flatMap escapeChar ++ '"' :: ([] ++ ':' :: written)) := by
    simp [quote]
  rwa [same]

end Grammar

/-! ## §4 — written documents -/

open Grammar

/-- **A text of a document:** the document and nothing else, but for blanks around it. -/
def IsText (text : String) (j : Json) : Prop := Element text.toList j

mutual

/-- **Every number that is not told by its value is told by a text that is a number.** -/
def Lexical : Json → Prop
  | .decimal l => Number l.toList (.decimal l)
  | .arr items => LexicalItems items
  | .obj fields => LexicalFields fields
  | _ => True

/-- `Lexical` for items. -/
def LexicalItems : List Json → Prop
  | [] => True
  | j :: js => Lexical j ∧ LexicalItems js

/-- `Lexical` for fields. -/
def LexicalFields : List (String × Json) → Prop
  | [] => True
  | (_, j) :: fs => Lexical j ∧ LexicalFields fs

end

@[simp] theorem lexical_null : Lexical .null := trivial

@[simp] theorem lexical_bool (b : Bool) : Lexical (.bool b) := trivial

@[simp] theorem lexical_int (n : Int) : Lexical (.int n) := trivial

@[simp] theorem lexical_str (s : String) : Lexical (.str s) := trivial

@[simp] theorem lexical_arr_iff {items : List Json} : Lexical (.arr items) ↔ ∀ j ∈ items, Lexical j := by
  show LexicalItems items ↔ _
  induction items with
  | nil => simp [LexicalItems]
  | cons j js ih => simp [LexicalItems, ih]

@[simp] theorem lexical_obj_iff {fields : List (String × Json)} :
    Lexical (.obj fields) ↔ ∀ f ∈ fields, Lexical f.2 := by
  show LexicalFields fields ↔ _
  induction fields with
  | nil => simp [LexicalFields]
  | cons f fs ih => simp [LexicalFields, ih]

mutual

/-- **A document on one line** is a text of the document. -/
theorem value_compact : (j : Json) → Lexical j → Value (compact j) j
  | .null, _ => .null
  | .bool true, _ => .true
  | .bool false, _ => .false
  | .int n, _ => .number (number_intText n)
  | .decimal _, h => .number h
  | .str s, _ => value_quote s
  | .arr [], _ => .noItems spaces_nil
  | .arr (j :: js), h => .items (elements_compact (j :: js) (List.cons_ne_nil _ _) h)
  | .obj [], _ => .noFields spaces_nil
  | .obj (f :: fs), h => .fields (members_compact (f :: fs) (List.cons_ne_nil _ _) h)

theorem elements_compact : (js : List Json) → js ≠ [] → LexicalItems js → Elements (compactItems js) js
  | [], filled, _ => absurd rfl filled
  | [j], _, h => .last (.of_value (value_compact j h.1))
  | j :: k :: js, _, h =>
    .cons (.of_value (value_compact j h.1)) (elements_compact (k :: js) (List.cons_ne_nil _ _) h.2)

theorem members_compact : (fs : List (String × Json)) → fs ≠ [] → LexicalFields fs → Members (compactFields fs) fs
  | [], filled, _ => absurd rfl filled
  | [(k, j)], _, h => .last (member_quote k spaces_nil (.of_value (value_compact j h.1)))
  | (k, j) :: f :: fs, _, h => by
    have first := member_quote k spaces_nil (.of_value (value_compact j h.1))
    have both := Members.cons first (members_compact (f :: fs) (List.cons_ne_nil _ _) h.2)
    simpa [compactFields] using both

end

mutual

/-- **A document over several lines** is a text of the document. -/
theorem value_pretty (level : Nat) : (j : Json) → Lexical j → Value (pretty level j) j
  | .null, _ => .null
  | .bool true, _ => .true
  | .bool false, _ => .false
  | .int n, _ => .number (number_intText n)
  | .decimal _, h => .number h
  | .str s, _ => value_quote s
  | .arr [], _ => .noItems spaces_nil
  | .arr (j :: js), h => by
    have items := elements_pretty (level + 1) (newline level) (spaces_newline level) (j :: js) (List.cons_ne_nil _ _) h
    simpa [pretty] using Value.items items
  | .obj [], _ => .noFields spaces_nil
  | .obj (f :: fs), h => by
    have fields := members_pretty (level + 1) (newline level) (spaces_newline level) (f :: fs) (List.cons_ne_nil _ _) h
    simpa [pretty] using Value.fields fields

theorem elements_pretty (level : Nat) (right : List Char) (after : Spaces right) : (js : List Json) → js ≠ [] →
    LexicalItems js → Elements (prettyItems level js ++ right) js
  | [], filled, _ => absurd rfl filled
  | [j], _, h => by
    have element := Element.mk (spaces_newline level) (value_pretty level j h.1) after
    simpa [prettyItems] using Elements.last element
  | j :: k :: js, _, h => by
    have element := Element.mk (spaces_newline level) (value_pretty level j h.1) spaces_nil
    have later := elements_pretty level right after (k :: js) (List.cons_ne_nil _ _) h.2
    simpa [prettyItems] using Elements.cons element later

theorem members_pretty (level : Nat) (right : List Char) (after : Spaces right) : (fs : List (String × Json)) →
    fs ≠ [] → LexicalFields fs → Members (prettyFields level fs ++ right) fs
  | [], filled, _ => absurd rfl filled
  | [(k, j)], _, h => by
    have element := Element.mk spaces_blank (value_pretty level j h.1) after
    simpa [prettyFields] using Members.last (member_quote k (spaces_newline level) element)
  | (k, j) :: f :: fs, _, h => by
    have element := Element.mk spaces_blank (value_pretty level j h.1) spaces_nil
    have later := members_pretty level right after (f :: fs) (List.cons_ne_nil _ _) h.2
    simpa [prettyFields] using Members.cons (member_quote k (spaces_newline level) element) later

end

theorem isText_compactString {j : Json} (h : Lexical j) : IsText j.compactString j := by
  rw [IsText, compactString, String.toList_ofList]
  exact .of_value (value_compact j h)

theorem isText_prettyString {j : Json} (h : Lexical j) : IsText j.prettyString j := by
  rw [IsText, prettyString, String.toList_ofList]
  exact .of_value (value_pretty 0 j h)

end Dialogue.Json
