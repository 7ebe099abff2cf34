import Dialogue.Proofs.Json.Grammar
import Mathlib.Data.List.TakeWhile
/-!
# `Dialogue.Proofs.Json.Reading` — JSON texts are read as the documents they stand for.

The reader takes a value as far as it goes and leaves what follows it, blanks included. Main statements: a text of a
document is read as that document, so that what is written is read back; and one text after another is no text.
-/

namespace Dialogue.Json

open Grammar

/-! ## §1 — blanks -/

theorem skipSpace_append {left : List Char} (h : Spaces left) (cs : List Char) :
    skipSpace (left ++ cs) = skipSpace cs := List.dropWhile_append_of_pos h

theorem skipSpace_cons {c : Char} (h : isSpace c = false) (cs : List Char) : skipSpace (c :: cs) = c :: cs :=
  List.dropWhile_cons_of_neg (by simp [h])

theorem skipSpace_skipSpace (cs : List Char) : skipSpace (skipSpace cs) = skipSpace cs := by
  have stopped := List.head?_dropWhile_not isSpace cs
  cases left : skipSpace cs with
  | nil => rfl
  | cons c rest =>
    rw [← skipSpace, left] at stopped
    exact skipSpace_cons stopped rest

/-- **No number goes on with the text.** -/
def Ends (rest : List Char) : Prop := ∀ c ∈ rest.head?, isSpace c = true ∨ c = ',' ∨ c = ']' ∨ c = '\x7d'

theorem ends_nil : Ends [] := fun _ none => nomatch none

theorem ends_cons {c : Char} (h : isSpace c = true ∨ c = ',' ∨ c = ']' ∨ c = '\x7d') (rest : List Char) :
    Ends (c :: rest) := fun _ head => Option.some.inj head ▸ h

theorem Ends.after {right rest : List Char} (blank : Spaces right) (h : Ends rest) : Ends (right ++ rest) := by
  cases right with
  | nil => exact h
  | cons c right => exact ends_cons (.inl (blank c List.mem_cons_self)) _

/-! ## §2 — strings -/

section

variable {cs : List Char}

theorem stringBody?_plain {c : Char} (low : 0x20 ≤ c.toNat) (quote : c ≠ '"') (escape : c ≠ '\\') :
    stringBody? (c :: cs) = (stringBody? cs).map fun (s, rest) => (c :: s, rest) := by
  rw [stringBody?.eq_def]
  split
  · rename_i same
    exact nomatch same
  · rename_i same
    exact absurd (List.cons.inj same).1 quote
  · rename_i same
    exact absurd (List.cons.inj same).1 escape
  · rename_i same
    exact absurd (List.cons.inj same).1 escape
  · rename_i same
    obtain ⟨rfl, rfl⟩ := List.cons.inj same
    exact if_neg (not_or.mpr ⟨Nat.not_lt.mpr low, escape⟩)

theorem stringBody?_simple {c e : Char} (h : simpleEscape? c = some e) :
    stringBody? ('\\' :: c :: cs) = (stringBody? cs).map fun (s, rest) => (e :: s, rest) := by
  have other : c ≠ 'u' := by
    rintro rfl
    cases h
  rw [stringBody?.eq_def]
  split
  · rename_i same
    exact nomatch same
  · rename_i same
    exact nomatch same
  · rename_i same
    exact absurd (List.cons.inj (List.cons.inj same).2).1 other
  · rename_i same
    obtain ⟨rfl, rfl⟩ := List.cons.inj (List.cons.inj same).2
    rw [h]
  · -- the last case is for a backslash at the end of the text
    rename_i escape same
    obtain ⟨rfl, rfl⟩ := List.cons.inj same
    exact absurd rfl (escape _ _ rfl)

theorem stringBody?_unit {a b c d : Char} {n : Nat} (h : unit? a b c d = some n) (high : isHigh n = false)
    (low : isLow n = false) : stringBody? ('\\' :: 'u' :: a :: b :: c :: d :: cs) =
      (stringBody? cs).map fun (s, rest) => (Char.ofNat n :: s, rest) := by
  rw [stringBody?.eq_def]
  simp [h, high, low]

theorem stringBody?_pair {a b c d e f g h : Char} {n m : Nat} (first : unit? a b c d = some n)
    (high : isHigh n = true) (second : unit? e f g h = some m) (low : isLow m = true) :
    stringBody? ('\\' :: 'u' :: a :: b :: c :: d :: '\\' :: 'u' :: e :: f :: g :: h :: cs) =
      (stringBody? cs).map fun (s, rest) =>
        (Char.ofNat (0x10000 + (n - 0xD800) * 0x400 + (m - 0xDC00)) :: s, rest) := by
  have apart : isLow n = false := by
    simp only [isHigh, isLow, Bool.and_eq_true, decide_eq_true_eq, Bool.and_eq_false_iff, decide_eq_false_iff_not] at *
    omega
  rw [stringBody?.eq_def]
  simp [first, high, apart, second, low]

end

/-- **The inside of a string** is read up to the quote that ends it. -/
theorem stringBody?_letters {written meant : List Char} (h : Letters written meant) (rest : List Char) :
    stringBody? (written ++ '"' :: rest) = some (meant, rest) := by
  induction h with
  | nil => rfl
  | plain low quote escape _ ih =>
    rw [List.cons_append, stringBody?_plain low quote escape, ih]
    rfl
  | simple h _ ih =>
    show stringBody? ('\\' :: _ :: (_ ++ _)) = _
    rw [stringBody?_simple h, ih]
    rfl
  | unit h high low _ ih =>
    show stringBody? ('\\' :: 'u' :: _ :: _ :: _ :: _ :: (_ ++ _)) = _
    rw [stringBody?_unit h high low, ih]
    rfl
  | pair first high second low _ ih =>
    show stringBody? ('\\' :: 'u' :: _ :: _ :: _ :: _ :: '\\' :: 'u' :: _ :: _ :: _ :: _ :: (_ ++ _)) = _
    rw [stringBody?_pair first high second low, ih]
    rfl

/-! ## §3 — numbers -/

/-- **No digit comes first.** -/
def NoDigit (rest : List Char) : Prop := ∀ c ∈ rest.head?, isDigit c = false

section

variable {rest : List Char}

theorem takeWhile_digits {ds : List Char} (all : ∀ d ∈ ds, isDigit d = true) (stop : NoDigit rest) :
    (ds ++ rest).takeWhile isDigit = ds := by
  rw [List.takeWhile_append_of_pos all]
  cases rest with
  | nil => exact List.append_nil ds
  | cons c rest => rw [List.takeWhile_cons_of_neg (by simp [stop c rfl]), List.append_nil]

theorem dropWhile_digits {ds : List Char} (all : ∀ d ∈ ds, isDigit d = true) (stop : NoDigit rest) :
    (ds ++ rest).dropWhile isDigit = rest := by
  rw [List.dropWhile_append_of_pos all]
  cases rest with
  | nil => rfl
  | cons c rest => exact List.dropWhile_cons_of_neg (by simp [stop c rfl])

theorem wholePart?_whole {whole : List Char} (h : Whole whole) (stop : NoDigit rest) :
    wholePart? (whole ++ rest) = some (whole, rest) := by
  cases h with
  | zero =>
    have none : (rest.head?.map isDigit).getD false = false := by
      cases rest with
      | nil => rfl
      | cons c rest => exact stop c rfl
    show (if (rest.head?.map isDigit).getD false then Option.none else some (['0'], rest)) = _
    rw [none]
    rfl
  | @digits d ds lead all =>
    have take := takeWhile_digits all stop
    have drop := dropWhile_digits all stop
    unfold wholePart?
    split
    · rename_i start
      exact absurd (List.cons.inj start).1 lead
    · rw [take, drop]

theorem fraction?_fraction {fraction : List Char} (h : Fraction fraction) (stop : NoDigit rest)
    (point : ∀ c ∈ rest.head?, c ≠ '.') : fraction? (fraction ++ rest) = some (fraction, rest) := by
  cases h with
  | none =>
    unfold fraction?
    rw [List.nil_append]
    split
    · exact absurd rfl (point '.' rfl)
    · rfl
  | @digits ds h =>
    have take := takeWhile_digits h.all stop
    have drop := dropWhile_digits h.all stop
    rw [List.cons_append, fraction?]
    split
    · rename_i none
      exact absurd (take.symm.trans none) h.some
    · rw [take, drop]

theorem exponent?_exponent {exponent : List Char} (h : Exponent exponent) (stop : NoDigit rest)
    (mark : ∀ c ∈ rest.head?, c ≠ 'e' ∧ c ≠ 'E') : exponent? (exponent ++ rest) = some (exponent, rest) := by
  cases h with
  | none =>
    cases rest with
    | nil => rfl
    | cons c rest =>
      have other : ¬ (c = 'e' ∨ c = 'E') := not_or.mpr (mark c rfl)
      rw [List.nil_append, exponent?.eq_def]
      exact if_neg other
  | @digits mark sign ds marks signs h =>
    have take := takeWhile_digits h.all stop
    have drop := dropWhile_digits h.all stop
    have some := h.some
    rcases signs with rfl | rfl | rfl
    · -- without a sign it is a digit that stands behind the mark
      cases ds with
      | nil => exact absurd rfl some
      | cons d ds =>
        have digit := h.all d List.mem_cons_self
        have plus : d ≠ '+' := by rintro rfl; cases digit
        have minus : d ≠ '-' := by rintro rfl; cases digit
        simp_all [exponent?]
    · simp_all [exponent?]
    · simp_all [exponent?]

end

/-- What follows a number starts with nothing that a number can go on with. -/
theorem Ends.apart {rest : List Char} (h : Ends rest) :
    ∀ c ∈ rest.head?, isDigit c = false ∧ c ≠ '.' ∧ c ≠ 'e' ∧ c ≠ 'E' := by
  intro c head
  rcases h c head with space | rfl | rfl | rfl
  · simp only [isSpace, Bool.or_eq_true, beq_iff_eq] at space
    rcases space with ((rfl | rfl) | rfl) | rfl <;> decide
  all_goals decide

section

variable {whole fraction exponent rest : List Char}

theorem apart_exponent (h : Exponent exponent) (ends : Ends rest) :
    ∀ c ∈ (exponent ++ rest).head?, isDigit c = false ∧ c ≠ '.' := by
  intro c head
  cases h with
  | none =>
    obtain ⟨digit, point, -⟩ := ends.apart c head
    exact ⟨digit, point⟩
  | digits marks =>
    obtain rfl := Option.some.inj head
    rcases marks with rfl | rfl <;> decide

theorem noDigit_fraction (hf : Fraction fraction) (he : Exponent exponent) (ends : Ends rest) :
    NoDigit (fraction ++ (exponent ++ rest)) := by
  intro c head
  cases hf with
  | none => exact (apart_exponent he ends c head).1
  | digits =>
    obtain rfl := Option.some.inj head
    decide

/-- A whole part starts with a digit. -/
theorem whole_head (h : Whole whole) : ∃ d ds, whole = d :: ds ∧ isDigit d = true := by
  cases h with
  | zero => exact ⟨'0', [], rfl, rfl⟩
  | @digits d ds _ all => exact ⟨d, ds, rfl, all d List.mem_cons_self⟩

/-- **A number** is read up to what cannot be part of it. -/
theorem number?_number {written : List Char} {j : Json} (h : Number written j) (ends : Ends rest) :
    number? (written ++ rest) = some (j, rest) := by
  obtain ⟨negative, hw, hf, he⟩ := h
  rename_i whole fraction exponent
  have first := wholePart?_whole hw (noDigit_fraction hf he ends)
  have second := fraction?_fraction hf (fun c head => (apart_exponent he ends c head).1)
    fun c head => (apart_exponent he ends c head).2
  have third := exponent?_exponent he (fun c head => (ends.apart c head).1) fun c head => (ends.apart c head).2.2
  have text : (if negative then ['-'] else []) ++ whole ++ fraction ++ exponent ++ rest =
      (if negative then ['-'] else []) ++ (whole ++ (fraction ++ (exponent ++ rest))) := by
    simp only [List.append_assoc]
  rw [text]
  cases negative with
  | true =>
    show number? ('-' :: (whole ++ (fraction ++ (exponent ++ rest)))) = _
    simp only [number?, first, second, third, Option.bind_eq_bind, Option.bind_some, numberOf]
    split <;> rfl
  | false =>
    show number? (whole ++ (fraction ++ (exponent ++ rest))) = _
    have plain : ∀ cs, whole ++ (fraction ++ (exponent ++ rest)) ≠ '-' :: cs := by
      obtain ⟨d, ds, rfl, digit⟩ := whole_head hw
      intro cs same
      obtain rfl := (List.cons.inj same).1
      cases digit
    simp only [number?, first, second, third, Option.bind_eq_bind, Option.bind_some, numberOf]
    split <;> rfl

end

/-! ## §4 — values -/

section

variable {fuel : Nat} {cs : List Char}

/-- Blanks before a value, an item or a field are passed over. -/
theorem value?_skipSpace (fuel : Nat) (cs : List Char) : value? fuel (skipSpace cs) = value? fuel cs := by
  cases fuel with
  | zero => rw [value?, value?]
  | succ fuel => rw [value?, value?, skipSpace_skipSpace]

theorem items?_skipSpace (fuel : Nat) (cs : List Char) : items? fuel (skipSpace cs) = items? fuel cs := by
  cases fuel with
  | zero => rw [items?, items?]
  | succ fuel => rw [items?, items?, value?_skipSpace]

theorem fields?_skipSpace (fuel : Nat) (cs : List Char) : fields? fuel (skipSpace cs) = fields? fuel cs := by
  cases fuel with
  | zero => rw [fields?, fields?]
  | succ fuel => rw [fields?, fields?, skipSpace_skipSpace]

theorem value?_string (cs : List Char) :
    value? (fuel + 1) ('"' :: cs) = (stringBody? cs).map fun (s, rest) => (.str (String.ofList s), rest) := by
  rw [value?, skipSpace_cons rfl]
  rfl

theorem value?_noItems {blanks : List Char} (h : Spaces blanks) (rest : List Char) :
    value? (fuel + 1) ('[' :: (blanks ++ ']' :: rest)) = some (.arr [], rest) := by
  have stop : skipSpace (blanks ++ ']' :: rest) = ']' :: rest := by
    rw [skipSpace_append h, skipSpace_cons rfl]
  rw [value?, skipSpace_cons rfl]
  simp only [stop]

theorem value?_items (some : ∀ rest, skipSpace cs ≠ ']' :: rest) :
    value? (fuel + 1) ('[' :: cs) = (items? fuel cs).map fun (js, rest) => (.arr js, rest) := by
  rw [value?, skipSpace_cons rfl]
  simp only [items?_skipSpace]

theorem value?_noFields {blanks : List Char} (h : Spaces blanks) (rest : List Char) :
    value? (fuel + 1) ('\x7b' :: (blanks ++ '\x7d' :: rest)) = some (.obj [], rest) := by
  have stop : skipSpace (blanks ++ '\x7d' :: rest) = '\x7d' :: rest := by
    rw [skipSpace_append h, skipSpace_cons rfl]
  rw [value?, skipSpace_cons rfl]
  simp only [stop]

theorem value?_fields (some : ∀ rest, skipSpace cs ≠ '\x7d' :: rest) :
    value? (fuel + 1) ('\x7b' :: cs) = (fields? fuel cs).map fun (fs, rest) => (.obj fs, rest) := by
  rw [value?, skipSpace_cons rfl]
  simp only [fields?_skipSpace]

theorem value?_null (rest : List Char) : value? (fuel + 1) ('n' :: 'u' :: 'l' :: 'l' :: rest) = some (.null, rest) := by
  rw [value?, skipSpace_cons rfl]
  rfl

theorem value?_true (rest : List Char) :
    value? (fuel + 1) ('t' :: 'r' :: 'u' :: 'e' :: rest) = some (.bool true, rest) := by
  rw [value?, skipSpace_cons rfl]
  rfl

theorem value?_false (rest : List Char) :
    value? (fuel + 1) ('f' :: 'a' :: 'l' :: 's' :: 'e' :: rest) = some (.bool false, rest) := by
  rw [value?, skipSpace_cons rfl]
  rfl

/-- What a number starts with starts nothing else. -/
theorem apart_number {c : Char} (start : isDigit c = true ∨ c = '-') :
    isSpace c = false ∧ c ≠ ']' ∧ c ≠ '"' ∧ c ≠ '[' ∧ c ≠ '\x7b' ∧ c ≠ 'n' ∧ c ≠ 't' ∧ c ≠ 'f' := by
  rcases start with digit | rfl
  · refine ⟨?_, ?_, ?_, ?_, ?_, ?_, ?_, ?_⟩
    · by_contra space
      simp only [isSpace, Bool.not_eq_false, Bool.or_eq_true, beq_iff_eq] at space
      rcases space with ((rfl | rfl) | rfl) | rfl <;> cases digit
    all_goals
      rintro rfl
      cases digit
  · decide

/-- A digit or a sign starts a number and nothing else. -/
theorem value?_number {c : Char} (start : isDigit c = true ∨ c = '-') :
    value? (fuel + 1) (c :: cs) = number? (c :: cs) := by
  obtain ⟨space, -, quote, bracket, brace, n, t, f⟩ := apart_number start
  have word (w : String) (d : Char) (lead : w.toList.head? = some d) (other : c ≠ d) :
      afterWord? w (c :: cs) = none := by
    rw [afterWord?]
    cases letters : w.toList with
    | nil =>
      rw [letters] at lead
      cases lead
    | cons e es =>
      rw [letters] at lead
      obtain rfl := Option.some.inj lead
      simp [other.symm]
  rw [value?, skipSpace_cons space]
  split
  · rename_i same
    exact absurd (List.cons.inj same).1 quote
  · rename_i same
    exact absurd (List.cons.inj same).1 bracket
  · rename_i same
    exact absurd (List.cons.inj same).1 brace
  · simp only [word "null" 'n' (by decide) n, word "true" 't' (by decide) t, word "false" 'f' (by decide) f]

/-- What the items go on with behind the first. -/
def itemsAfter (fuel : Nat) (j : Json) (cs : List Char) : Option (List Json × List Char) :=
  match skipSpace cs with
  | ']' :: rest => some ([j], rest)
  | ',' :: rest => (items? fuel rest).map fun (js, rest) => (j :: js, rest)
  | _ => none

/-- What the fields go on with behind the first. -/
def fieldsAfter (fuel : Nat) (f : String × Json) (cs : List Char) :
    Option (List (String × Json) × List Char) :=
  match skipSpace cs with
  | '\x7d' :: rest => some ([f], rest)
  | ',' :: rest => (fields? fuel rest).map fun (fs, rest) => (f :: fs, rest)
  | _ => none

theorem itemsAfter_last {right : List Char} (blank : Spaces right) (j : Json) (rest : List Char) :
    itemsAfter fuel j (right ++ ']' :: rest) = some ([j], rest) := by
  rw [itemsAfter, skipSpace_append blank, skipSpace_cons rfl]
  rfl

theorem itemsAfter_comma {right : List Char} (blank : Spaces right) (j : Json) (cs : List Char) :
    itemsAfter fuel j (right ++ ',' :: cs) = (items? fuel cs).map fun (js, rest) => (j :: js, rest) := by
  rw [itemsAfter, skipSpace_append blank, skipSpace_cons rfl]
  rfl

theorem fieldsAfter_last (f : String × Json) (rest : List Char) :
    fieldsAfter fuel f ('\x7d' :: rest) = some ([f], rest) := by
  rw [fieldsAfter, skipSpace_cons rfl]
  rfl

theorem fieldsAfter_comma (f : String × Json) (cs : List Char) :
    fieldsAfter fuel f (',' :: cs) = (fields? fuel cs).map fun (fs, rest) => (f :: fs, rest) := by
  rw [fieldsAfter, skipSpace_cons rfl]
  rfl

theorem items?_value {j : Json} {rest : List Char} (h : value? fuel cs = some (j, rest)) :
    items? (fuel + 1) cs = itemsAfter fuel j rest := by
  rw [items?, h]
  rfl

theorem fields?_value {left key meant right written rest : List Char} {j : Json} (before : Spaces left)
    (letters : Letters key meant) (after : Spaces right) (h : value? fuel written = some (j, rest)) :
    fields? (fuel + 1) (left ++ '"' :: (key ++ '"' :: (right ++ ':' :: written))) =
      fieldsAfter fuel (String.ofList meant, j) rest := by
  rw [fields?, skipSpace_append before, skipSpace_cons rfl]
  simp only [stringBody?_letters letters, skipSpace_append after, skipSpace_cons (show isSpace ':' = false from rfl), h]
  rfl

end

/-! ## §5 — texts -/

section

variable {written : List Char} {j : Json} {f : String × Json} {js : List Json} {fs : List (String × Json)}

/-- A number starts with a digit or a sign. -/
theorem number_head (h : Number written j) : ∃ c tail, written = c :: tail ∧ (isDigit c = true ∨ c = '-') := by
  obtain ⟨negative, hw, -, -⟩ := h
  cases negative with
  | true => exact ⟨'-', _, rfl, .inr rfl⟩
  | false =>
    obtain ⟨d, ds, rfl, digit⟩ := whole_head hw
    exact ⟨d, _, rfl, .inl digit⟩

/-- A value starts with neither a blank nor a bracket that closes. -/
theorem value_head (h : Value written j) : ∃ c tail, written = c :: tail ∧ isSpace c = false ∧ c ≠ ']' := by
  cases h with
  | number h =>
    obtain ⟨c, tail, rfl, start⟩ := number_head h
    obtain ⟨space, bracket⟩ := apart_number start
    exact ⟨c, tail, rfl, space, bracket.1⟩
  | null | true | false | string | noItems | items | noFields | fields => exact ⟨_, _, rfl, by decide, by decide⟩

/-- A text holds more than blanks. -/
theorem element_some (h : Element written j) : ∃ c ∈ written, isSpace c = false := by
  obtain ⟨-, value, -⟩ := h
  obtain ⟨c, tail, rfl, space, -⟩ := value_head value
  exact ⟨c, List.mem_append_right _ List.mem_cons_self, space⟩

theorem skipSpace_elements (h : Elements written js) (more rest : List Char) :
    skipSpace (written ++ more) ≠ ']' :: rest := by
  have first {text : List Char} {k : Json} (element : Element text k) (more : List Char) :
      skipSpace (text ++ more) ≠ ']' :: rest := by
    obtain ⟨before, value, -⟩ := element
    obtain ⟨c, tail, rfl, space, bracket⟩ := value_head value
    rw [List.append_assoc, skipSpace_append before]
    intro same
    rw [List.cons_append, List.cons_append, skipSpace_cons space] at same
    exact bracket (List.cons.inj same).1
  cases h with
  | last h => exact first h more
  | cons h =>
    rw [List.append_assoc]
    exact first h _

theorem skipSpace_members (h : Members written fs) (more rest : List Char) :
    skipSpace (written ++ more) ≠ '\x7d' :: rest := by
  have first {text : List Char} {g : String × Json} (member : Member text g) (more : List Char) :
      skipSpace (text ++ more) ≠ '\x7d' :: rest := by
    obtain ⟨before, -, -, -⟩ := member
    rw [List.append_assoc, skipSpace_append before]
    intro same
    rw [List.cons_append, skipSpace_cons rfl] at same
    exact absurd (List.cons.inj same).1 (by decide)
  cases h with
  | last h => exact first h more
  | cons h =>
    rw [List.append_assoc]
    exact first h _

end

mutual

/-- **A value is read as far as it goes**, by a reader that has a step for each of its characters. -/
theorem value?_value {written rest : List Char} {j : Json} {fuel : Nat} (h : Value written j)
    (room : written.length ≤ fuel) (ends : Ends rest) : value? fuel (written ++ rest) = some (j, rest) := by
  obtain ⟨fuel, rfl⟩ : ∃ n, fuel = n + 1 := by
    obtain ⟨c, tail, rfl, -⟩ := value_head h
    rw [List.length_cons] at room
    exact ⟨fuel - 1, by omega⟩
  match h with
  | .null => exact value?_null rest
  | .true => exact value?_true rest
  | .false => exact value?_false rest
  | .number number =>
    have whole := number?_number number ends
    obtain ⟨c, tail, rfl, start⟩ := number_head number
    rw [List.cons_append] at whole ⊢
    rw [value?_number start, whole]
  | .string letters =>
    rw [List.cons_append, List.append_assoc, value?_string]
    show (stringBody? (_ ++ '"' :: rest)).map _ = _
    rw [stringBody?_letters letters]
    rfl
  | .noItems blanks =>
    rw [List.cons_append, List.append_assoc]
    exact value?_noItems blanks rest
  | .items items =>
    simp only [List.length_cons, List.length_append, List.length_nil] at room
    -- the bracket has taken one step, and the closing one is no part of the items
    have read := items?_elements items rest (show _ < fuel by omega)
    rw [List.cons_append, List.append_assoc]
    show value? (fuel + 1) ('[' :: (_ ++ ']' :: rest)) = _
    rw [value?_items (skipSpace_elements items _), read]
    rfl
  | .noFields blanks =>
    rw [List.cons_append, List.append_assoc]
    exact value?_noFields blanks rest
  | .fields fields =>
    simp only [List.length_cons, List.length_append, List.length_nil] at room
    have read := fields?_members fields rest (show _ < fuel by omega)
    rw [List.cons_append, List.append_assoc]
    show value? (fuel + 1) ('\x7b' :: (_ ++ '\x7d' :: rest)) = _
    rw [value?_fields (skipSpace_members fields _), read]
    rfl

theorem value?_element {written rest : List Char} {j : Json} {fuel : Nat} (h : Element written j)
    (room : written.length ≤ fuel) (ends : Ends rest) :
    ∃ right, Spaces right ∧ value? fuel (written ++ rest) = some (j, right ++ rest) := by
  match h with
  | .mk before value after =>
    rename_i right
    simp only [List.length_append] at room
    have read := value?_value value (show _ ≤ fuel by omega) (ends.after after)
    refine ⟨right, after, ?_⟩
    rw [← value?_skipSpace, List.append_assoc, skipSpace_append before, value?_skipSpace, List.append_assoc, read]

theorem items?_elements {written : List Char} {js : List Json} {fuel : Nat} (h : Elements written js)
    (rest : List Char) (room : written.length < fuel) : items? fuel (written ++ ']' :: rest) = some (js, rest) := by
  obtain ⟨fuel, rfl⟩ : ∃ n, fuel = n + 1 := ⟨fuel - 1, by omega⟩
  match h with
  | .last element =>
    have ends : Ends (']' :: rest) := ends_cons (by decide) rest
    obtain ⟨right, blank, read⟩ := value?_element element (Nat.le_of_lt_succ room) ends
    rw [items?_value read, itemsAfter_last blank]
  | .cons element later =>
    rename_i first others k ks
    simp only [List.length_append, List.length_cons] at room
    have following := items?_elements later rest (show _ < fuel by omega)
    have ends : Ends (',' :: (others ++ ']' :: rest)) := ends_cons (by decide) _
    obtain ⟨right, blank, read⟩ := value?_element element (show _ ≤ fuel by omega) ends
    rw [List.append_assoc]
    show items? (fuel + 1) (first ++ ',' :: (others ++ ']' :: rest)) = _
    rw [items?_value read, itemsAfter_comma blank, following]
    rfl

theorem fields?_member {written rest : List Char} {f : String × Json} {fuel : Nat} (h : Member written f)
    (room : written.length ≤ fuel) (ends : Ends rest) :
    fields? (fuel + 1) (written ++ rest) = fieldsAfter fuel f rest := by
  match h with
  | .mk before letters after value =>
    rename_i left key meant right text j
    simp only [List.length_append, List.length_cons] at room
    obtain ⟨blanks, blank, read⟩ := value?_element value (show _ ≤ fuel by omega) ends
    have text : left ++ '"' :: (key ++ '"' :: (right ++ ':' :: text)) ++ rest =
        left ++ '"' :: (key ++ '"' :: (right ++ ':' :: (text ++ rest))) := by
      simp only [List.append_assoc, List.cons_append]
    rw [text, fields?_value before letters after read, fieldsAfter, skipSpace_append blank]
    rfl

theorem fields?_members {written : List Char} {fs : List (String × Json)} {fuel : Nat} (h : Members written fs)
    (rest : List Char) (room : written.length < fuel) : fields? fuel (written ++ '\x7d' :: rest) = some (fs, rest) := by
  obtain ⟨fuel, rfl⟩ : ∃ n, fuel = n + 1 := ⟨fuel - 1, by omega⟩
  match h with
  | .last member =>
    have ends : Ends ('\x7d' :: rest) := ends_cons (by decide) rest
    rw [fields?_member member (Nat.le_of_lt_succ room) ends, fieldsAfter_last]
  | .cons member later =>
    rename_i first others g gs
    simp only [List.length_append, List.length_cons] at room
    have following := fields?_members later rest (show _ < fuel by omega)
    have ends : Ends (',' :: (others ++ '\x7d' :: rest)) := ends_cons (by decide) _
    rw [List.append_assoc]
    show fields? (fuel + 1) (first ++ ',' :: (others ++ '\x7d' :: rest)) = _
    rw [fields?_member member (by omega) ends, fieldsAfter_comma, following]
    rfl

end

/-- **A text of a document** is read as that document. -/
theorem parse?_of_isText {text : String} {j : Json} (h : IsText text j) : parse? text = some j := by
  have ends : Ends [] := ends_nil
  have room : text.toList.length ≤ 2 * text.toList.length + 1 := by omega
  obtain ⟨right, blank, read⟩ := value?_element h room ends
  rw [List.append_nil, List.append_nil] at read
  have none : skipSpace right = [] := by
    have all := skipSpace_append blank []
    rwa [List.append_nil] at all
  rw [parse?, read]
  simp only [none]
  rfl

/-- What a document is written as, on one line or over several, is read back as the document. -/
theorem parse?_compactString {j : Json} (h : Lexical j) : parse? j.compactString = some j :=
  parse?_of_isText (isText_compactString h)

theorem parse?_prettyString {j : Json} (h : Lexical j) : parse? j.prettyString = some j :=
  parse?_of_isText (isText_prettyString h)

/-- **One text after another is no text:** what follows the first would have to be blank. -/
theorem not_isText_append {first second : String} {j k l : Json} (hj : IsText first j) (hk : IsText second k) :
    ¬ IsText (first ++ "\n" ++ second) l := by
  intro both
  have text : (first ++ "\n" ++ second).toList = first.toList ++ '\n' :: second.toList := by simp
  have both : Element (first.toList ++ '\n' :: second.toList) l := text ▸ both
  have ends : Ends ('\n' :: second.toList) := ends_cons (.inl rfl) _
  have room : first.toList.length ≤ (first.toList ++ '\n' :: second.toList).length := by
    rw [List.length_append]
    omega
  obtain ⟨right, -, read⟩ := value?_element hj room ends
  obtain ⟨right', blank, read'⟩ := value?_element both (Nat.le_refl _) ends_nil
  rw [List.append_nil, List.append_nil, read] at read'
  obtain ⟨-, same⟩ := Prod.mk.inj (Option.some.inj read')
  -- so the second text would be blank, and yet it holds a value
  obtain ⟨c, mem, space⟩ := element_some hk
  have blank : isSpace c = true := blank c (same ▸ List.mem_append_right _ (List.mem_cons_of_mem _ mem))
  rw [space] at blank
  cases blank

end Dialogue.Json
