import Dialogue.Clock
import Dialogue.Decimal.Shortest
import Dialogue.Failure
import Dialogue.Inclusion.Shape
/-!
# `Dialogue.Script.Value` — what scripts compute with.

A value of code type `κ` holds closures whose code is a `κ`; with an empty code type it is a constant. Values are
never shared: what several closures see together is a cell, named by number, and only variables and closures
hold cells.
-/

namespace Dialogue.Script

mutual

/-- **A value** whose closures carry code of type `κ`. -/
inductive Datum (κ : Type)
  | unit
  | bool (b : Bool)
  | int (n : Int64)
  | float (x : Float)
  | char (c : Char)
  | str (s : String)
  /-- Whole numbers from a first to a last one, which may belong to the range. -/
  | range (first last : Int64) (inclusive : Bool)
  | array (items : List (Datum κ))
  /-- Fields in the order of their names. -/
  | object (fields : List (String × Datum κ))
  /-- A moment that was read from the clock. -/
  | timestamp (t : Instant)
  | inclusion (i : Inclusion)
  /-- An include failure that a script has caught. -/
  | failure (f : Failure)
  /-- A function by name, with arguments given in advance and code of its own if it is a closure. -/
  | function (name : String) (given : List (Slot κ)) (code : Option κ)

/-- **What holds a value:** the value itself, or a cell shared with others. -/
inductive Slot (κ : Type)
  | own (value : Datum κ)
  | cell (index : Nat)

end

/-- A value without closures. -/
abbrev Constant := Datum Empty

namespace Datum

variable {κ : Type}

instance : Inhabited (Datum κ) := ⟨unit⟩

/-- **The name of a value's type** as scripts see it. -/
def typeName : Datum κ → String
  | unit => "()"
  | bool _ => "bool"
  | int _ => "i64"
  | float _ => "f64"
  | char _ => "char"
  | str _ => "string"
  | range _ _ false => "range"
  | range _ _ true => "range="
  | array _ => "array"
  | object _ => "map"
  | timestamp _ => "timestamp"
  | inclusion _ => "IncludePart"
  | failure _ => "parley_eval::error::EvalError"
  | function .. => "Fn"

/-- The name of a value's type in the signature of a call. -/
def signatureName : Datum κ → String
  | str _ => "&str | ImmutableString | String"
  | v => v.typeName

/-- Do two values have the same type? -/
def sameType : Datum κ → Datum κ → Bool
  | unit, unit | bool _, bool _ | int _, int _ | float _, float _ | char _, char _ | str _, str _
  | array _, array _ | object _, object _ | timestamp _, timestamp _ | inclusion _, inclusion _
  | failure _, failure _ | function .., function .. => true
  | range _ _ a, range _ _ b => a == b
  | _, _ => false

/-- The texts of items between separators. -/
def joined (open_ : String) (texts : List String) (close : String) : String :=
  open_ ++ ", ".intercalate texts ++ close

/-- The text of a range. -/
def rangeText (first last : Int64) (inclusive : Bool) : String :=
  toString first.toInt ++ (if inclusive then "..=" else "..") ++ toString last.toInt

/-- The text of a function. -/
def functionText (name : String) : String := s!"Fn({name})"

mutual

/-- **The text of a value inside another one:** strings are quoted. How an include shows is up to `part`. -/
def innerText (part : Inclusion → String) : Datum κ → String
  | unit => "()"
  | bool b => toString b
  | int n => toString n.toInt
  | float x => Decimal.nested x
  | char c => Text.Quoted.char c
  | str s => Text.Quoted.text s
  | range first last inclusive => rangeText first last inclusive
  | array items => joined "[" (innerTexts part items) "]"
  | object fields => joined "#\x7b" (fieldTexts part fields) "\x7d"
  | timestamp _ => "<timestamp>"
  | inclusion i => part i
  | failure _ => "parley_eval::error::EvalError"
  | function name .. => functionText name

/-- The texts of items. -/
def innerTexts (part : Inclusion → String) : List (Datum κ) → List String
  | [] => []
  | v :: vs => v.innerText part :: innerTexts part vs

/-- The texts of fields. -/
def fieldTexts (part : Inclusion → String) : List (String × Datum κ) → List String
  | [] => []
  | (k, v) :: fs => (Text.Quoted.text k ++ ": " ++ v.innerText part) :: fieldTexts part fs

end

/-- The text of a value on its own: strings and characters are themselves, `()` is empty. -/
def outerText (whole part : Inclusion → String) : Datum κ → String
  | unit => ""
  | char c => c.toString
  | str s => s
  | float x => Decimal.plain x
  | inclusion i => whole i
  | v => v.innerText part

/-- How an include shows where its contents do not. -/
def opaquePart (_ : Inclusion) : String := "parley_core::emit::IncludePart"

/-- **The text of a value that is emitted or shown outside the script.** -/
def shown (v : Datum κ) : String := v.outerText opaquePart opaquePart

/-- **The text of a value in a script's own texts**, where an include shows its contents. -/
def scriptText (v : Datum κ) : String := v.outerText Inclusion.text Inclusion.shape

mutual

/-- A constant among other values. It holds no cells. -/
def ofConstant : Constant → Datum κ
  | .unit => .unit
  | .bool b => .bool b
  | .int n => .int n
  | .float x => .float x
  | .char c => .char c
  | .str s => .str s
  | .range first last inclusive => .range first last inclusive
  | .array items => .array (ofConstants items)
  | .object fields => .object (ofConstantFields fields)
  | .timestamp t => .timestamp t
  | .inclusion i => .inclusion i
  | .failure f => .failure f
  | .function name _ _ => .function name [] none

/-- Constants among other values. -/
def ofConstants : List Constant → List (Datum κ)
  | [] => []
  | v :: vs => ofConstant v :: ofConstants vs

/-- Constant fields among other fields. -/
def ofConstantFields : List (String × Constant) → List (String × Datum κ)
  | [] => []
  | (k, v) :: fs => (k, ofConstant v) :: ofConstantFields fs

end

mutual

/-- The constant that a value is, if no function is in it. -/
def toConstant? : Datum κ → Option Constant
  | .unit => some .unit
  | .bool b => some (.bool b)
  | .int n => some (.int n)
  | .float x => some (.float x)
  | .char c => some (.char c)
  | .str s => some (.str s)
  | .range first last inclusive => some (.range first last inclusive)
  | .array items => (toConstants? items).map .array
  | .object fields => (toConstantFields? fields).map .object
  | .timestamp t => some (.timestamp t)
  | .inclusion i => some (.inclusion i)
  | .failure f => some (.failure f)
  | .function .. => none

/-- The constants that items are. -/
def toConstants? : List (Datum κ) → Option (List Constant)
  | [] => some []
  | v :: vs => do return (← v.toConstant?) :: (← toConstants? vs)

/-- The constants that fields are. -/
def toConstantFields? : List (String × Datum κ) → Option (List (String × Constant))
  | [] => some []
  | (k, v) :: fs => do return (k, ← v.toConstant?) :: (← toConstantFields? fs)

end

/-- The field of a given name. -/
def field? (fields : List (String × Datum κ)) (name : String) : Option (Datum κ) :=
  (fields.find? (·.1 == name)).map (·.2)

/-- Set a field. Fields stay in the order of their names, which is that of their characters. -/
def setField (name : String) (v : Datum κ) : List (String × Datum κ) → List (String × Datum κ)
  | [] => [(name, v)]
  | (k, w) :: fs =>
    if name == k then (name, v) :: fs
    else if name < k then (name, v) :: (k, w) :: fs
    else (k, w) :: setField name v fs

/-- Fields in the order of their names, later ones replacing earlier ones. -/
def ofFields (fields : List (String × Datum κ)) : List (String × Datum κ) :=
  fields.foldl (fun fs f => setField f.1 f.2 fs) []

end Datum

end Dialogue.Script
