import Dialogue.Proofs.Script.Scalar
import Dialogue.Proofs.Script.Undeclaring
/-!
# `Dialogue.Proofs.Script.Genuine` — values and code whose failures are known.

A failure is a value that scripts can keep in other values, in closures and in code, but have no means to make. A value
is *genuine* when every failure in it is one of those in `P`, and so is code when every constant in it is. Main
statement: constants go into values and come out of them as genuine as they were.
-/

namespace Dialogue.Script

/-! ## §1 — values -/

section Values

variable {κ : Type} (P : Failure → Prop) (C : κ → Prop)

mutual

/-- **A value whose failures are in `P`**, and the code of its closures in `C`. -/
inductive Datum.Holds : Datum κ → Prop
  | scalar {v : Datum κ} (h : v.IsScalar) : Datum.Holds v
  | array {items : List (Datum κ)} (h : ∀ v ∈ items, Datum.Holds v) : Datum.Holds (.array items)
  | object {fields : List (String × Datum κ)} (h : ∀ f ∈ fields, Datum.Holds f.2) : Datum.Holds (.object fields)
  | failure {e : Failure} (h : P e) : Datum.Holds (.failure e)
  | function (name : String) {given : List (Slot κ)} (hg : ∀ s ∈ given, Slot.Holds s) {code : Option κ}
      (hc : ∀ f ∈ code, C f) : Datum.Holds (.function name given code)

/-- A slot that holds such a value, or a cell. -/
inductive Slot.Holds : Slot κ → Prop
  | own {v : Datum κ} (h : Datum.Holds v) : Slot.Holds (.own v)
  | cell (index : Nat) : Slot.Holds (.cell index)

end

/-- Fields that hold such values. -/
abbrev FieldsHold (fields : List (String × Datum κ)) : Prop := ∀ f ∈ fields, f.2.Holds P C

end Values

section

variable {κ : Type} {P : Failure → Prop} {C : κ → Prop}

namespace Datum

@[simp] theorem holds_array_iff {items : List (Datum κ)} :
    (array items).Holds P C ↔ ∀ v ∈ items, v.Holds P C := by
  constructor
  · intro h
    cases h with
    | scalar hs => exact hs.elim
    | array h => exact h
  · exact .array

@[simp] theorem holds_object_iff {fields : List (String × Datum κ)} :
    (object fields).Holds P C ↔ FieldsHold P C fields := by
  constructor
  · intro h
    cases h with
    | scalar hs => exact hs.elim
    | object h => exact h
  · exact .object

@[simp] theorem holds_failure_iff {e : Failure} : (failure e : Datum κ).Holds P C ↔ P e := by
  constructor
  · intro h
    cases h with
    | scalar hs => exact hs.elim
    | failure h => exact h
  · exact .failure

@[simp] theorem holds_function_iff {name : String} {given : List (Slot κ)} {code : Option κ} :
    (function name given code).Holds P C ↔ (∀ s ∈ given, s.Holds P C) ∧ ∀ f ∈ code, C f := by
  constructor
  · intro h
    cases h with
    | scalar hs => exact hs.elim
    | function _ hg hc => exact ⟨hg, hc⟩
  · exact fun h => .function name h.1 h.2

/-- The items of an array. -/
theorem Holds.items {items : List (Datum κ)} (h : (Datum.array items).Holds P C) : ∀ v ∈ items, v.Holds P C :=
  holds_array_iff.mp h

/-- The fields of a map. -/
theorem Holds.fields {fields : List (String × Datum κ)} (h : (Datum.object fields).Holds P C) :
    FieldsHold P C fields :=
  holds_object_iff.mp h

@[simp] theorem holds_unit : (unit : Datum κ).Holds P C := .scalar trivial

@[simp] theorem holds_bool (b : Bool) : (bool b : Datum κ).Holds P C := .scalar trivial

@[simp] theorem holds_int (n : Int64) : (int n : Datum κ).Holds P C := .scalar trivial

@[simp] theorem holds_float (x : Float) : (float x : Datum κ).Holds P C := .scalar trivial

@[simp] theorem holds_char (c : Char) : (char c : Datum κ).Holds P C := .scalar trivial

@[simp] theorem holds_str (s : String) : (str s : Datum κ).Holds P C := .scalar trivial

@[simp] theorem holds_range (first last : Int64) (inclusive : Bool) :
    (range first last inclusive : Datum κ).Holds P C := .scalar trivial

@[simp] theorem holds_inclusion (i : Inclusion) : (inclusion i : Datum κ).Holds P C := .scalar trivial

end Datum

@[simp] theorem Slot.holds_own_iff {v : Datum κ} : (Slot.own v).Holds P C ↔ v.Holds P C := by
  constructor
  · rintro ⟨h⟩
    exact h
  · exact .own

@[simp] theorem Slot.holds_cell (index : Nat) : (Slot.cell index : Slot κ).Holds P C := .cell index

/-! ## §2 — fields -/

namespace FieldsHold

variable {fields upper : List (String × Datum κ)}

theorem nil : FieldsHold P C ([] : List (String × Datum κ)) := List.forall_mem_nil _

theorem cons {f : String × Datum κ} (hf : f.2.Holds P C) (h : FieldsHold P C fields) : FieldsHold P C (f :: fields) :=
  List.forall_mem_cons.mpr ⟨hf, h⟩

theorem append (h : FieldsHold P C fields) (hu : FieldsHold P C upper) : FieldsHold P C (fields ++ upper) :=
  List.forall_mem_append.mpr ⟨h, hu⟩

/-- A single field that is a scalar. -/
theorem scalar (name : String) {v : Datum κ} (h : v.IsScalar) : FieldsHold P C [(name, v)] := .cons (.scalar h) .nil

theorem field? (h : FieldsHold P C fields) {name : String} {v : Datum κ} (found : Datum.field? fields name = some v) :
    v.Holds P C := by
  obtain ⟨f, there, rfl⟩ := Option.map_eq_some_iff.mp found
  exact h f (List.mem_of_find?_eq_some there)

theorem fieldOr (h : FieldsHold P C fields) (name : String) : ((Datum.field? fields name).getD .unit).Holds P C := by
  cases found : Datum.field? fields name with
  | none => exact Datum.holds_unit
  | some v => exact h.field? found

theorem setField (h : FieldsHold P C fields) (name : String) {v : Datum κ} (hv : v.Holds P C) :
    FieldsHold P C (Datum.setField name v fields) := by
  induction fields with
  | nil => exact .cons hv .nil
  | cons f fs ih =>
    obtain ⟨hf, hfs⟩ := List.forall_mem_cons.mp h
    unfold Datum.setField
    split
    · exact .cons hv hfs
    · split
      · exact .cons hv h
      · exact .cons hf (ih hfs)

/-- Fields put over others. -/
theorem foldl_setField (h : FieldsHold P C fields) (hu : FieldsHold P C upper) :
    FieldsHold P C (upper.foldl (fun fs f => Datum.setField f.1 f.2 fs) fields) := by
  induction upper generalizing fields with
  | nil => exact h
  | cons f fs ih =>
    obtain ⟨hf, hfs⟩ := List.forall_mem_cons.mp hu
    exact ih (h.setField f.1 hf) hfs

theorem ofFields (h : FieldsHold P C fields) : FieldsHold P C (Datum.ofFields fields) :=
  foldl_setField .nil h

end FieldsHold

end

/-- **A constant whose failures are in `P`.** -/
abbrev Constant.Genuine (P : Failure → Prop) (v : Constant) : Prop := v.Holds P fun _ => True

/-! ## §3 — code -/

section Code

variable (P : Failure → Prop)

mutual

/-- **An expression whose constants are genuine**, those in its closures included. -/
inductive Expr.Genuine : Expr → Prop
  | constant {v : Constant} (h : Constant.Genuine P v) (pos : Position) : Expr.Genuine (.constant v pos)
  | var (name : String) (pos : Position) : Expr.Genuine (.var name pos)
  | this (pos : Position) : Expr.Genuine (.this pos)
  | template {pieces : List Expr} (h : ∀ e ∈ pieces, e.Genuine) (pos : Position) : Expr.Genuine (.template pieces pos)
  | array {items : List Expr} (h : ∀ e ∈ items, e.Genuine) (pos : Position) : Expr.Genuine (.array items pos)
  | object {fields : List (String × Expr)} (h : ∀ f ∈ fields, f.2.Genuine) (pos : Position) :
      Expr.Genuine (.object fields pos)
  | operation (op : String) {operands : List Expr} (h : ∀ e ∈ operands, e.Genuine) (pos : Position) :
      Expr.Genuine (.operation op operands pos)
  | call (name : String) {arguments : List Expr} (h : ∀ e ∈ arguments, e.Genuine) (pos : Position) (here : Bool) :
      Expr.Genuine (.call name arguments pos here)
  | both {a b : Expr} (ha : a.Genuine) (hb : b.Genuine) (pos : Position) : Expr.Genuine (.both a b pos)
  | either {a b : Expr} (ha : a.Genuine) (hb : b.Genuine) (pos : Position) : Expr.Genuine (.either a b pos)
  | orElse {a b : Expr} (ha : a.Genuine) (hb : b.Genuine) (pos : Position) : Expr.Genuine (.orElse a b pos)
  | chain {root : Expr} (hr : root.Genuine) {steps : List Step} (hs : ∀ s ∈ steps, s.Genuine) :
      Expr.Genuine (.chain root steps)
  | closure (captured : List (String × Position)) {code : Function} (h : code.Genuine) (pos : Position) :
      Expr.Genuine (.closure captured code pos)
  | statements {body : List Stmt} (h : ∀ s ∈ body, s.Genuine) (pos : Position) : Expr.Genuine (.statements body pos)

/-- A step of a chain with genuine constants. -/
inductive Step.Genuine : Step → Prop
  | property (name : String) (pos dot : Position) (optional : Bool) : Step.Genuine (.property name pos dot optional)
  | index {key : Expr} (h : key.Genuine) (bracket : Position) (optional : Bool) :
      Step.Genuine (.index key bracket optional)
  | method (name : String) {arguments : List Expr} (h : ∀ e ∈ arguments, e.Genuine) (pos dot : Position)
      (optional : Bool) : Step.Genuine (.method name arguments pos dot optional)

/-- **A function with genuine constants.** -/
inductive Function.Genuine : Function → Prop
  | mk (name : String) (params : List String) {body : List Stmt} (h : ∀ s ∈ body, s.Genuine) :
      Function.Genuine (.mk name params body)

/-- **A statement with genuine constants.** -/
inductive Stmt.Genuine : Stmt → Prop
  | noop (pos : Position) : Stmt.Genuine (.noop pos)
  | declare (name : String) (constant : Bool) (inPlace : Option Nat) {value : Expr} (h : value.Genuine)
      (pos : Position) : Stmt.Genuine (.declare name constant inPlace value pos)
  | assign {target : Expr} (ht : target.Genuine) (op : Option String) {value : Expr} (hv : value.Genuine)
      (pos : Position) : Stmt.Genuine (.assign target op value pos)
  | expr {e : Expr} (h : e.Genuine) : Stmt.Genuine (.expr e)
  | block {body : List Stmt} (h : ∀ s ∈ body, s.Genuine) (pos : Position) : Stmt.Genuine (.block body pos)
  | branch {cond : Expr} (hc : cond.Genuine) {yes no : List Stmt} (hy : ∀ s ∈ yes, s.Genuine)
      (hn : ∀ s ∈ no, s.Genuine) (pos : Position) : Stmt.Genuine (.branch cond yes no pos)
  | switch {item : Expr} (hi : item.Genuine) {arms : List Arm} (ha : ∀ a ∈ arms, a.Genuine) {fallback : Option Expr}
      (hf : ∀ e ∈ fallback, e.Genuine) (pos : Position) : Stmt.Genuine (.switch item arms fallback pos)
  | repeatWhile {cond : Option Expr} (hc : ∀ e ∈ cond, e.Genuine) {body : List Stmt} (hb : ∀ s ∈ body, s.Genuine)
      (pos : Position) : Stmt.Genuine (.repeatWhile cond body pos)
  | repeatAfter {body : List Stmt} (hb : ∀ s ∈ body, s.Genuine) {cond : Expr} (hc : cond.Genuine) (goOn : Bool)
      (pos : Position) : Stmt.Genuine (.repeatAfter body cond goOn pos)
  | each (name : String) (counter : Option String) {items : Expr} (hi : items.Genuine) {body : List Stmt}
      (hb : ∀ s ∈ body, s.Genuine) (pos : Position) : Stmt.Genuine (.each name counter items body pos)
  | leave {value : Option Expr} (h : ∀ e ∈ value, e.Genuine) (pos : Position) : Stmt.Genuine (.leave value pos)
  | proceed (pos : Position) : Stmt.Genuine (.proceed pos)
  | giveBack {value : Option Expr} (h : ∀ e ∈ value, e.Genuine) (pos : Position) : Stmt.Genuine (.giveBack value pos)
  | raise {value : Option Expr} (h : ∀ e ∈ value, e.Genuine) (pos : Position) : Stmt.Genuine (.raise value pos)
  | attempt {body : List Stmt} (hb : ∀ s ∈ body, s.Genuine) (name : Option String) {handler : List Stmt}
      (hh : ∀ s ∈ handler, s.Genuine) (pos : Position) : Stmt.Genuine (.attempt body name handler pos)
  | importModule {path : Expr} (h : path.Genuine) (pos : Position) : Stmt.Genuine (.importModule path pos)

/-- An arm of a switch whose code has genuine constants. What it is chosen by is only compared with. -/
inductive Arm.Genuine : Arm → Prop
  | mk (patterns : List Constant) {guard : Option Expr} (hg : ∀ e ∈ guard, e.Genuine) {action : Expr}
      (ha : action.Genuine) : Arm.Genuine (.mk patterns guard action)

end

/-- **Code with genuine constants**, statement by statement. -/
abbrev AllGenuine (ss : List Stmt) : Prop := ∀ s ∈ ss, s.Genuine P

/-- **A script with genuine constants**, those in its functions included. -/
structure Program.Genuine (s : Program) : Prop where
  statements : AllGenuine P s.statements
  functions : ∀ f ∈ s.functions, f.Genuine P

/-- **A value whose failures are in `P`**, those in the code of its closures included. -/
abbrev Datum.Genuine (v : Value) : Prop := v.Holds P (Function.Genuine P)

/-- A slot that holds a genuine value, or a cell. -/
abbrev Slot.Genuine (s : Slot Function) : Prop := s.Holds P (Function.Genuine P)

end Code

variable {P : Failure → Prop}

theorem Function.Genuine.body {f : Function} (h : f.Genuine P) : AllGenuine P f.body := by
  cases h with
  | mk name params h => exact h

/-! ## §4 — constants among values -/

namespace Datum

mutual

/-- **The value of a genuine constant** is genuine. -/
theorem genuine_ofConstant : ∀ {c : Constant}, Constant.Genuine P c → (ofConstant c).Genuine P
  | .unit, _ | .bool _, _ | .int _, _ | .float _, _ | .char _, _ | .str _, _ | .range .., _ | .timestamp _, _
  | .inclusion _, _ => .scalar trivial
  | .array _, h => .array (genuine_ofConstants (holds_array_iff.mp h))
  | .object _, h => .object (genuine_ofConstantFields (holds_object_iff.mp h))
  | .failure _, h => .failure (holds_failure_iff.mp h)
  | .function _ _ _, _ => .function _ (List.forall_mem_nil _) nofun

theorem genuine_ofConstants : ∀ {cs : List Constant}, (∀ c ∈ cs, Constant.Genuine P c) →
    ∀ v ∈ ofConstants cs, v.Genuine P
  | [], _ => nofun
  | _ :: _, h =>
    have ⟨hc, hcs⟩ := List.forall_mem_cons.mp h
    List.forall_mem_cons.mpr ⟨genuine_ofConstant hc, genuine_ofConstants hcs⟩

theorem genuine_ofConstantFields : ∀ {fs : List (String × Constant)}, (∀ f ∈ fs, Constant.Genuine P f.2) →
    ∀ f ∈ ofConstantFields fs, f.2.Genuine P
  | [], _ => nofun
  | (_, _) :: _, h =>
    have ⟨hf, hfs⟩ := List.forall_mem_cons.mp h
    List.forall_mem_cons.mpr ⟨genuine_ofConstant hf, genuine_ofConstantFields hfs⟩

end

mutual

/-- **The constant that a genuine value is** is genuine. -/
theorem genuine_toConstant? : ∀ {v : Value} {c : Constant}, v.Genuine P → v.toConstant? = some c → Constant.Genuine P c
  | .unit, _, _, rfl | .bool _, _, _, rfl | .int _, _, _, rfl | .float _, _, _, rfl | .char _, _, _, rfl
  | .str _, _, _, rfl | .range .., _, _, rfl | .timestamp _, _, _, rfl | .inclusion _, _, _, rfl => .scalar trivial
  | .array _, _, h, e => by
    obtain ⟨cs, hcs, rfl⟩ := Option.map_eq_some_iff.mp e
    exact .array (genuine_toConstants? (holds_array_iff.mp h) hcs)
  | .object _, _, h, e => by
    obtain ⟨fs, hfs, rfl⟩ := Option.map_eq_some_iff.mp e
    exact .object (genuine_toConstantFields? (holds_object_iff.mp h) hfs)
  | .failure _, _, h, rfl => .failure (holds_failure_iff.mp h)

theorem genuine_toConstants? : ∀ {vs : List Value} {cs : List Constant}, (∀ v ∈ vs, v.Genuine P) →
    toConstants? vs = some cs → ∀ c ∈ cs, Constant.Genuine P c
  | [], _, _, rfl => nofun
  | _ :: _, _, h, e => by
    obtain ⟨hv, hvs⟩ := List.forall_mem_cons.mp h
    obtain ⟨c, hc, e⟩ := Option.bind_eq_some_iff.mp e
    obtain ⟨cs, hcs, e⟩ := Option.bind_eq_some_iff.mp e
    cases e
    exact List.forall_mem_cons.mpr ⟨genuine_toConstant? hv hc, genuine_toConstants? hvs hcs⟩

theorem genuine_toConstantFields? : ∀ {fs : List (String × Value)} {gs : List (String × Constant)},
    (∀ f ∈ fs, f.2.Genuine P) → toConstantFields? fs = some gs → ∀ g ∈ gs, Constant.Genuine P g.2
  | [], _, _, rfl => nofun
  | (_, _) :: _, _, h, e => by
    obtain ⟨hf, hfs⟩ := List.forall_mem_cons.mp h
    obtain ⟨c, hc, e⟩ := Option.bind_eq_some_iff.mp e
    obtain ⟨gs, hgs, e⟩ := Option.bind_eq_some_iff.mp e
    cases e
    exact List.forall_mem_cons.mpr ⟨genuine_toConstant? hf hc, genuine_toConstantFields? hfs hgs⟩

end

end Datum

end Dialogue.Script
