import Dialogue.Proofs.Script.Linked
/-!
# `Dialogue.Proofs.Script.Layout` — machines whose variables stand in another order.

A script finds a variable by its name, and so does not see how many others stand before it, or that an older variable
is hidden by it. Two machines *agree* when every name in use leads to the same variable in both, and everything else is
the same. Which variables there are is fixed by a layout, so that a place in one machine can be told in the other. Main
statements: whatever is found, written or shared in machines that agree is the same, and leaves machines that agree.
-/

namespace Dialogue.Script

/-- **The names of the variables** of two machines, newest first, and which of these names are in use. -/
structure Layout where
  left : List String
  right : List String
  used : String → Prop

/-! ## §1 — variables by name -/

/-- The newest variable of a name. -/
def newest? (scope : List Entry) (name : String) : Option Entry := scope.find? (·.name == name)

section Scope

variable {scope : List Entry} {name : String} {i : Nat}

theorem newest?_of_position (h : scope.findIdx? (·.name == name) = some i) :
    ∃ e, newest? scope name = some e ∧ scope[i]? = some e ∧ e.name = name := by
  obtain ⟨hi, named, -⟩ := List.findIdx?_eq_some_iff_getElem.mp h
  have found : scope[i]? = some scope[i] := List.getElem?_eq_getElem hi
  refine ⟨scope[i], ?_, found, by simpa using named⟩
  rw [newest?, List.find?_eq_bind_findIdx?_getElem?, h]
  exact found

theorem newest?_of_no_position (h : scope.findIdx? (·.name == name) = none) : newest? scope name = none := by
  rw [newest?, List.find?_eq_bind_findIdx?_getElem?, h]
  rfl

/-- **Changing the newest variable of a name** changes what is found by this name, and nothing else. -/
theorem newest?_modify (h : scope.findIdx? (·.name == name) = some i) {f : Entry → Entry}
    (named : ∀ e, (f e).name = e.name) (other : String) :
    newest? (scope.modify i f) other =
      (newest? scope other).map fun e => if other = name then f e else e := by
  induction scope generalizing i with
  | nil => simp at h
  | cons e scope ih =>
    rw [List.findIdx?_cons] at h
    by_cases first : e.name = name
    · -- the variable is the first one
      obtain rfl : 0 = i := by simpa [first] using h
      by_cases same : e.name = other
      · obtain rfl : other = name := same.symm.trans first
        simp [newest?, named, same]
      · have apart : other ≠ name := fun e' => same (first.trans e'.symm)
        simp [newest?, named, same, apart]
    · obtain ⟨j, later, rfl⟩ : ∃ j, scope.findIdx? (·.name == name) = some j ∧ j + 1 = i := by
        simpa [first] using h
      rw [List.modify_succ_cons]
      by_cases same : e.name = other
      · have apart : other ≠ name := fun e' => first (same.trans e')
        simp [newest?, same, apart]
      · simpa [newest?, List.find?_cons, same] using ih later

theorem map_name_modify (scope : List Entry) (i : Nat) {f : Entry → Entry} (named : ∀ e, (f e).name = e.name) :
    (scope.modify i f).map Entry.name = scope.map Entry.name := by
  induction scope generalizing i with
  | nil => simp
  | cons e scope ih => cases i <;> simp [named, ih]

end Scope

/-! ## §2 — machines -/

/-- **Machines that agree:** each name in use leads to the same variable, and all else is the same. -/
structure Machine.Agree (L : Layout) (m m' : Machine) : Prop where
  left : m.scope.map Entry.name = L.left
  right : m'.scope.map Entry.name = L.right
  newest : ∀ name, L.used name → newest? m'.scope name = newest? m.scope name
  cells : m'.cells = m.cells
  this : m'.this = m.this

/-- **Places that agree:** the same variable, by its position in either layout, or the same cell. -/
inductive Root.Agree (L : Layout) : Root → Root → Prop
  | entry {name : String} {i j : Nat} (left : L.left.findIdx? (· == name) = some i)
      (right : L.right.findIdx? (· == name) = some j) :
      Root.Agree L (.entry (L.left.length - 1 - i)) (.entry (L.right.length - 1 - j))
  | cell (i : Nat) : Root.Agree L (.cell i) (.cell i)
  | this : Root.Agree L .this .this

/-- Places that start from roots that agree, and go on alike. -/
structure Place.Agree (L : Layout) (p q : Place) : Prop where
  root : p.root.Agree L q.root
  inward : q.inward = p.inward

variable {L : Layout}

theorem Place.Agree.into {p q : Place} (h : p.Agree L q) (step : Inward) : (p.into step).Agree L (q.into step) :=
  ⟨h.root, by simp only [Place.into, h.inward]⟩

namespace Machine

/-- Variables as they are found, with the same value at places that agree. -/
structure Sighting.Agree (L : Layout) (s t : Sighting) : Prop where
  value : t.value = s.value
  place : s.place.Agree L t.place
  constant : t.constant = s.constant

variable {m m' : Machine}

/-- What a slot holds depends on the cells alone. -/
theorem slotValue_of_cells (h : m'.cells = m.cells) : m'.slotValue = m.slotValue := by
  funext s
  cases s <;> simp only [Machine.slotValue, h]

namespace Agree

theorem left_depth (h : Agree L m m') : m.depth = L.left.length := by
  rw [← h.left, List.length_map]
  rfl

theorem right_depth (h : Agree L m m') : m'.depth = L.right.length := by
  rw [← h.right, List.length_map]
  rfl

theorem slotValue (h : Agree L m m') : m'.slotValue = m.slotValue := slotValue_of_cells h.cells

theorem isConstant (h : Agree L m m') (e : Entry) : m'.isConstant e = m.isConstant e := by
  unfold Machine.isConstant
  rw [h.cells]

theorem left_position (h : Agree L m m') (name : String) : m.position? name = L.left.findIdx? (· == name) := by
  rw [← h.left, List.findIdx?_map]
  rfl

theorem right_position (h : Agree L m m') (name : String) : m'.position? name = L.right.findIdx? (· == name) := by
  rw [← h.right, List.findIdx?_map]
  rfl

/-- **A name in use leads nowhere in both machines, or to the same variable.** -/
theorem cases (h : Agree L m m') {name : String} (used : L.used name) :
    (m.position? name = none ∧ m'.position? name = none) ∨
      ∃ i j e, m.position? name = some i ∧ m'.position? name = some j ∧ m.scope[i]? = some e ∧
        m'.scope[j]? = some e ∧ e.name = name := by
  have same := h.newest name used
  cases hi : m.position? name with
  | none =>
    left
    refine ⟨rfl, ?_⟩
    rw [newest?_of_no_position hi] at same
    cases hj : m'.position? name with
    | none => rfl
    | some j =>
      obtain ⟨e, found, -⟩ := newest?_of_position hj
      rw [found] at same
      cases same
  | some i =>
    right
    obtain ⟨e, found, here, named⟩ := newest?_of_position hi
    rw [found] at same
    cases hj : m'.position? name with
    | none =>
      rw [newest?_of_no_position hj] at same
      cases same
    | some j =>
      obtain ⟨e', found', there, -⟩ := newest?_of_position hj
      obtain rfl : e' = e := Option.some.inj (found'.symm.trans same)
      exact ⟨i, j, e', rfl, rfl, here, there, named⟩

/-- **What is found under a name** agrees. -/
theorem find? (h : Agree L m m') {name : String} (used : L.used name) :
    Option.Rel (Sighting.Agree L) (m.find? name) (m'.find? name) := by
  unfold Machine.find?
  obtain ⟨hi, hj⟩ | ⟨i, j, e, hi, hj, here, there, -⟩ := h.cases used
  · rw [hi, hj]
    exact .none
  · simp only [hi, hj, here, there, Option.map_some]
    refine .some ⟨congrFun h.slotValue e.slot, ⟨?_, rfl⟩, h.isConstant e⟩
    rw [h.left_position] at hi
    rw [h.right_position] at hj
    cases e.slot with
    | own v =>
      dsimp only
      rw [h.left_depth, h.right_depth]
      exact .entry hi hj
    | cell c => exact .cell c

/-- Changing the newest variable of a name, in both machines. -/
theorem modify (h : Agree L m m') {name : String} {i j : Nat} (hi : m.position? name = some i)
    (hj : m'.position? name = some j) {f : Entry → Entry} (named : ∀ e, (f e).name = e.name) (cells : Array Cell) :
    Agree L { m with scope := m.scope.modify i f, cells } { m' with scope := m'.scope.modify j f, cells } where
  left := (map_name_modify m.scope i named).trans h.left
  right := (map_name_modify m'.scope j named).trans h.right
  newest other used := by
    rw [newest?_modify hi named, newest?_modify hj named, h.newest other used]
  cells := rfl
  this := h.this

/-- **Writing to places that agree.** -/
theorem write (h : Agree L m m') {p q : Place} (hp : p.Agree L q) (v : Value) :
    Agree L (m.write p v) (m'.write q v) := by
  obtain ⟨root, way⟩ := hp
  unfold Machine.write
  generalize p.root = r, q.root = s at root
  cases root with
  | @entry name i j left right =>
    have hi : i < L.left.length := (List.findIdx?_eq_some_iff_getElem.mp left).1
    have hj : j < L.right.length := (List.findIdx?_eq_some_iff_getElem.mp right).1
    have back : L.left.length - 1 - (L.left.length - 1 - i) = i := by omega
    have back' : L.right.length - 1 - (L.right.length - 1 - j) = j := by omega
    dsimp only
    rw [h.left_depth, h.right_depth, back, back', way, h.slotValue]
    have written := h.modify ((h.left_position name).trans left) ((h.right_position name).trans right)
      (f := fun e => { e with slot := .own ((m.slotValue e.slot).replaced p.inward v) }) (fun _ => rfl) m.cells
    exact ⟨written.left, written.right, written.newest, h.cells, h.this⟩
  | cell i =>
    dsimp only
    rw [way, h.cells]
    exact ⟨h.left, h.right, h.newest, rfl, h.this⟩
  | this =>
    dsimp only
    rw [way, h.this]
    exact ⟨h.left, h.right, h.newest, h.cells, rfl⟩

/-- **A shared variable is one cell in both machines.** -/
theorem share? (h : Agree L m m') {name : String} (used : L.used name) :
    Option.Rel (fun a b => b.1 = a.1 ∧ Agree L a.2 b.2) (m.share? name) (m'.share? name) := by
  unfold Machine.share?
  obtain ⟨hi, hj⟩ | ⟨i, j, e, hi, hj, here, there, -⟩ := h.cases used
  · rw [hi, hj]
    exact .none
  · simp only [hi, hj, here, there, Option.map_some]
    obtain ⟨name, constant, slot⟩ := e
    cases slot with
    | cell c => exact .some ⟨rfl, h⟩
    | own v =>
      refine .some ⟨congrArg Array.size h.cells, ?_⟩
      dsimp only
      rw [h.cells]
      have shared := h.modify hi hj (f := fun e => { e with slot := .cell m.cells.size }) (fun _ => rfl)
        (m.cells.push ⟨v, constant⟩)
      rw [List.modify_eq_set_getElem?, List.modify_eq_set_getElem?, here, there] at shared
      exact shared

/-- Where no variable was added, a block forgets none. -/
theorem rewind (h : Agree L m m') : Agree L (m.rewind L.left.length) (m'.rewind L.right.length) := by
  have whole : m.rewind L.left.length = m := by simp [Machine.rewind, h.left_depth]
  have whole' : m'.rewind L.right.length = m' := by simp [Machine.rewind, h.right_depth]
  rw [whole, whole']
  exact h

end Agree

end Machine

end Dialogue.Script
