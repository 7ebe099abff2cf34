import Dialogue.Proofs.Script.Linked.Access
/-!
# `Dialogue.Proofs.Script.Shift` — machines of which the second has more.

Two machines do the same work, but the second has more cells, and more variables. A gap of cells lies between the
first `kept` ones, which both have in common, and those that each of them makes on its own: a cell of the first machine
is found in the second one past the gap. The variables that the second machine has more are older than all others, and
none of them is ever seen, for each has the name of one of the oldest variables that both have. Main statements:
whatever is found, written, declared or shared in such machines stays in step.
-/

namespace Dialogue.Script

/-- **What the second of two machines has more:** `gap` cells after the first `kept`, and `below` variables, each of
which has the name of one of the oldest variables that both have, those named `common`. -/
structure Shift where
  kept : Nat := 0
  gap : Nat := 0
  common : List String := []
  below : Nat := 0

namespace Shift

variable (σ : Shift) {w w₁ i j : Nat}

/-- The same cells, and no more variables. -/
def apart : Shift := { σ with common := [], below := 0 }

/-- The same cells and variables, of which more are among the oldest. -/
def above (names : List String) : Shift := { σ with common := names }

/-- The number past the gap. -/
def past (i : Nat) : Nat := if i < σ.kept then i else i + σ.gap

/-- **Numbers of one cell**, among the first `w` cells. -/
def Rel (w i j : Nat) : Prop := i < w ∧ j = σ.past i

variable {σ}

theorem Rel.mono (hw : w ≤ w₁) (h : σ.Rel w i j) : σ.Rel w₁ i j := ⟨Nat.lt_of_lt_of_le h.1 hw, h.2⟩

theorem past_inj (h : σ.past i = σ.past j) : i = j := by
  unfold past at h
  split at h <;> split at h <;> omega

/-- A new cell of both machines is one cell. -/
theorem past_size (h : σ.kept ≤ w) : σ.past w = w + σ.gap := by
  unfold past
  split <;> omega

end Shift

variable {σ : Shift} {w w₁ : Nat}

theorem Datum.Linked.grow {v v' : Value} (h : v.Linked (σ.Rel w) v') (hw : w ≤ w₁) : v.Linked (σ.Rel w₁) v' :=
  h.mono fun _ _ => Shift.Rel.mono hw

theorem Slot.Linked.grow {s s' : Slot Function} (h : s.Linked (σ.Rel w) s') (hw : w ≤ w₁) :
    s.Linked (σ.Rel w₁) s' :=
  Datum.linked_mono_slot h fun _ _ => Shift.Rel.mono hw

theorem forall₂_grow {vs vs' : List Value} (h : List.Forall₂ (Datum.Linked (σ.Rel w)) vs vs') (hw : w ≤ w₁) :
    List.Forall₂ (Datum.Linked (σ.Rel w₁)) vs vs' :=
  h.imp fun _ _ hv => hv.grow hw

theorem option_grow {v v' : Option Value} (h : Option.Rel (Datum.Linked (σ.Rel w)) v v') (hw : w ≤ w₁) :
    Option.Rel (Datum.Linked (σ.Rel w₁)) v v' := by
  cases h with
  | none => exact .none
  | some h => exact .some (h.grow hw)

/-! ## §1 — machines -/

/-- Cells with linked values. -/
structure Cell.Linked (R : Nat → Nat → Prop) (c d : Cell) : Prop where
  value : c.value.Linked R d.value
  constant : d.constant = c.constant

/-- **Cells with a gap in them:** each cell of the first array stands past the gap in the second. -/
structure CellsLinked (σ : Shift) (cs ds : Array Cell) : Prop where
  kept : σ.kept ≤ cs.size
  size : ds.size = cs.size + σ.gap
  cells : ∀ i c, cs[i]? = some c → ∃ d, ds[σ.past i]? = some d ∧ c.Linked (σ.Rel cs.size) d

/-- Variables of one name, with linked slots. -/
structure Entry.Linked (R : Nat → Nat → Prop) (e f : Entry) : Prop where
  name : f.name = e.name
  constant : f.constant = e.constant
  slot : e.slot.Linked R f.slot

/-- **Variables with more below them:** the same ones in the same order, and then those that are not seen. -/
inductive ScopesLinked (σ : Shift) (w : Nat) : List Entry → List Entry → Prop
  | mk {es upper lower : List Entry} (same : List.Forall₂ (Entry.Linked (σ.Rel w)) es upper)
      (oldest : σ.common <:+ es.map Entry.name) (size : lower.length = σ.below)
      (unseen : ∀ e ∈ lower, e.name ∈ σ.common) : ScopesLinked σ w es (upper ++ lower)

/-- **Machines in step:** the same variables, in the same order, with more below them, and cells with a gap in them. -/
structure Machine.Linked (σ : Shift) (m m' : Machine) : Prop where
  scope : ScopesLinked σ m.cells.size m.scope m'.scope
  cells : CellsLinked σ m.cells m'.cells
  this : Option.Rel (Datum.Linked (σ.Rel m.cells.size)) m.this m'.this

theorem Entry.Linked.grow {e f : Entry} (h : e.Linked (σ.Rel w) f) (hw : w ≤ w₁) : e.Linked (σ.Rel w₁) f :=
  ⟨h.name, h.constant, h.slot.grow hw⟩

theorem Cell.Linked.grow {c d : Cell} (h : c.Linked (σ.Rel w) d) (hw : w ≤ w₁) : c.Linked (σ.Rel w₁) d :=
  ⟨h.value.grow hw, h.constant⟩

namespace CellsLinked

variable {cs ds : Array Cell}

/-- What a cell holds is linked, cell by cell. -/
theorem get (h : CellsLinked σ cs ds) {i j : Nat} (hij : σ.Rel cs.size i j) :
    ∃ c d, cs[i]? = some c ∧ ds[j]? = some d ∧ c.Linked (σ.Rel cs.size) d := by
  obtain ⟨hi, rfl⟩ := hij
  obtain ⟨d, hd, hl⟩ := h.cells i cs[i] (Array.getElem?_eq_getElem hi)
  exact ⟨cs[i], d, Array.getElem?_eq_getElem hi, hd, hl⟩

/-- Changing one cell. -/
theorem modify (h : CellsLinked σ cs ds) {i j : Nat} (hij : σ.Rel cs.size i j) {f g : Cell → Cell}
    (hf : ∀ c d, c.Linked (σ.Rel cs.size) d → (f c).Linked (σ.Rel cs.size) (g d)) :
    CellsLinked σ (cs.modify i f) (ds.modify j g) := by
  obtain ⟨-, rfl⟩ := hij
  refine ⟨by simpa using h.kept, by simpa using h.size, ?_⟩
  intro k c hc
  rw [Array.size_modify]
  rw [Array.getElem?_modify] at hc ⊢
  -- either the cell that is changed, or one past the gap of another
  split at hc
  · rename_i hik
    subst hik
    obtain ⟨c₀, hc₀, rfl⟩ := Option.map_eq_some_iff.mp hc
    obtain ⟨d, hd, hl⟩ := h.cells i c₀ hc₀
    exact ⟨g d, by simp [hd], hf c₀ d hl⟩
  · rename_i hik
    obtain ⟨d, hd, hl⟩ := h.cells k c hc
    have apart : σ.past i ≠ σ.past k := fun e => hik (Shift.past_inj e)
    exact ⟨d, by simp [apart, hd], hl⟩

/-- One more cell on both sides is one cell. -/
theorem push (h : CellsLinked σ cs ds) {c d : Cell} (hc : c.Linked (σ.Rel cs.size) d) :
    CellsLinked σ (cs.push c) (ds.push d) := by
  have grown : cs.size ≤ (cs.push c).size := by simp
  refine ⟨Nat.le_trans h.kept grown, by simp [h.size]; omega, ?_⟩
  intro i c' hi
  rw [Array.getElem?_push] at hi
  -- the new cell is the last one on both sides; all others are found as before
  split at hi
  · rename_i hlast
    subst hlast
    obtain rfl : c = c' := Option.some.inj hi
    refine ⟨d, ?_, hc.grow grown⟩
    rw [Shift.past_size h.kept, ← h.size, Array.getElem?_push_size]
  · obtain ⟨d', hd, hl⟩ := h.cells i c' hi
    refine ⟨d', ?_, hl.grow grown⟩
    have old : σ.past i < ds.size := (Array.getElem?_eq_some_iff.mp hd).1
    rw [Array.getElem?_push_lt old, ← Array.getElem?_eq_getElem old, hd]

end CellsLinked

/-! ## §2 — variables -/

/-- Changing one of the items of two lists. -/
theorem modify_append {α : Type} (xs ys : List α) (k : Nat) (f : α → α) :
    (xs ++ ys).modify k f = xs.modify k f ++ if k < xs.length then ys else ys.modify (k - xs.length) f := by
  induction xs generalizing k with
  | nil => simp
  | cons x xs ih =>
    cases k with
    | zero => simp
    | succ k => simp [List.modify_succ_cons, ih k]

namespace ScopesLinked

variable {es fs : List Entry}

theorem grow (h : ScopesLinked σ w es fs) (hw : w ≤ w₁) : ScopesLinked σ w₁ es fs := by
  obtain ⟨same, oldest, size, unseen⟩ := h
  exact .mk (same.imp fun _ _ he => he.grow hw) oldest size unseen

theorem length (h : ScopesLinked σ w es fs) : fs.length = es.length + σ.below := by
  obtain ⟨same, -, size, -⟩ := h
  rw [List.length_append, ← same.length_eq, size]

/-- The oldest variables are there. -/
theorem common_le (h : ScopesLinked σ w es fs) : σ.common.length ≤ es.length := by
  obtain ⟨-, oldest, -, -⟩ := h
  simpa using oldest.length_le

/-- Without variables there are none below them. -/
theorem isEmpty (h : ScopesLinked σ w es fs) : fs.isEmpty = es.isEmpty := by
  obtain ⟨same, oldest, -, unseen⟩ := h
  cases same with
  | cons => rfl
  | nil =>
    rw [List.map_nil, List.suffix_nil] at oldest
    rw [oldest] at unseen
    rw [List.eq_nil_iff_forall_not_mem.mpr fun e mem => absurd (unseen e mem) (by simp)]
    rfl

theorem cons (h : ScopesLinked σ w es fs) {e f : Entry} (he : e.Linked (σ.Rel w) f) :
    ScopesLinked σ w (e :: es) (f :: fs) := by
  obtain ⟨same, oldest, size, unseen⟩ := h
  exact .mk (.cons he same) (oldest.trans (List.suffix_cons _ _)) size unseen

/-- Variables before those there are. -/
theorem append (h : ScopesLinked σ w es fs) {new new' : List Entry}
    (hn : List.Forall₂ (Entry.Linked (σ.Rel w)) new new') : ScopesLinked σ w (new ++ es) (new' ++ fs) := by
  induction hn with
  | nil => exact h
  | cons he _ ih => exact ih.cons he

/-- Linked variables, and none below them. -/
theorem alone (h : List.Forall₂ (Entry.Linked (σ.Rel w)) es fs) : ScopesLinked σ.apart w es fs := by
  have linked : ScopesLinked σ.apart w es (fs ++ []) := .mk h List.nil_suffix rfl (List.forall_mem_nil _)
  rwa [List.append_nil] at linked

/-- Variables below others of their names are not seen. -/
theorem below (h : ScopesLinked σ.apart w es fs) {older : List Entry}
    (unseen : ∀ e ∈ older, e.name ∈ es.map Entry.name) :
    ScopesLinked { σ with common := es.map Entry.name, below := older.length } w es (fs ++ older) := by
  obtain @⟨upper, lower, same, -, size, -⟩ := h
  obtain rfl := List.length_eq_zero_iff.mp size
  rw [List.append_nil]
  exact .mk same List.suffix_rfl rfl unseen

/-- **The newest variable of a name** is the same on both sides: what is below does not come into view. -/
theorem findIdx? (h : ScopesLinked σ w es fs) (name : String) :
    fs.findIdx? (·.name == name) = es.findIdx? (·.name == name) := by
  obtain @⟨upper, lower, same, oldest, -, unseen⟩ := h
  have alike : upper.findIdx? (·.name == name) = es.findIdx? (·.name == name) := by
    clear oldest
    induction same with
    | nil => rfl
    | cons he _ ih => simp only [List.findIdx?_cons, he.name, ih]
  rw [List.findIdx?_append, alike]
  cases found : es.findIdx? (·.name == name) with
  | some k => rfl
  | none =>
    -- a variable of the name below would have one of its name above it
    have absent : ∀ e ∈ es, e.name ≠ name := fun e mem named => by
      simpa [named] using List.findIdx?_eq_none_iff.mp found e mem
    have none : lower.findIdx? (·.name == name) = none := by
      refine List.findIdx?_eq_none_iff.mpr fun e mem => ?_
      obtain ⟨e', there, named⟩ := List.mem_map.mp (oldest.subset (unseen e mem))
      exact beq_false_of_ne (named ▸ absent e' there)
    rw [none]
    rfl

/-- **Variables at one position** are linked. -/
theorem getElem? (h : ScopesLinked σ w es fs) {k : Nat} {e : Entry} (he : es[k]? = some e) :
    ∃ f, fs[k]? = some f ∧ e.Linked (σ.Rel w) f := by
  obtain @⟨upper, lower, same, -, -, -⟩ := h
  obtain ⟨f, found, linked⟩ : ∃ f, upper[k]? = some f ∧ e.Linked (σ.Rel w) f := by
    have entry := Access.forall₂_getElem? same k
    rw [he] at entry
    obtain ⟨none, -⟩ | ⟨e', f, there, found, linked⟩ := rel_cases entry
    · cases none
    · cases there
      exact ⟨f, found, linked⟩
  exact ⟨f, by rw [List.getElem?_append_left (List.getElem?_eq_some_iff.mp found).1, found], linked⟩

/-- **Changing one variable** on both sides, whose name stays. -/
theorem modify (h : ScopesLinked σ w es fs) (k : Nat) {f g : Entry → Entry} (hf : ∀ e, (f e).name = e.name)
    (hg : ∀ e, (g e).name = e.name)
    (linked : ∀ e e', e.Linked (σ.Rel w) e' → (f e).Linked (σ.Rel w) (g e')) :
    ScopesLinked σ w (es.modify k f) (fs.modify k g) := by
  obtain @⟨upper, lower, same, oldest, size, unseen⟩ := h
  have names (es : List Entry) (k : Nat) {f : Entry → Entry} (hf : ∀ e, (f e).name = e.name) :
      (es.modify k f).map Entry.name = es.map Entry.name := by
    apply List.ext_getElem?
    intro i
    simp only [List.getElem?_map, List.getElem?_modify]
    cases es[i]? with
    | none => rfl
    | some e =>
      show some (Entry.name (if _ then _ else e)) = some e.name
      split
      · rw [hf]
      · rfl
  have changed := forall₂_modify same (fun e e' he => linked e e' he) k
  have oldest' : σ.common <:+ (es.modify k f).map Entry.name := (names es k hf).symm ▸ oldest
  rw [modify_append]
  split
  · exact .mk changed oldest' size unseen
  · -- what is below may change as well, for its names stay
    refine .mk changed oldest' (by simpa using size) fun e mem => ?_
    have named : e.name ∈ (lower.modify (k - upper.length) g).map Entry.name := List.mem_map_of_mem mem
    rw [names _ _ hg] at named
    obtain ⟨e', there, same⟩ := List.mem_map.mp named
    exact same ▸ unseen e' there

/-- **Forgetting variables** that are not among the oldest. -/
theorem drop (h : ScopesLinked σ w es fs) {n : Nat} (hn : n + σ.common.length ≤ es.length) :
    ScopesLinked σ w (es.drop n) (fs.drop n) := by
  obtain @⟨upper, lower, same, oldest, size, unseen⟩ := h
  rw [List.drop_append_of_le_length (by rw [← same.length_eq]; omega)]
  refine .mk (List.forall₂_drop n same) ?_ size unseen
  rw [List.map_drop]
  exact List.suffix_of_suffix_length_le oldest (List.drop_suffix n _) (by simp; omega)

/-- The newest variables are linked one by one. -/
theorem take (h : ScopesLinked σ w es fs) {n : Nat} (hn : n ≤ es.length) :
    List.Forall₂ (Entry.Linked (σ.Rel w)) (es.take n) (fs.take n) := by
  obtain @⟨upper, lower, same, -, -, -⟩ := h
  rw [List.take_append_of_le_length (by rw [← same.length_eq]; omega)]
  exact List.forall₂_take n same

/-- More of the variables that both have count among the oldest. -/
theorem above (h : ScopesLinked σ w es fs) : ScopesLinked (σ.above (es.map Entry.name)) w es fs := by
  obtain ⟨same, oldest, size, unseen⟩ := h
  exact .mk same List.suffix_rfl size fun e mem => oldest.subset (unseen e mem)

/-- Forgetting any variables that both have, whatever is below. -/
theorem exists_drop (h : ScopesLinked σ w es fs) {n : Nat} (hn : n ≤ es.length) :
    ∃ upper lower, fs.drop n = upper ++ lower ∧ List.Forall₂ (Entry.Linked (σ.Rel w)) (es.drop n) upper := by
  obtain @⟨upper, lower, same, -, -, -⟩ := h
  exact ⟨upper.drop n, lower, List.drop_append_of_le_length (same.length_eq ▸ hn), List.forall₂_drop n same⟩

/-- **Variables with what they hold by now** are linked when what they hold by now is. -/
theorem refreshed (h : ScopesLinked σ w es fs) {now upper' lower' : List Entry}
    (same' : List.Forall₂ (Entry.Linked (σ.Rel w)) now upper') (length : now.length = es.length) :
    ScopesLinked σ w (Entry.refreshed es now) (Entry.refreshed fs (upper' ++ lower')) := by
  have names (scope now : List Entry) : (Entry.refreshed scope now).map Entry.name = scope.map Entry.name :=
    Entry.map_refreshed _ (fun _ _ => rfl) scope now
  obtain @⟨upper, lower, same, oldest, size, unseen⟩ := h
  rw [Entry.refreshed_append (by rw [← same'.length_eq, ← same.length_eq, length])]
  refine .mk ?_ (by rw [names]; exact oldest) ?_ fun e mem => ?_
  · clear oldest length
    induction same generalizing now upper' with
    | nil => exact .nil
    | cons he hs ih =>
      cases same' with
      | nil => exact .cons he hs
      | cons he' hs' => exact .cons ⟨he.name, he.constant, he'.slot⟩ (ih hs')
  · rw [← size, ← List.length_map Entry.name, names, List.length_map]
  · have named : e.name ∈ (Entry.refreshed lower lower').map Entry.name := List.mem_map_of_mem mem
    rw [names] at named
    obtain ⟨e', there, same⟩ := List.mem_map.mp named
    exact same ▸ unseen e' there

end ScopesLinked

/-! ## §3 — places -/

/-- Places that start from one variable, counted from the oldest, or from numbers of one cell. -/
inductive Root.Linked (σ : Shift) (w : Nat) : Root → Root → Prop
  | entry (k : Nat) : Root.Linked σ w (.entry k) (.entry (k + σ.below))
  | cell {i j : Nat} (h : σ.Rel w i j) : Root.Linked σ w (.cell i) (.cell j)
  | this : Root.Linked σ w .this .this

/-- Places from one root, by one way. -/
structure Place.Linked (σ : Shift) (w : Nat) (p q : Place) : Prop where
  root : p.root.Linked σ w q.root
  inward : q.inward = p.inward

theorem Root.Linked.grow {r t : Root} (h : r.Linked σ w t) (hw : w ≤ w₁) : r.Linked σ w₁ t := by
  cases h with
  | entry k => exact .entry k
  | cell hij => exact .cell (hij.mono hw)
  | this => exact .this

theorem Place.Linked.grow {p q : Place} (h : p.Linked σ w q) (hw : w ≤ w₁) : p.Linked σ w₁ q :=
  ⟨h.root.grow hw, h.inward⟩

theorem Place.Linked.into {p q : Place} (h : p.Linked σ w q) (step : Inward) :
    (p.into step).Linked σ w (q.into step) :=
  ⟨h.root, by simp only [Place.into, h.inward]⟩

namespace Machine

/-- A variable as it is found, with a linked value at a linked place. -/
structure Sighting.Linked (σ : Shift) (w : Nat) (s t : Sighting) : Prop where
  value : s.value.Linked (σ.Rel w) t.value
  place : s.place.Linked σ w t.place
  constant : t.constant = s.constant

variable {m m' : Machine}

theorem Linked.depth (h : Linked σ m m') : m'.depth = m.depth + σ.below := h.scope.length

theorem Linked.slotValue (h : Linked σ m m') {s s' : Slot Function} (hs : s.Linked (σ.Rel m.cells.size) s') :
    (m.slotValue s).Linked (σ.Rel m.cells.size) (m'.slotValue s') := by
  cases hs with
  | own hv => exact hv
  | cell hij =>
    obtain ⟨c, d, hc, hd, hl⟩ := h.cells.get hij
    simp only [Machine.slotValue, hc, hd]
    exact hl.value

theorem Linked.isConstant (h : Linked σ m m') {e f : Entry} (he : e.Linked (σ.Rel m.cells.size) f) :
    m'.isConstant f = m.isConstant e := by
  obtain ⟨-, constant, slot⟩ := he
  unfold Machine.isConstant
  generalize e.slot = s, f.slot = t at slot
  cases slot with
  | own => exact constant
  | cell hij =>
    obtain ⟨c, d, hc, hd, hl⟩ := h.cells.get hij
    simp only [hc, hd]
    exact hl.constant

theorem Linked.position? (h : Linked σ m m') (name : String) : m'.position? name = m.position? name :=
  h.scope.findIdx? name

/-- The position of a variable is that of one. -/
theorem exists_of_position? {name : String} {k : Nat} (found : m.position? name = some k) :
    ∃ e, m.scope[k]? = some e := by
  obtain ⟨hk, -, -⟩ := List.findIdx?_eq_some_iff_getElem.mp found
  exact ⟨_, List.getElem?_eq_getElem hk⟩

/-- **What is found under a name** is in step. -/
theorem Linked.find? (h : Linked σ m m') (name : String) :
    Option.Rel (Sighting.Linked σ m.cells.size) (m.find? name) (m'.find? name) := by
  unfold Machine.find?
  rw [h.position? name]
  cases found : m.position? name with
  | none => exact .none
  | some k =>
    obtain ⟨e, he⟩ := exists_of_position? found
    obtain ⟨f, hf, linked⟩ := h.scope.getElem? he
    have bound : k < m.depth := (List.getElem?_eq_some_iff.mp he).1
    dsimp only
    rw [he, hf]
    refine .some ⟨h.slotValue linked.slot, ⟨?_, rfl⟩, h.isConstant linked⟩
    -- the place of an own value is the variable, that of a shared one is the cell
    have slot := linked.slot
    dsimp only
    generalize e.slot = s, f.slot = t at slot
    cases slot with
    | own =>
      have place : m'.depth - 1 - k = m.depth - 1 - k + σ.below := by rw [h.depth]; omega
      dsimp only
      rw [place]
      exact .entry _
    | cell hij => exact .cell hij

/-- **Writing linked values to linked places** keeps machines in step. -/
theorem Linked.write (h : Linked σ m m') {p q : Place} (hp : p.Linked σ m.cells.size q) {v v' : Value}
    (hv : v.Linked (σ.Rel m.cells.size) v') :
    Linked σ (m.write p v) (m'.write q v') ∧ (m.write p v).cells.size = m.cells.size := by
  obtain ⟨root, way⟩ := hp
  unfold Machine.write
  generalize p.root = r, q.root = s at root
  cases root with
  | entry k =>
    refine ⟨⟨?_, h.cells, h.this⟩, rfl⟩
    have position : m'.depth - 1 - (k + σ.below) = m.depth - 1 - k := by rw [h.depth]; omega
    dsimp only
    rw [position, way]
    refine h.scope.modify _ (fun _ => rfl) (fun _ => rfl) fun e f he => ?_
    exact ⟨he.name, he.constant, .own (linked_replaced _ (h.slotValue he.slot) hv)⟩
  | @cell i j hij =>
    have size : ∀ f : Cell → Cell, (m.cells.modify i f).size = m.cells.size := fun f => by simp
    -- only the cell changes, and no cell is added
    refine ⟨⟨?_, ?_, ?_⟩, size _⟩
    · dsimp only
      rw [size]
      exact h.scope
    · dsimp only
      rw [way]
      exact h.cells.modify hij fun c d hc => ⟨linked_replaced _ hc.value hv, hc.constant⟩
    · dsimp only
      rw [size]
      exact h.this
  | this =>
    refine ⟨⟨h.scope, h.cells, ?_⟩, rfl⟩
    have this := h.this
    dsimp only
    generalize m.this = t, m'.this = u at this
    cases this with
    | none => exact .none
    | some ht =>
      rw [way]
      exact .some (linked_replaced _ ht hv)

theorem Linked.declare (h : Linked σ m m') (name : String) (constant : Bool) {s s' : Slot Function}
    (hs : s.Linked (σ.Rel m.cells.size) s') :
    Linked σ (m.declare name constant s) (m'.declare name constant s') :=
  ⟨h.scope.cons ⟨rfl, rfl, hs⟩, h.cells, h.this⟩

theorem Linked.redeclare (h : Linked σ m m') (back : Nat) (constant : Bool) {v v' : Value}
    (hv : v.Linked (σ.Rel m.cells.size) v') :
    Linked σ (m.redeclare back constant v) (m'.redeclare back constant v') := by
  refine ⟨?_, h.cells, h.this⟩
  exact h.scope.modify back (fun _ => rfl) (fun _ => rfl) fun e f he => ⟨he.name, rfl, .own hv⟩

/-- **Forgetting variables** that are not among the oldest. -/
theorem Linked.rewind (h : Linked σ m m') {depth : Nat} (hd : σ.common.length ≤ depth) :
    Linked σ (m.rewind depth) (m'.rewind (depth + σ.below)) := by
  refine ⟨?_, h.cells, h.this⟩
  unfold Machine.rewind
  rw [h.depth, Nat.add_sub_add_right]
  have bound := h.scope.common_le
  exact h.scope.drop (by unfold Machine.depth; omega)

/-- **A shared variable is one cell on both sides.** -/
theorem Linked.share? (h : Linked σ m m') (name : String) :
    Option.Rel (fun a b => σ.Rel a.2.cells.size a.1 b.1 ∧ Linked σ a.2 b.2 ∧ m.cells.size ≤ a.2.cells.size)
      (m.share? name) (m'.share? name) := by
  unfold Machine.share?
  rw [h.position? name]
  cases found : m.position? name with
  | none => exact .none
  | some k =>
    obtain ⟨e, he⟩ := exists_of_position? found
    obtain ⟨f, hf, linked⟩ := h.scope.getElem? he
    dsimp only
    rw [he, hf, Option.map_some, Option.map_some]
    have slot := linked.slot
    generalize hs : e.slot = s, hs' : f.slot = s' at slot
    cases slot with
    | cell hij => exact .some ⟨hij, h, Nat.le_refl _⟩ -- it is shared already
    | @own v v' hv =>
      have grown : m.cells.size ≤ (m.cells.push ⟨v, e.constant⟩).size := by simp
      have new : σ.Rel (m.cells.push ⟨v, e.constant⟩).size m.cells.size m'.cells.size :=
        ⟨by simp, by rw [Shift.past_size h.cells.kept, h.cells.size]⟩
      refine .some ⟨new, ⟨?_, h.cells.push ⟨hv, linked.constant⟩, option_grow h.this grown⟩, grown⟩
      have shared := (h.scope.grow grown).modify k (f := fun e => { e with slot := .cell m.cells.size })
        (g := fun f => { f with slot := .cell m'.cells.size }) (fun _ => rfl) (fun _ => rfl)
        fun _ _ he => ⟨he.name, he.constant, .cell new⟩
      rw [List.modify_eq_set_getElem?, List.modify_eq_set_getElem?, he, hf] at shared
      exact shared

end Machine

end Dialogue.Script
