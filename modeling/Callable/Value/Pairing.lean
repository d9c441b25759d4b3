import Callable.Value.Bisimilarity
import Callable.Value.Identity

/-!
# Pairings

To compare two objects is to compare their parts, pair by pair. A pairing says which pairs: those
that have to be equal for the two objects to be equal.

* `Store.pairing` — the pairing of the parts of two values.
* `Store.equal_eq_holds` — two values are equal when the pairs of their parts are.
* `Store.equal_of_pairing` — a relation whose pairs have parts in the relation relates only equal
  values.
-/

namespace Callable

/-- The pairs that have to be equal for two objects to be so; nothing, if the objects differ
whatever their parts are. -/
abbrev Pairing (V : Type) := Option (List (V × V))

namespace Pairing

variable {V : Type} {eq eq' : V → V → Bool}

/-- Are all pairs equal in the given way? -/
def holds (eq : V → V → Bool) : Pairing V → Bool
  | some ps => ps.all fun q => eq q.1 q.2
  | none => false

/-- The pairing of two objects that are compared without their parts. -/
def settled (b : Bool) : Pairing V := if b then some [] else none

/-- Two lists of one length are equal if their items are. -/
def ofLists (xs ys : List V) : Pairing V :=
  if xs.length = ys.length then some (xs.zip ys) else none

/-- Two tables with the same names are equal if the values under each name are. -/
def ofTables (t u : Table V) : Pairing V :=
  if t.size = u.size then t.entries.mapM fun e => (u.get? e.1).map (e.2, ·) else none

/-- Objects of which it is known whether they are one and the same need be compared only if not. -/
def unlessSame (same : Bool) (p : Pairing V) : Pairing V := if same then some [] else p

/-- Objects that a look at them tells apart need not be compared. -/
def provided (alike : Bool) (p : Pairing V) : Pairing V := if alike then p else none

theorem holds_mono (h : ∀ a b, eq a b = true → eq' a b = true) {p : Pairing V}
    (hp : p.holds eq = true) : p.holds eq' = true := by
  cases p with
  | none => exact hp
  | some ps =>
    simp only [holds, List.all_eq_true] at hp ⊢
    exact fun q hq => h _ _ (hp q hq)

@[simp] theorem holds_none : holds eq (none : Pairing V) = false := rfl

@[simp] theorem holds_settled (b : Bool) : (settled b).holds eq = b := by
  cases b <;> rfl

@[simp] theorem holds_unlessSame (b : Bool) (p : Pairing V) :
    (unlessSame b p).holds eq = (b || p.holds eq) := by
  cases b <;> rfl

@[simp] theorem holds_provided (b : Bool) (p : Pairing V) :
    (provided b p).holds eq = (b && p.holds eq) := by
  cases b <;> rfl

@[simp] theorem holds_ofLists (xs ys : List V) : (ofLists xs ys).holds eq = xs.isEqv ys eq := by
  induction xs generalizing ys with
  | nil => cases ys <;> rfl
  | cons x xs ih =>
    cases ys with
    | nil => rfl
    | cons y ys =>
      rw [List.isEqv, ← ih ys]
      by_cases h : xs.length = ys.length <;> simp [ofLists, holds, h]

@[simp] theorem holds_ofTables (t u : Table V) : (ofTables t u).holds eq = t.equalBy eq u := by
  unfold Table.equalBy ofTables
  by_cases h : t.size = u.size
  · -- the entries are looked up one by one, and the first name that is missing decides
    simp only [h, if_true, beq_self_eq_true, Bool.true_and]
    induction t.entries with
    | nil => rfl
    | cons e es ih =>
      rw [List.mapM_cons, List.all_cons, ← ih]
      cases u.get? e.1 with
      | none => rfl
      | some v =>
        cases es.mapM fun e => (u.get? e.1).map (e.2, ·) with
        | none => simp [holds]
        | some ps => simp [holds]
  · simp [h, holds]

end Pairing

/-! ### Parts of values -/

/-- The pairing of the parts of two values. -/
def Store.pairing (s : Store) : Value → Value → Pairing Value
  | .none, .none => .settled true
  | .bool a, .bool b => .settled (a == b)
  | .int a, .int b => .settled (a == b)
  | .float a, .float b => .settled (a.ieeeEq b)
  | .str a, .str b => .settled (a.text == b.text)
  | .tuple a, .tuple b => .ofLists a.items b.items
  | .list a, .list b => .unlessSame (a == b) (.ofLists (s.list a) (s.list b))
  | .dict a, .dict b => .unlessSame (a == b) (.ofTables (s.dict a) (s.dict b))
  | .code a, .code b =>
    .unlessSame (Value.isIdentical (.code a) (.code b))
      (.provided (a.name == b.name && a.freeVars == b.freeVars) (.ofLists a.consts b.consts))
  | .cell a, .cell b => .settled (a == b)
  | .function a, .function b => .settled (a == b)
  | .method a, .method b =>
    .settled (a.function == b.function && a.receiver.isIdentical b.receiver)
  | _, _ => none

namespace Store

variable {s : Store}

/-- Values are equal when the pairs of their parts are. -/
theorem equal_eq_holds (s : Store) (a b : Value) : s.equal a b = (s.pairing a b).holds s.equal := by
  have hitems (xs ys : List Value) :
      Value.equalItemsBy (s.listsEqualBy s.equal) (s.dictsEqualBy s.equal) xs ys =
        xs.isEqv ys s.equal := by
    rw [Value.equalItemsBy_eq_isEqv]
    exact congrArg _ s.layer_equal
  -- one layer of equality is equality, and a layer is what a pairing says kind by kind
  conv => lhs; rw [← s.layer_equal]
  cases a <;> cases b
  all_goals
    simp only [layer, Value.equalBy, hitems, pairing, Pairing.holds_settled,
      Pairing.holds_unlessSame, Pairing.holds_provided, Pairing.holds_ofLists,
      Pairing.holds_ofTables]
  all_goals rfl

mutual

/-- A pair of values whose parts are related is related one layer deep. -/
theorem layer_of_holds {eq : Value → Value → Bool}
    (heq : ∀ a b, eq a b = true → (s.pairing a b).holds eq = true) : (a b : Value) →
    eq a b = true → s.layer eq a b = true
  | .tuple ⟨_, xs⟩, b, h => by
    -- tuples and code are taken apart further, since a layer ends at lists and dicts only
    have hp := heq _ _ h
    cases b with
    | tuple u =>
      obtain ⟨_, ys⟩ := u
      simp only [pairing, Pairing.holds_ofLists] at hp
      simpa only [layer, Value.equalBy] using layer_of_holds_items heq xs ys hp
    | _ => simp [pairing] at hp
  | .code ⟨_, _, xs, _⟩, b, h => by
    have hp := heq _ _ h
    cases b with
    | code d =>
      obtain ⟨_, _, ys, _⟩ := d
      have := layer_of_holds_items heq xs ys
      simp only [pairing, Pairing.holds_unlessSame, Pairing.holds_provided,
        Pairing.holds_ofLists] at hp
      simp only [layer, Value.equalBy]
      grind
    | _ => simp [pairing] at hp
  | .none, b, h | .bool _, b, h | .int _, b, h | .float _, b, h | .str _, b, h | .list _, b, h
  | .dict _, b, h | .cell _, b, h | .function _, b, h | .method _, b, h => by
    have hp := heq _ _ h
    -- the rest has no parts, or parts that the layer compares in the same way
    clear heq h
    cases b <;>
      simp_all [layer, Value.equalBy, listsEqualBy, dictsEqualBy, pairing]

theorem layer_of_holds_items {eq : Value → Value → Bool}
    (heq : ∀ a b, eq a b = true → (s.pairing a b).holds eq = true) : (xs ys : List Value) →
    xs.isEqv ys eq = true →
    Value.equalItemsBy (s.listsEqualBy eq) (s.dictsEqualBy eq) xs ys = true
  | [], [], _ => rfl
  | x :: xs, y :: ys, h => by
    simp only [List.isEqv, Value.equalItemsBy, Bool.and_eq_true] at h ⊢
    exact ⟨layer_of_holds heq x y h.1, layer_of_holds_items heq xs ys h.2⟩

end

/-- A relation whose pairs have parts in the relation relates only equal values. -/
theorem equal_of_pairing {eq : Value → Value → Bool}
    (heq : ∀ a b, eq a b = true → (s.pairing a b).holds eq = true) {a b : Value}
    (h : eq a b = true) : s.equal a b = true :=
  equal_of_layer (fun a b => layer_of_holds heq a b) h

end Store

end Callable
