import Callable.Proofs.Equality.Laws

/-!
# Where equality is reflexive

Identity and equality compare by different rules, kind by kind: floats by their bits or by their
numbers, strings and tuples by the object or by what is in them, bound methods by the object or by
their parts. So an object does not have to equal itself. A NaN does not, and since tuples are always
compared item by item, neither does a tuple with a NaN among its items, or with a tuple like that
among them. It stops there. A list, a dict or a code object is compared with itself without a look
inside, so what it contains does not matter, be it a NaN or the object itself.

* `Value.ReachesNaN` — a NaN, or a tuple from which one is reached through tuples only.
* `Store.equal_self_iff` — what is no such value equals itself. Of a value that may contain itself
  this is no induction: the values that are no such values are a bisimulation on the diagonal.
* `Store.identity_and_equality` — identity is an equivalence, and how far it goes along with equality.
-/

namespace Callable

/-- **A NaN is reached through tuples only**: the value is a NaN, or a tuple that has such a value
among its items. -/
inductive Value.ReachesNaN : Value → Prop
  | nan {x : Binary64} (h : x.isNaN = true) : ReachesNaN (.float x)
  | item {t : Tuple} {x : Value} (hx : x ∈ t.items) (h : ReachesNaN x) : ReachesNaN (.tuple t)

namespace Value

/-- Only floats and tuples are such values. -/
theorem ReachesNaN.kind {v : Value} (h : v.ReachesNaN) : v.kind = .float ∨ v.kind = .tuple := by
  cases h with
  | nan => exact .inl rfl
  | item => exact .inr rfl

/-- Identity is an equivalence: every value is itself, a NaN as well. -/
theorem equivalence_isIdentical : Equivalence fun a b : Value => a.isIdentical b = true := by
  simp only [isIdentical_iff]
  exact eq_equivalence

end Value

namespace Store

variable {s : Store} {v : Value}

/-- The values from which no NaN is reached, each related to itself. -/
def SelfEqual (x y : Value) : Prop := x = y ∧ ¬ x.ReachesNaN

/-- Only the items of tuples have to be looked at, and from them no NaN is reached either. -/
theorem isBisimulation_selfEqual (s : Store) : s.IsBisimulation SelfEqual := by
  rintro a b ⟨rfl, hfree⟩
  -- lists, dicts and code match themselves as one object; only for tuples do the parts count
  cases a with
  | none => exact .none
  | bool b => exact .bool b
  | int n => exact .int n
  | float x =>
    have hx : x.isNaN = false := by
      rw [← Bool.not_eq_true]
      intro hnan
      exact hfree (.nan hnan)
    exact .float hx hx (.inl rfl)
  | str t => exact .str rfl
  | tuple t =>
    refine .tuple (List.forall₂_same.2 ?_)
    intro x hx
    exact ⟨rfl, fun hreach => hfree (.item hx hreach)⟩
  | list r => exact .sameList r
  | dict r => exact .sameDict r
  | code c => exact .sameCode c
  | cell r => exact .cell r
  | function r => exact .function r
  | method m => exact .method rfl (Value.isIdentical_iff.2 rfl)

/-- A NaN differs from itself, and so does what it is reached from. -/
theorem not_equal_self (h : v.ReachesNaN) : ¬ s.equal v v = true := by
  -- by induction on the way to the NaN: each tuple on it differs from itself, since an item does
  induction h with
  | @nan x hx =>
    rw [equal_iff_matches]
    intro hmatch
    cases hmatch with
    | float hnot =>
      rw [hx] at hnot
      cases hnot
  | @item t x hx _ ih =>
    rw [equal_iff_matches]
    intro hmatch
    cases hmatch with
    -- tuples have one rule only, by which the items are compared
    | tuple hitems => exact ih (List.forall₂_same.1 hitems x hx)

/-- **A value equals itself** exactly when no NaN is reached from it through tuples. -/
theorem equal_self_iff : s.equal v v = true ↔ ¬ v.ReachesNaN := by
  constructor
  · intro hequal hreach
    exact not_equal_self hreach hequal
  · intro hfree
    exact s.isBisimulation_selfEqual.equal ⟨rfl, hfree⟩

/-- **Identity and equality.** On every object graph identity is an equivalence. Of a value and one
that is identical to it, equality says that they differ exactly when the value is a NaN, or a tuple
from which a NaN is reached through tuples only. So a value of any other kind equals itself, whatever
it contains. -/
theorem identity_and_equality (s : Store) :
    (Equivalence fun a b : Value => a.isIdentical b = true) ∧
      (∀ a b : Value, a.isIdentical b = true →
        (s.equal a b = false ↔ a.ReachesNaN) ∧ (s.equal a b = true ↔ ¬ a.ReachesNaN)) ∧
      ∀ v : Value, v.kind ≠ .float → v.kind ≠ .tuple → s.equal v v = true := by
  refine ⟨Value.equivalence_isIdentical, ?_, ?_⟩
  · intro a b hab
    obtain rfl : a = b := Value.isIdentical_iff.1 hab
    refine ⟨?_, equal_self_iff⟩
    rw [← Bool.not_eq_true, equal_self_iff, not_not]
  · intro v hfloat htuple
    rw [equal_self_iff]
    intro hreach
    rcases hreach.kind with hkind | hkind
    · exact hfloat hkind
    · exact htuple hkind

/-! ### A NaN inside of lists and of tuples -/

section Nested

/-- A tuple with a tuple with a NaN. -/
def nestedNaN : Value := .tuple ⟨⟨0⟩, [.tuple ⟨⟨1⟩, [someNaN]⟩]⟩

/-- A tuple of the list that contains itself and the list that contains a NaN. -/
def listedNaN : Value := .tuple ⟨⟨2⟩, [.list ⟨0⟩, .list ⟨6⟩]⟩

/-- From the tuple of lists no NaN is reached through tuples. -/
theorem not_reachesNaN_listedNaN : ¬ listedNaN.ReachesNaN := by
  intro h
  cases h with
  | item hx hreach =>
    rcases List.mem_cons.1 hx with rfl | hx
    · cases hreach
    · obtain rfl := List.mem_singleton.1 hx
      cases hreach

/-- The tuple of a tuple of a NaN is itself and differs from itself. The tuple of lists equals itself,
though there is a NaN in one list and the other one never ends; and so does that list. -/
theorem identity_and_equality_nested :
    nestedNaN.isIdentical nestedNaN = true ∧ cyclesStore.equal nestedNaN nestedNaN = false ∧
      listedNaN.isIdentical listedNaN = true ∧ cyclesStore.equal listedNaN listedNaN = true ∧
      cyclesStore.equal (.list ⟨0⟩) (.list ⟨0⟩) = true := by
  obtain ⟨hequiv, hself, hothers⟩ := cyclesStore.identity_and_equality
  have hnested := hequiv.refl nestedNaN
  have hlisted := hequiv.refl listedNaN
  have hreach : nestedNaN.ReachesNaN :=
    .item List.mem_cons_self (.item List.mem_cons_self (.nan rfl))
  exact ⟨hnested, (hself _ _ hnested).1.2 hreach, hlisted,
    (hself _ _ hlisted).2.2 not_reachesNaN_listedNaN, hothers (.list ⟨0⟩) nofun nofun⟩

end Nested

end Store

end Callable
