import Callable.Value.Comparison
import Mathlib.Data.List.Forall2
import Mathlib.Data.List.Perm.Subperm
import Mathlib.Order.Bounds.Defs

/-!
# Equality is the greatest bisimulation

Two values are equal when no path through the object graph tells them apart. This module says so
without any walk: `Store.Matches R` compares two values one layer deep, with `R` for the parts, and
equality is the greatest relation that relates exactly the values that it matches itself.

* `Store.Matches` — the comparison of one layer, a rule for each kind of value. Lists, dicts and
  code objects have a second rule, by which one object matches itself whatever it contains; tuples
  have not.
* `Store.IsBisimulation` — a relation that relates only what it matches. Such a relation is below
  equality (`Store.IsBisimulation.equal`).
* `Store.equal_isGreatest` — equality is the greatest relation with `R a b ↔ Matches R a b`, by
  whichever walk it is computed: the one that remembers the pairs in progress, with any room beyond
  the number of pairs of containers, and the one that takes no pair apart twice.

The walk takes a pair that it meets again for equal. That this is sound is what the module on
equality as a relation settles (`Store.equal_of_layer`); here the Boolean layers become rules
(`Store.matches_iff_holds`), the one point with a content of its own being dicts: a comparison of
sizes and of the values under the first dict's names comes to a comparison of sets of names, since
no name is there twice.
-/

namespace Callable

/-! ### Lists and tables as relations -/

/-- Two lists are equal item by item when they are so as a relation. -/
theorem isEqv_iff_forall₂ {α : Type} {eq : α → α → Bool} {xs ys : List α} :
    xs.isEqv ys eq = true ↔ List.Forall₂ (fun a b => eq a b = true) xs ys := by
  induction xs generalizing ys with
  | nil => cases ys <;> simp [List.isEqv]
  | cons x xs ih =>
    cases ys with
    | nil => simp [List.isEqv]
    | cons y ys => rw [List.isEqv, Bool.and_eq_true, List.forall₂_cons, ih]

namespace Table

variable {V : Type}

theorem mem_keys_iff {t : Table V} {k : String} : k ∈ t.keys ↔ ∃ v, t.get? k = some v := by
  rw [← contains_iff, contains, Option.isSome_iff_exists]

/-- What stands under a name is what is read there, as no name is there twice. -/
theorem mem_entries_iff {t : Table V} {k : String} {v : V} :
    (k, v) ∈ t.entries ↔ t.get? k = some v := by
  obtain ⟨entries, nodup⟩ := t
  change (k, v) ∈ entries ↔ find k entries = some v
  induction entries with
  | nil => simp [find]
  | cons e rest ih =>
    obtain ⟨k', v'⟩ := e
    rw [List.map_cons, List.nodup_cons] at nodup
    rw [List.mem_cons, ih nodup.2, find, Prod.mk.injEq]
    by_cases hk : k' = k
    · -- the name stands first, so it stands nowhere in the rest
      subst hk
      have hnot : find k' rest ≠ some v := by
        intro hfind
        exact nodup.1 ((find_isSome k' rest).1 (by rw [hfind]; rfl))
      simp [hnot, eq_comm]
    · simp [hk, Ne.symm hk]

/-- Tables of one size of which the first has only names of the second have the same names. -/
theorem mem_keys_congr {t u : Table V} (hsize : t.size = u.size) (hsub : t.keys ⊆ u.keys)
    (k : String) : k ∈ t.keys ↔ k ∈ u.keys := by
  rw [size_eq_length_keys, size_eq_length_keys] at hsize
  have hperm := (t.nodup_keys.subperm hsub).perm_of_length_le (Nat.le_of_eq hsize.symm)
  exact hperm.mem_iff

/-- **Equality of tables.** They are equal when they have the same names, in whatever order, and
equal values under every name. -/
theorem equalBy_iff {eq : V → V → Bool} {t u : Table V} :
    t.equalBy eq u = true ↔
      (∀ k, k ∈ t.keys ↔ k ∈ u.keys) ∧
        ∀ k v w, t.get? k = some v → u.get? k = some w → eq v w = true := by
  rw [equalBy, Bool.and_eq_true, beq_iff_eq, List.all_eq_true]
  constructor
  · rintro ⟨hsize, hall⟩
    -- every entry of the first table is found in the second one under its name
    have hread : ∀ k v, t.get? k = some v → ∃ w, u.get? k = some w ∧ eq v w = true := by
      intro k v hv
      have hentry := hall (k, v) (mem_entries_iff.2 hv)
      cases hw : u.get? k with
      | none => simp [hw] at hentry
      | some w => exact ⟨w, rfl, by simpa [hw] using hentry⟩
    have hsub : t.keys ⊆ u.keys := by
      intro k hk
      obtain ⟨v, hv⟩ := mem_keys_iff.1 hk
      obtain ⟨w, hw, -⟩ := hread k v hv
      exact mem_keys_iff.2 ⟨w, hw⟩
    refine ⟨mem_keys_congr hsize hsub, fun k v w hv hw => ?_⟩
    obtain ⟨w', hw', heq⟩ := hread k v hv
    rw [hw] at hw'
    rwa [Option.some.inj hw']
  · rintro ⟨hkeys, hvalues⟩
    -- the second table has no more names than the first, which makes the sizes agree
    constructor
    · rw [size_eq_length_keys, size_eq_length_keys]
      exact ((List.perm_ext_iff_of_nodup t.nodup_keys u.nodup_keys).2 hkeys).length_eq
    · rintro ⟨k, v⟩ he
      have hv := mem_entries_iff.1 he
      obtain ⟨w, hw⟩ := mem_keys_iff.1 ((hkeys k).1 (mem_keys_iff.2 ⟨v, hv⟩))
      simpa [hw] using hvalues k v w hv hw

end Table

namespace Store

/-! ### The rules -/

/-- **One layer of a comparison.** Two values match when they are of one kind and agree as far as
can be seen without a look into their parts, and their parts are related by `R`. -/
inductive Matches (s : Store) (R : Value → Value → Prop) : Value → Value → Prop
  | none : Matches s R .none .none
  | bool (b : Bool) : Matches s R (.bool b) (.bool b)
  | int (n : Int64) : Matches s R (.int n) (.int n)
  /-- A NaN matches nothing, and the two zeros match. -/
  | float {x y : Binary64} (hx : x.isNaN = false) (hy : y.isNaN = false)
      (h : x = y ∨ (x.isZero = true ∧ y.isZero = true)) : Matches s R (.float x) (.float y)
  | str {a b : Str} (h : a.text = b.text) : Matches s R (.str a) (.str b)
  | tuple {a b : Tuple} (h : List.Forall₂ R a.items b.items) : Matches s R (.tuple a) (.tuple b)
  | sameList (r : ListRef) : Matches s R (.list r) (.list r)
  | list {a b : ListRef} (h : List.Forall₂ R (s.list a) (s.list b)) :
      Matches s R (.list a) (.list b)
  | sameDict (r : DictRef) : Matches s R (.dict r) (.dict r)
  | dict {a b : DictRef} (hkeys : ∀ k, k ∈ (s.dict a).keys ↔ k ∈ (s.dict b).keys)
      (h : ∀ k v w, (s.dict a).get? k = some v → (s.dict b).get? k = some w → R v w) :
      Matches s R (.dict a) (.dict b)
  | sameCode (c : Code) : Matches s R (.code c) (.code c)
  | code {c d : Code} (hname : c.name = d.name) (hfree : c.freeVars = d.freeVars)
      (h : List.Forall₂ R c.consts d.consts) : Matches s R (.code c) (.code d)
  | cell (r : CellRef) : Matches s R (.cell r) (.cell r)
  | function (r : FunctionRef) : Matches s R (.function r) (.function r)
  | method {m n : Method} (hfunction : m.function = n.function)
      (hreceiver : m.receiver.isIdentical n.receiver = true) :
      Matches s R (.method m) (.method n)

/-- A relation that relates only what it matches. -/
def IsBisimulation (s : Store) (R : Value → Value → Prop) : Prop :=
  ∀ a b, R a b → s.Matches R a b

variable {s : Store}

/-! ### The rules and the pairing of parts -/

/-- Values of different kinds have no pairing. -/
theorem kind_eq_of_holds {eq : Value → Value → Bool} {a b : Value}
    (h : (s.pairing a b).holds eq = true) : a.kind = b.kind := by
  cases a <;> cases b <;> first | rfl | cases h

/-- Values that match have a pairing, and its pairs are related. -/
theorem holds_of_matches {eq : Value → Value → Bool} {a b : Value}
    (h : s.Matches (fun x y => eq x y = true) a b) : (s.pairing a b).holds eq = true := by
  cases h with
  | none => rfl
  | bool b => simp [pairing]
  | int n => simp [pairing]
  | float hx hy h => simpa [pairing, Binary64.ieeeEq, hx, hy] using h
  | str h => simpa [pairing] using h
  | tuple h => rw [pairing, Pairing.holds_ofLists, isEqv_iff_forall₂]; exact h
  | sameList r => simp [pairing]
  | list h =>
    rw [pairing, Pairing.holds_unlessSame, Pairing.holds_ofLists, Bool.or_eq_true,
      isEqv_iff_forall₂]
    -- by the second of the two ways, without a look at whether it is one object
    exact .inr h
  | sameDict r => simp [pairing]
  | dict hkeys h =>
    rw [pairing, Pairing.holds_unlessSame, Pairing.holds_ofTables, Bool.or_eq_true,
      Table.equalBy_iff]
    exact .inr ⟨hkeys, h⟩
  | sameCode c => simp [pairing, Value.isIdentical_iff]
  | code hname hfree h =>
    rw [pairing, Pairing.holds_unlessSame, Pairing.holds_provided, Pairing.holds_ofLists,
      Bool.or_eq_true, Bool.and_eq_true, isEqv_iff_forall₂]
    exact .inr ⟨by simp [hname, hfree], h⟩
  | cell r => simp [pairing]
  | function r => simp [pairing]
  | method hfunction hreceiver => simp [pairing, hfunction, hreceiver]

/-- Values with related pairs of parts match. -/
theorem matches_of_holds {eq : Value → Value → Bool} {a b : Value}
    (h : (s.pairing a b).holds eq = true) : s.Matches (fun x y => eq x y = true) a b := by
  have hkind := kind_eq_of_holds h
  -- off the diagonal the kinds differ
  cases a <;> cases b <;> try (cases hkind; done)
  case none.none => exact .none
  case bool.bool b c =>
    obtain rfl : b = c := by simpa [pairing] using h
    exact .bool b
  case int.int m n =>
    obtain rfl : m = n := by simpa [pairing] using h
    exact .int m
  case float.float x y =>
    rw [pairing, Pairing.holds_settled, Binary64.ieeeEq] at h
    simp only [Bool.and_eq_true, Bool.or_eq_true, Bool.not_eq_true', beq_iff_eq] at h
    exact .float h.1.1 h.1.2 h.2
  case str.str a b => exact .str (by simpa [pairing] using h)
  case tuple.tuple a b =>
    rw [pairing, Pairing.holds_ofLists, isEqv_iff_forall₂] at h
    exact .tuple h
  case list.list a b =>
    rw [pairing, Pairing.holds_unlessSame, Pairing.holds_ofLists, Bool.or_eq_true, beq_iff_eq,
      isEqv_iff_forall₂] at h
    rcases h with rfl | h
    · exact .sameList a
    · exact .list h
  case dict.dict a b =>
    rw [pairing, Pairing.holds_unlessSame, Pairing.holds_ofTables, Bool.or_eq_true, beq_iff_eq,
      Table.equalBy_iff] at h
    rcases h with rfl | h
    · exact .sameDict a
    · exact .dict h.1 h.2
  case code.code c d =>
    rw [pairing, Pairing.holds_unlessSame, Pairing.holds_provided, Pairing.holds_ofLists,
      Bool.or_eq_true, Value.isIdentical_iff, Bool.and_eq_true, Bool.and_eq_true, beq_iff_eq,
      beq_iff_eq, isEqv_iff_forall₂] at h
    rcases h with h | ⟨⟨hname, hfree⟩, h⟩
    · obtain rfl := Value.code.inj h
      exact .sameCode c
    · exact .code hname hfree h
  case cell.cell a b =>
    obtain rfl : a = b := by simpa [pairing] using h
    exact .cell a
  case function.function f g =>
    obtain rfl : f = g := by simpa [pairing] using h
    exact .function f
  case method.method m n =>
    rw [pairing, Pairing.holds_settled, Bool.and_eq_true, beq_iff_eq] at h
    exact .method h.1 h.2

/-- **The rules are the pairing.** Two values match by a Boolean relation exactly when the pairs of
parts that have to be equal are in the relation. -/
theorem matches_iff_holds {eq : Value → Value → Bool} {a b : Value} :
    s.Matches (fun x y => eq x y = true) a b ↔ (s.pairing a b).holds eq = true :=
  ⟨holds_of_matches, matches_of_holds⟩

/-! ### Equality among the relations -/

/-- Two values are equal exactly when they match, with equality for their parts. -/
theorem equal_iff_matches {a b : Value} :
    s.equal a b = true ↔ s.Matches (fun x y => s.equal x y = true) a b := by
  rw [matches_iff_holds, ← equal_eq_holds]

/-- **Coinduction.** A bisimulation relates only equal values. -/
theorem IsBisimulation.equal {R : Value → Value → Prop} (hR : s.IsBisimulation R) {a b : Value}
    (hab : R a b) : s.equal a b = true := by
  classical
  -- the walk knows Boolean relations only, so `R` is taken as one
  have hdecide : (fun x y => decide (R x y) = true) = R := by
    funext x y
    rw [decide_eq_true_eq]
  have hlayer : ∀ x y, decide (R x y) = true →
      (s.pairing x y).holds (fun x y => decide (R x y)) = true := by
    intro x y hxy
    rw [← matches_iff_holds, hdecide]
    exact hR x y (of_decide_eq_true hxy)
  exact equal_of_pairing hlayer (decide_eq_true hab)

/-- A walk that begins with nothing in progress and has room for all pairs of containers comes to
the same verdict however much more room it has. -/
theorem equalWithin_add_eq_equal (s : Store) (k : Nat) :
    s.equalWithin (s.pairBound + k) .none = s.equal := by
  -- nothing is in progress, so all pairs are left, and both rooms are beyond that
  have hleft := s.pairsLeft_none
  funext a b
  change _ = s.equalWithin s.pairBound .none a b
  rw [equalWithin_eq (by omega) (by omega : s.pairsLeft .none < s.pairBound)]

/-- **Equality is bisimilarity.** Of all relations that relate exactly the values that they match,
equality is the greatest: the walk that begins with no comparison in progress computes it, with any
room beyond the number of pairs of containers, and so does the comparison that takes no pair apart
twice. -/
theorem equal_isGreatest (s : Store) :
    IsGreatest {R : Value → Value → Prop | ∀ a b, R a b ↔ s.Matches R a b}
        (fun a b => s.equal a b = true) ∧
      (∀ k, s.equalWithin (s.pairBound + k) .none = s.equal) ∧ s.agree = s.equal := by
  refine ⟨⟨fun a b => equal_iff_matches, fun R hR a b hab => ?_⟩, s.equalWithin_add_eq_equal,
    s.agree_eq_equal⟩
  exact IsBisimulation.equal (fun x y => (hR x y).1) hab

end Store

end Callable
