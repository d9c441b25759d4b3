import Callable.Value.Equality

/-!
# Equality as a relation on object graphs

The walk of `Store.equal` remembers the comparisons it is in the middle of. This module describes
what it computes without that memory.

* `Store.layer_equal` — two values are equal exactly when they are so one layer deep, with equality
  itself below.
* `Store.equal_of_layer` — and equality is the largest relation of that sort: whatever relates only
  values that it also relates one layer deep relates only equal values.

Between the two stands `Store.equalUpTo`, equality down to a nesting of containers, with no regard
to cycles.

* A pair of values that agree down to any nesting is found equal, since a walk asks for no more.
* A pair that is found equal agrees down to any nesting: a comparison in progress that is taken for
  granted is one that has been found to agree down to the nesting in question
  (`Store.equalUpTo_of_equalWithin`).
* A walk enters each pair of containers once, so beyond the number of pairs a greater bound changes
  nothing (`Store.equalWithin_eq`).
-/

namespace Callable

/-! ### Comparing more generously -/

/-- What is equal by a comparison is equal by a more generous one. -/
theorem isEqv_mono {α : Type} {eq eq' : α → α → Bool} (h : ∀ a b, eq a b = true → eq' a b = true) :
    ∀ {xs ys : List α}, xs.isEqv ys eq = true → xs.isEqv ys eq' = true
  | [], [], _ => rfl
  | x :: xs, y :: ys, hxy => by
    simp only [List.isEqv, Bool.and_eq_true] at hxy ⊢
    exact ⟨h _ _ hxy.1, isEqv_mono h hxy.2⟩

theorem Table.equalBy_mono {V : Type} {eq eq' : V → V → Bool}
    (h : ∀ a b, eq a b = true → eq' a b = true) {t u : Table V} (htu : t.equalBy eq u = true) :
    t.equalBy eq' u = true := by
  simp only [Table.equalBy, Bool.and_eq_true, List.all_eq_true] at htu ⊢
  refine ⟨htu.1, fun e he => ?_⟩
  have := htu.2 e he
  grind

namespace Value

variable {lists lists' : ListRef → ListRef → Bool} {dicts dicts' : DictRef → DictRef → Bool}

mutual

theorem equalBy_mono (hl : ∀ a b, lists a b = true → lists' a b = true)
    (hd : ∀ a b, dicts a b = true → dicts' a b = true) : (a b : Value) →
    equalBy lists dicts a b = true → equalBy lists' dicts' a b = true
  | .tuple ⟨_, xs⟩, b, h => by
    cases b <;> simp_all [equalBy]
    exact equalItemsBy_mono hl hd xs _ h
  | .code ⟨_, _, xs, _⟩, b, h => by
    cases b <;> simp_all [equalBy]
    have := equalItemsBy_mono hl hd xs
    grind
  | .none, b, h | .bool _, b, h | .int _, b, h | .float _, b, h | .str _, b, h | .list _, b, h
  | .dict _, b, h | .cell _, b, h | .function _, b, h | .method _, b, h => by
    cases b <;> simp_all [equalBy]

theorem equalItemsBy_mono (hl : ∀ a b, lists a b = true → lists' a b = true)
    (hd : ∀ a b, dicts a b = true → dicts' a b = true) : (xs ys : List Value) →
    equalItemsBy lists dicts xs ys = true → equalItemsBy lists' dicts' xs ys = true
  | [], [], _ => rfl
  | x :: xs, y :: ys, h => by
    simp only [equalItemsBy, Bool.and_eq_true] at h ⊢
    exact ⟨equalBy_mono hl hd x y h.1, equalItemsBy_mono hl hd xs ys h.2⟩

end

theorem equalItemsBy_eq_isEqv : (xs ys : List Value) →
    equalItemsBy lists dicts xs ys = xs.isEqv ys (equalBy lists dicts)
  | [], [] => rfl
  | [], _ :: _ | _ :: _, [] => by simp [equalItemsBy]
  | x :: xs, y :: ys => by simp [equalItemsBy, List.isEqv, equalItemsBy_eq_isEqv xs ys]

end Value

namespace Store

/-! ### One layer -/

/-- Are two lists one object, or equal item by item in the given way? -/
def listsEqualBy (s : Store) (eq : Value → Value → Bool) (a b : ListRef) : Bool :=
  a == b || (s.list a).isEqv (s.list b) eq

/-- Are two dicts one object, or equal entry by entry in the given way? -/
def dictsEqualBy (s : Store) (eq : Value → Value → Bool) (a b : DictRef) : Bool :=
  a == b || Table.equalBy eq (s.dict a) (s.dict b)

/-- Are two values equal, if what is in lists and dicts is compared in the given way? -/
def layer (s : Store) (eq : Value → Value → Bool) : Value → Value → Bool :=
  Value.equalBy (s.listsEqualBy eq) (s.dictsEqualBy eq)

variable {s : Store} {eq eq' : Value → Value → Bool}

theorem listsEqualBy_mono (h : ∀ a b, eq a b = true → eq' a b = true) {a b : ListRef}
    (hab : s.listsEqualBy eq a b = true) : s.listsEqualBy eq' a b = true := by
  simp only [listsEqualBy, Bool.or_eq_true] at hab ⊢
  exact hab.imp id (isEqv_mono h)

theorem dictsEqualBy_mono (h : ∀ a b, eq a b = true → eq' a b = true) {a b : DictRef}
    (hab : s.dictsEqualBy eq a b = true) : s.dictsEqualBy eq' a b = true := by
  simp only [dictsEqualBy, Bool.or_eq_true] at hab ⊢
  exact hab.imp id (Table.equalBy_mono h)

theorem layer_mono (h : ∀ a b, eq a b = true → eq' a b = true) {a b : Value}
    (hab : s.layer eq a b = true) : s.layer eq' a b = true :=
  Value.equalBy_mono (fun _ _ => listsEqualBy_mono h) (fun _ _ => dictsEqualBy_mono h) a b hab

/-! ### Layer upon layer -/

/-- Are two values equal down to a nesting of containers? What is nested deeper counts as equal. -/
def equalUpTo (s : Store) : Nat → Value → Value → Bool
  | 0 => fun _ _ => true
  | n + 1 => s.layer (s.equalUpTo n)

theorem equalUpTo_of_succ {n : Nat} {a b : Value} (h : s.equalUpTo (n + 1) a b = true) :
    s.equalUpTo n a b = true := by
  -- by induction on the nesting, since a layer over a more generous comparison is more generous
  induction n generalizing a b with
  | zero => rfl
  | succ n ih => exact layer_mono (fun _ _ => ih) h

theorem equalUpTo_of_le {m n : Nat} (hmn : m ≤ n) {a b : Value} (h : s.equalUpTo n a b = true) :
    s.equalUpTo m a b = true := by
  induction hmn with
  | refl => exact h
  | step _ ih => exact ih (equalUpTo_of_succ h)

theorem equalUpTo_list {n : Nat} {a b : ListRef} :
    s.equalUpTo (n + 1) (.list a) (.list b) = s.listsEqualBy (s.equalUpTo n) a b := by
  simp [equalUpTo, layer, Value.equalBy]

theorem equalUpTo_dict {n : Nat} {a b : DictRef} :
    s.equalUpTo (n + 1) (.dict a) (.dict b) = s.dictsEqualBy (s.equalUpTo n) a b := by
  simp [equalUpTo, layer, Value.equalBy]

/-! ### The walk and the layers -/

theorem equalWithin_of_equalUpTo {n : Nat} {p : PairsInProgress} {a b : Value}
    (h : s.equalUpTo n a b = true) : s.equalWithin n p a b = true := by
  -- by induction on the nesting, for any pairs in progress: they can only make a walk more generous
  induction n generalizing p a b with
  | zero => rfl
  | succ n ih =>
    refine Value.equalBy_mono (fun x y hxy => ?_) (fun x y hxy => ?_) a b h
    · simp only [listsEqualBy, Bool.or_eq_true] at hxy ⊢
      exact hxy.imp .inl (isEqv_mono fun _ _ => ih)
    · simp only [dictsEqualBy, Bool.or_eq_true] at hxy ⊢
      exact hxy.imp .inl (Table.equalBy_mono fun _ _ => ih)

/-- Every comparison in progress is of containers that are equal down to a nesting. -/
structure Trusted (s : Store) (n : Nat) (p : PairsInProgress) : Prop where
  lists : ∀ q ∈ p.lists, s.equalUpTo n (.list q.1) (.list q.2) = true
  dicts : ∀ q ∈ p.dicts, s.equalUpTo n (.dict q.1) (.dict q.2) = true

theorem trusted_none (s : Store) (n : Nat) : s.Trusted n .none :=
  ⟨by simp [PairsInProgress.none], by simp [PairsInProgress.none]⟩

namespace Trusted

variable {n : Nat} {p : PairsInProgress}

theorem of_le {m : Nat} (h : s.Trusted n p) (hmn : m ≤ n) : s.Trusted m p :=
  ⟨fun q hq => equalUpTo_of_le hmn (h.lists q hq), fun q hq => equalUpTo_of_le hmn (h.dicts q hq)⟩

theorem addLists (h : s.Trusted n p) {a b : ListRef}
    (hab : s.equalUpTo n (.list a) (.list b) = true) : s.Trusted n (p.addLists a b) where
  lists := by
    intro q hq
    rcases List.mem_cons.1 hq with rfl | hq
    · exact hab
    · exact h.lists q hq
  dicts := h.dicts

theorem addDicts (h : s.Trusted n p) {a b : DictRef}
    (hab : s.equalUpTo n (.dict a) (.dict b) = true) : s.Trusted n (p.addDicts a b) where
  lists := h.lists
  dicts := by
    intro q hq
    rcases List.mem_cons.1 hq with rfl | hq
    · exact hab
    · exact h.dicts q hq

end Trusted

/-- What a walk finds equal is equal down to any nesting that it has room for, as long as what it
takes for granted is. -/
theorem equalUpTo_of_equalWithin {n k : Nat} {p : PairsInProgress} (hnk : n ≤ k)
    (hp : s.Trusted n p) {a b : Value} (h : s.equalWithin k p a b = true) :
    s.equalUpTo n a b = true := by
  -- by strong induction on the nesting, since a pair that is entered has to be taken for granted at
  -- all smaller ones
  induction n using Nat.strongRecOn generalizing k p a b with
  | ind n ih =>
  match n, k with
  | 0, _ => rfl
  | n + 1, k + 1 =>
    refine Value.equalBy_mono (fun x y hxy => ?_) (fun x y hxy => ?_) a b h
    all_goals simp only [Bool.or_eq_true, List.contains_iff_mem] at hxy
    · rcases hxy with (hxy | hxy) | hxy
      · simp [listsEqualBy, hxy]
      · exact equalUpTo_list ▸ hp.lists _ hxy
      · rw [← equalUpTo_list]
        -- the pair is in progress when its parts are compared; that it may be taken for granted
        -- down to a nesting is shown one step after the other
        suffices ∀ m ≤ n + 1, s.equalUpTo m (.list x) (.list y) = true from this _ (Nat.le_refl _)
        intro m hm
        induction m with
        | zero => rfl
        | succ m ihm =>
          have hxy' := (hp.of_le (by omega)).addLists (ihm (by omega))
          rw [equalUpTo_list, listsEqualBy, Bool.or_eq_true]
          exact .inr (isEqv_mono (fun c d => ih m (by omega) (by omega) hxy') hxy)
    · rcases hxy with (hxy | hxy) | hxy
      · simp [dictsEqualBy, hxy]
      · exact equalUpTo_dict ▸ hp.dicts _ hxy
      · rw [← equalUpTo_dict]
        -- as for lists
        suffices ∀ m ≤ n + 1, s.equalUpTo m (.dict x) (.dict y) = true from this _ (Nat.le_refl _)
        intro m hm
        induction m with
        | zero => rfl
        | succ m ihm =>
          have hxy' := (hp.of_le (by omega)).addDicts (ihm (by omega))
          rw [equalUpTo_dict, dictsEqualBy, Bool.or_eq_true]
          exact .inr (Table.equalBy_mono (fun c d => ih m (by omega) (by omega) hxy') hxy)

end Store

/-! ### Pairs of containers -/

/-- The pairs of references to the first so many objects of a sort. -/
def Ref.pairs (sort : Mutable) (n : Nat) : List (Ref sort × Ref sort) :=
  (List.range n).flatMap fun i => (List.range n).map fun j => (⟨i⟩, ⟨j⟩)

theorem Ref.mem_pairs {sort : Mutable} {n : Nat} {a b : Ref sort} :
    (a, b) ∈ Ref.pairs sort n ↔ a.index < n ∧ b.index < n := by
  obtain ⟨i⟩ := a
  obtain ⟨j⟩ := b
  simp [Ref.pairs]

theorem Ref.length_pairs (sort : Mutable) (n : Nat) : (Ref.pairs sort n).length = n * n := by
  simp [Ref.pairs, List.map_const']

/-- A test that fails for one more member of a list counts fewer of them. -/
theorem countP_lt {α : Type} {p q : α → Bool} (h : ∀ a, q a = true → p a = true) {l : List α}
    {x : α} (hx : x ∈ l) (hp : p x = true) (hq : q x = false) : l.countP q < l.countP p := by
  -- before and after the one member the second test counts no more than the first one
  obtain ⟨l₁, l₂, rfl⟩ := List.append_of_mem hx
  have h₁ := List.countP_mono_left (l := l₁) fun a _ => h a
  have h₂ := List.countP_mono_left (l := l₂) fun a _ => h a
  simp only [List.countP_append, List.countP_cons, hp, hq]
  simp
  omega

namespace Store

variable {s : Store}

theorem list_eq_nil {r : ListRef} (h : s.lists.size ≤ r.index) : s.list r = [] := by
  simp [list, Heap.get, Heap.get?_eq_none_of_size_le h]
  rfl

theorem dict_eq_empty {r : DictRef} (h : s.dicts.size ≤ r.index) : s.dict r = .empty := by
  simp [dict, Heap.get, Heap.get?_eq_none_of_size_le h]
  rfl

/-- The number of pairs of containers whose comparison has not begun. -/
def pairsLeft (s : Store) (p : PairsInProgress) : Nat :=
  (Ref.pairs .list s.lists.size).countP (fun q => !p.lists.contains q) +
    (Ref.pairs .dict s.dicts.size).countP (fun q => !p.dicts.contains q)

theorem pairsLeft_none (s : Store) : s.pairsLeft .none + 1 = s.pairBound := by
  simp [pairsLeft, PairsInProgress.none, pairBound, Ref.length_pairs]

theorem pairsLeft_addLists {p : PairsInProgress} {a b : ListRef} (ha : a.index < s.lists.size)
    (hb : b.index < s.lists.size) (h : (a, b) ∉ p.lists) :
    s.pairsLeft (p.addLists a b) < s.pairsLeft p := by
  refine Nat.add_lt_add_right (countP_lt (fun q hq => ?_) (Ref.mem_pairs.2 ⟨ha, hb⟩) ?_ ?_) _
  · simp_all [PairsInProgress.addLists]
  · simpa using h
  · simp [PairsInProgress.addLists]

theorem pairsLeft_addDicts {p : PairsInProgress} {a b : DictRef} (ha : a.index < s.dicts.size)
    (hb : b.index < s.dicts.size) (h : (a, b) ∉ p.dicts) :
    s.pairsLeft (p.addDicts a b) < s.pairsLeft p := by
  refine Nat.add_lt_add_left (countP_lt (fun q hq => ?_) (Ref.mem_pairs.2 ⟨ha, hb⟩) ?_ ?_) _
  · simp_all [PairsInProgress.addDicts]
  · simpa using h
  · simp [PairsInProgress.addDicts]

end Store

/-- Where one of two lists is empty no items are compared. -/
theorem isEqv_eq_of_nil {α : Type} {eq eq' : α → α → Bool} {xs ys : List α}
    (h : xs = [] ∨ ys = []) : xs.isEqv ys eq = xs.isEqv ys eq' := by
  cases xs <;> cases ys <;> simp_all [List.isEqv]

/-- Where one of two tables is empty no values are compared. -/
theorem Table.equalBy_eq_of_empty {V : Type} {eq eq' : V → V → Bool} {t u : Table V}
    (h : t = .empty ∨ u = .empty) : t.equalBy eq u = t.equalBy eq' u := by
  obtain ⟨es, _⟩ := t
  obtain ⟨es', _⟩ := u
  cases es <;> cases es' <;> simp_all [Table.equalBy, Table.empty, Table.size]

namespace Store

variable {s : Store}

/-- Walks with room for all pairs that are left agree. -/
theorem equalWithin_eq {k k' : Nat} {p : PairsInProgress} (hk : s.pairsLeft p < k)
    (hk' : s.pairsLeft p < k') : s.equalWithin k p = s.equalWithin k' p := by
  induction k generalizing k' p with
  | zero => omega
  | succ k ih =>
    obtain ⟨k', rfl⟩ : ∃ m, k' = m + 1 := ⟨k' - 1, by omega⟩
    unfold equalWithin
    congr 1
    · funext a b
      by_cases hab : (a, b) ∈ p.lists
      · simp [hab]
      congr 1
      by_cases hr : a.index < s.lists.size ∧ b.index < s.lists.size
      · -- both walks enter the pair, and then there is one pair less for either
        have := pairsLeft_addLists hr.1 hr.2 hab
        rw [ih (by omega) (by omega : _ < k')]
      · -- of a list that was never made there are no items, so the walks do not go on
        refine isEqv_eq_of_nil ?_
        rcases Nat.lt_or_ge a.index s.lists.size with ha | ha
        · exact .inr (list_eq_nil (by omega))
        · exact .inl (list_eq_nil ha)
    · funext a b
      by_cases hab : (a, b) ∈ p.dicts
      · simp [hab]
      congr 1
      by_cases hr : a.index < s.dicts.size ∧ b.index < s.dicts.size
      · -- as for lists
        have := pairsLeft_addDicts hr.1 hr.2 hab
        rw [ih (by omega) (by omega : _ < k')]
      · refine Table.equalBy_eq_of_empty ?_
        rcases Nat.lt_or_ge a.index s.dicts.size with ha | ha
        · exact .inr (dict_eq_empty (by omega))
        · exact .inl (dict_eq_empty ha)

/-! ### Equality -/

theorem equalUpTo_of_equal {a b : Value} (h : s.equal a b = true) (n : Nat) :
    s.equalUpTo n a b = true := by
  have hp := s.pairsLeft_none
  -- with more room than there are pairs the verdict is the same, so the nesting can be any
  refine equalUpTo_of_le (Nat.le_max_left n s.pairBound)
    (equalUpTo_of_equalWithin (Nat.le_refl _) (s.trusted_none _) ?_)
  rw [equalWithin_eq (by omega) (by omega : _ < s.pairBound)]
  exact h

/-- Equality is equality down to the number of pairs of containers, or deeper. -/
theorem equal_eq_equalUpTo {n : Nat} (hn : s.pairBound ≤ n) : s.equal = s.equalUpTo n := by
  funext a b
  rw [Bool.eq_iff_iff]
  exact ⟨fun h => equalUpTo_of_equal h n, fun h => equalWithin_of_equalUpTo (equalUpTo_of_le hn h)⟩

/-- Two values are equal exactly when they are so one layer deep. -/
theorem layer_equal (s : Store) : s.layer s.equal = s.equal := by
  have h := equal_eq_equalUpTo (Nat.le_refl s.pairBound)
  conv => lhs; rw [h]
  exact (equal_eq_equalUpTo (Nat.le_succ _)).symm

/-- A relation whose pairs are also related one layer deep relates only equal values. -/
theorem equal_of_layer {eq : Value → Value → Bool}
    (heq : ∀ a b, eq a b = true → s.layer eq a b = true) {a b : Value} (h : eq a b = true) :
    s.equal a b = true := by
  rw [equal_eq_equalUpTo (Nat.le_refl s.pairBound)]
  -- by induction on the nesting, which the number of pairs is one of
  generalize s.pairBound = n
  induction n generalizing a b with
  | zero => rfl
  | succ n ih => exact layer_mono (fun _ _ => ih) (heq a b h)

end Store

end Callable
