import Callable.Value.Pairing
import Std.Data.HashSet

/-!
# Comparisons

Objects may share parts, and there may be far more ways to a pair of parts than there are pairs. A
comparison keeps an agenda of the pairs that have still to be found equal, and notes every pair that
it has taken apart, so that it takes none apart twice: one difference settles the matter, and while
there is none, a pair noted before stands or falls with the others.

* `Store.agree` — are two values equal, by such a comparison?
* `Store.agree_eq_equal` — it is equality.
-/

namespace Callable

/-- The pairs that a comparison has still to find equal. -/
abbrev Agenda := List (Value × Value)

/-- The pairs that a comparison has taken apart. -/
abbrev PairsSeen := Std.HashSet (Value × Value)

/-! ### Why a comparison ends -/

/-- The size of an agenda: what its left values take to write down. -/
noncomputable def Agenda.weight : Agenda → Nat
  | [] => 0
  | (a, _) :: rest => sizeOf a + 1 + weight rest

theorem Agenda.weight_append (l l' : Agenda) : Agenda.weight (l ++ l') = l.weight + l'.weight := by
  induction l with
  | nil => simp [weight]
  | cons q l ih => simp only [List.cons_append, weight, ih]; omega

theorem Agenda.weight_zip (xs ys : List Value) : Agenda.weight (xs.zip ys) < sizeOf xs := by
  induction xs generalizing ys with
  | nil => simp [weight]
  | cons x xs ih =>
    cases ys with
    | nil => simp only [List.zip_nil_right, weight, List.cons.sizeOf_spec]; omega
    | cons y ys =>
      have := ih ys
      simp only [List.zip_cons_cons, weight, List.cons.sizeOf_spec]
      omega

theorem Pairing.weight_ofLists {xs ys : List Value} {ps : Agenda} (h : ofLists xs ys = some ps) :
    ps.weight < sizeOf xs := by
  unfold ofLists at h
  split at h
  · exact Option.some.inj h ▸ Agenda.weight_zip xs ys
  · cases h

/-- Where items are paired neither list is empty. -/
theorem Pairing.ne_nil_of_ofLists {V : Type} {xs ys : List V} {q : V × V} {ps : List (V × V)}
    (h : ofLists xs ys = some (q :: ps)) : xs ≠ [] ∧ ys ≠ [] := by
  cases xs <;> cases ys <;> simp_all [ofLists]

/-- Where values are paired neither table is empty. -/
theorem Pairing.ne_empty_of_ofTables {V : Type} {t u : Table V} {q : V × V} {ps : List (V × V)}
    (h : ofTables t u = some (q :: ps)) : t ≠ .empty ∧ u ≠ .empty := by
  obtain ⟨es, _⟩ := t
  obtain ⟨es', _⟩ := u
  cases es <;> cases es' <;> simp_all [ofTables, Table.size, Table.empty]

namespace Store

variable {s : Store}

/-- The number of pairs of containers that have not been taken apart. -/
def pairsUnseen (s : Store) (seen : PairsSeen) : Nat :=
  (Ref.pairs .list s.lists.size).countP (fun q => !seen.contains (.list q.1, .list q.2)) +
    (Ref.pairs .dict s.dicts.size).countP (fun q => !seen.contains (.dict q.1, .dict q.2))

theorem pairsUnseen_insert_le (seen : PairsSeen) (q : Value × Value) :
    s.pairsUnseen (seen.insert q) ≤ s.pairsUnseen seen := by
  refine Nat.add_le_add ?_ ?_ <;> refine List.countP_mono_left fun r _ hr => ?_ <;> simp_all

theorem pairsUnseen_insert_list {seen : PairsSeen} {a b : ListRef} (ha : a.index < s.lists.size)
    (hb : b.index < s.lists.size) (h : seen.contains (.list a, .list b) = false) :
    s.pairsUnseen (seen.insert (.list a, .list b)) < s.pairsUnseen seen := by
  refine Nat.add_lt_add_of_lt_of_le (countP_lt (fun q hq => ?_) (Ref.mem_pairs.2 ⟨ha, hb⟩) ?_ ?_)
    (List.countP_mono_left fun r _ hr => ?_)
  · simp_all
  · simp [h]
  · simp
  · simp_all

theorem pairsUnseen_insert_dict {seen : PairsSeen} {a b : DictRef} (ha : a.index < s.dicts.size)
    (hb : b.index < s.dicts.size) (h : seen.contains (.dict a, .dict b) = false) :
    s.pairsUnseen (seen.insert (.dict a, .dict b)) < s.pairsUnseen seen := by
  refine Nat.add_lt_add_of_le_of_lt (List.countP_mono_left fun r _ hr => ?_)
    (countP_lt (fun q hq => ?_) (Ref.mem_pairs.2 ⟨ha, hb⟩) ?_ ?_)
  · simp_all
  · simp_all
  · simp [h]
  · simp

/-- Lists with items to compare are there. -/
theorem index_lt_of_ofLists {a b : ListRef} {q : Value × Value} {ps : Agenda}
    (h : Pairing.ofLists (s.list a) (s.list b) = some (q :: ps)) :
    a.index < s.lists.size ∧ b.index < s.lists.size := by
  have hne := Pairing.ne_nil_of_ofLists h
  constructor <;> refine Nat.lt_of_not_ge fun hge => ?_
  · exact hne.1 (list_eq_nil hge)
  · exact hne.2 (list_eq_nil hge)

/-- Dicts with values to compare are there. -/
theorem index_lt_of_ofTables {a b : DictRef} {q : Value × Value} {ps : Agenda}
    (h : Pairing.ofTables (s.dict a) (s.dict b) = some (q :: ps)) :
    a.index < s.dicts.size ∧ b.index < s.dicts.size := by
  have hne := Pairing.ne_empty_of_ofTables h
  constructor <;> refine Nat.lt_of_not_ge fun hge => ?_
  · exact hne.1 (dict_eq_empty hge)
  · exact hne.2 (dict_eq_empty hge)

/-- To take a pair apart leaves fewer pairs of containers, or as many and smaller parts. -/
theorem lex_of_pairing {seen : PairsSeen} {a b : Value} {q : Value × Value} {ps rest : Agenda}
    (hseen : seen.contains (a, b) = false) (h : s.pairing a b = some (q :: ps)) :
    Prod.Lex (· < ·) (· < ·) (s.pairsUnseen (seen.insert (a, b)), Agenda.weight (q :: ps ++ rest))
      (s.pairsUnseen seen, Agenda.weight ((a, b) :: rest)) := by
  have hle := s.pairsUnseen_insert_le seen (a, b)
  -- either the pair is one of containers, which is then seen; or the parts are smaller
  suffices s.pairsUnseen (seen.insert (a, b)) < s.pairsUnseen seen ∨
      Agenda.weight (q :: ps) < sizeOf a + 1 by
    rw [Prod.lex_def, Agenda.weight_append]
    simp only [Agenda.weight] at this ⊢
    omega
  -- four kinds have parts that are compared, and all other pairings are settled at once
  cases a <;> cases b <;>
    simp only [pairing, Pairing.settled, Pairing.unlessSame, Pairing.provided, reduceCtorEq] at h
  case tuple.tuple a b =>
    have := Pairing.weight_ofLists h
    obtain ⟨_, xs⟩ := a
    exact .inr (by simp only [Value.tuple.sizeOf_spec, TupleOf.mk.sizeOf_spec] at this ⊢; omega)
  case code.code a b =>
    split at h
    · simp at h
    · split at h
      · have := Pairing.weight_ofLists h
        obtain ⟨_, _, xs, _⟩ := a
        exact .inr (by simp only [Value.code.sizeOf_spec, CodeOf.mk.sizeOf_spec] at this ⊢; omega)
      · simp at h
  case list.list a b =>
    split at h
    · simp at h
    · obtain ⟨ha, hb⟩ := index_lt_of_ofLists h
      exact .inl (pairsUnseen_insert_list ha hb hseen)
  case dict.dict a b =>
    split at h
    · simp at h
    · obtain ⟨ha, hb⟩ := index_lt_of_ofTables h
      exact .inl (pairsUnseen_insert_dict ha hb hseen)
  all_goals simp at h

/-! ### The comparison -/

/-- Are all pairs of the agenda equal? Those seen are equal if the others are. -/
def agreeOn (s : Store) (seen : PairsSeen) : Agenda → Bool
  | [] => true
  | (a, b) :: rest =>
    if _ : seen.contains (a, b) then s.agreeOn seen rest
    else
      match _ : s.pairing a b with
      | none => false
      | some [] => s.agreeOn seen rest
      | some (q :: ps) => s.agreeOn (seen.insert (a, b)) (q :: ps ++ rest)
termination_by todo => (s.pairsUnseen seen, todo.weight)
decreasing_by
  · exact Prod.Lex.right _ (by simp [Agenda.weight])
  · exact Prod.Lex.right _ (by simp [Agenda.weight])
  · exact lex_of_pairing (by simpa using ‹¬_›) ‹_›

/-- Are the two values equal? -/
def agree (s : Store) (a b : Value) : Bool := s.agreeOn ∅ [(a, b)]

/-! ### It is equality -/

/-- Pairs of equal values are found equal. -/
theorem agreeOn_of_equal {seen : PairsSeen} {todo : Agenda}
    (h : ∀ q ∈ todo, s.equal q.1 q.2 = true) : s.agreeOn seen todo = true := by
  -- pair by pair as the agenda is worked off; what is taken apart leaves equal parts
  fun_induction agreeOn s seen todo with
  | case1 => rfl
  | case2 seen a b rest hseen ih => exact ih fun q hq => h q (List.mem_cons_of_mem _ hq)
  | case3 seen a b rest hseen hp =>
    have := h _ List.mem_cons_self
    simp [equal_eq_holds, hp] at this
  | case4 seen a b rest hseen hp ih => exact ih fun q hq => h q (List.mem_cons_of_mem _ hq)
  | case5 seen a b rest hseen q ps hp ih =>
    have hab := h _ List.mem_cons_self
    rw [equal_eq_holds, hp] at hab
    refine ih fun r hr => ?_
    rcases List.mem_append.1 hr with hr | hr
    · exact List.all_eq_true.1 hab r hr
    · exact h r (List.mem_cons_of_mem _ hr)

/-- Pairs found equal are in a relation with those seen, in which only these lack their parts. -/
theorem exists_relation_of_agreeOn {seen : PairsSeen} {todo : Agenda}
    (h : s.agreeOn seen todo = true) : ∃ eq : Value → Value → Bool,
      (∀ a b, seen.contains (a, b) = true → eq a b = true) ∧
      (∀ q ∈ todo, eq q.1 q.2 = true) ∧
      ∀ a b, eq a b = true → seen.contains (a, b) = true ∨ (s.pairing a b).holds eq = true := by
  fun_induction agreeOn s seen todo with
  | case1 seen => exact ⟨fun a b => seen.contains (a, b), by simp, by simp, fun _ _ h => .inl h⟩
  | case2 seen a b rest hseen ih =>
    obtain ⟨eq, hs, ht, hp⟩ := ih h
    exact ⟨eq, hs, List.forall_mem_cons.2 ⟨hs a b hseen, ht⟩, hp⟩
  | case3 => cases h
  | case4 seen a b rest hseen hab ih =>
    obtain ⟨eq, hs, ht, hp⟩ := ih h
    -- the pair without parts is added to the relation
    have hmono : ∀ x y, eq x y = true → (eq x y || (x, y) == (a, b)) = true := by simp_all
    refine ⟨fun x y => eq x y || (x, y) == (a, b), fun x y hxy => hmono x y (hs x y hxy),
      List.forall_mem_cons.2 ⟨by simp, fun q hq => hmono _ _ (ht q hq)⟩, fun x y hxy => ?_⟩
    rcases Bool.or_eq_true_iff.1 hxy with hxy | hxy
    · exact (hp x y hxy).imp id (Pairing.holds_mono hmono)
    · obtain ⟨rfl, rfl⟩ := Prod.mk.inj (eq_of_beq hxy)
      exact .inr (by rw [hab]; rfl)
  | case5 seen a b rest hseen q ps hab ih =>
    obtain ⟨eq, hs, ht, hp⟩ := ih h
    have hold := List.forall_mem_append.1 ht
    -- the pair was noted, and its parts were found equal later on, so it lacks them no more
    refine ⟨eq, fun x y hxy => hs x y ?_, List.forall_mem_cons.2 ⟨hs a b ?_, hold.2⟩,
      fun x y hxy => ?_⟩
    · simp [hxy]
    · simp
    · rcases hp x y hxy with hxy | hxy
      · rw [Std.HashSet.contains_insert, Bool.or_eq_true] at hxy
        rcases hxy with hxy | hxy
        · obtain ⟨rfl, rfl⟩ := Prod.mk.inj (eq_of_beq hxy)
          exact .inr (by rw [hab]; exact List.all_eq_true.2 hold.1)
        · exact .inl hxy
      · exact .inr hxy

/-- To take no pair apart twice changes no verdict. -/
theorem agree_eq_equal (s : Store) : s.agree = s.equal := by
  funext a b
  rw [Bool.eq_iff_iff]
  constructor
  · intro h
    -- nothing was seen in the beginning, so no pair of the relation lacks its parts
    obtain ⟨eq, -, ht, hp⟩ := exists_relation_of_agreeOn h
    refine equal_of_pairing (fun x y hxy => (hp x y hxy).resolve_left ?_) (ht (a, b) (by simp))
    simp
  · intro h
    exact agreeOn_of_equal (by simpa using h)

end Store

end Callable
