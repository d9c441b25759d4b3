import Callable.Proofs.Equality.Bisimulation
import Callable.Proofs.Walk.Graph
import Callable.Proofs.Walk.Guarded

/-!
# Comparisons as guarded walks

A comparison keeps the pairs of lists and of dicts that it is in the middle of. It goes through
tuples and code objects without a guard, and answers everything else at once.

* `Store.comparison` — what is done at each pair of values, in the order in which it is done and with
  nothing done that is not needed.
* `Store.compares_comparison` — the same case by case, from which the rest follows.
* `Store.guards_comparison` — the guards suffice, so the walk ends.
* `Store.solves_comparison` — its answers are those of `Store.equalWithin`.
-/

namespace Callable

open Walk

/-! ### What is done at a pair of values -/

namespace Comparison

/-- What a comparison visits. -/
abbrev Place := Value × Value

/-- Pairs of values are compared until two are not equal, and then there is a last verdict. -/
def pairs (last : Bool) : List Place → Plan Place Bool
  | [] => .answer last
  | q :: rest => .visit q fun equal => if equal then pairs last rest else .answer false

/-- Two sequences are compared item by item, if they are of one length. -/
def items (last : Bool) (xs ys : List Value) : Plan Place Bool :=
  if xs.length = ys.length then pairs last (xs.zip ys) else .answer false

/-- The entries of a table are compared with those of another one under the same names, until one is
not there or not equal. -/
def entries (u : Table Value) : List (String × Value) → Plan Place Bool
  | [] => .answer true
  | (k, v) :: rest =>
    match u.get? k with
    | none => .answer false
    | some w => .visit (v, w) fun equal => if equal then entries u rest else .answer false

/-- Two tables are compared by their entries, if they are of one size. -/
def tables (t u : Table Value) : Plan Place Bool :=
  if t.size = u.size then entries u t.entries else .answer false

end Comparison

namespace Store

open Comparison in
/-- **A comparison, place by place.** Two lists or two dicts that are one object are equal; any
others are guarded, and a pair that is in progress is taken for equal. The constants of code objects
are compared after the names and before the free variables. -/
def comparison (s : Store) : Value × Value → Look (Value × Value) ContainerPair Bool
  | (.tuple t, .tuple u) => .through (items true t.items u.items)
  | (.list a, .list b) =>
    if a = b then .through (.answer true)
    else .guard (.lists a b) true (items true (s.list a) (s.list b))
  | (.dict a, .dict b) =>
    if a = b then .through (.answer true)
    else .guard (.dicts a b) true (tables (s.dict a) (s.dict b))
  | (.code c, .code d) =>
    if Value.isIdentical (.code c) (.code d) then .through (.answer true)
    else if c.name = d.name then .through (items (c.freeVars == d.freeVars) c.consts d.consts)
    else .through (.answer false)
  | (a, b) => .through (.answer (Value.equalBy (fun _ _ => false) (fun _ _ => false) a b))

open Comparison in
/-- What a comparison can come to, case by case. -/
inductive Compares (s : Store) : Value → Value → Look Place ContainerPair Bool → Prop
  | tuples (t u : Tuple) :
      Compares s (.tuple t) (.tuple u) (.through (items true t.items u.items))
  | sameList (r : ListRef) : Compares s (.list r) (.list r) (.through (.answer true))
  | lists {a b : ListRef} (h : a ≠ b) :
      Compares s (.list a) (.list b) (.guard (.lists a b) true (items true (s.list a) (s.list b)))
  | sameDict (r : DictRef) : Compares s (.dict r) (.dict r) (.through (.answer true))
  | dicts {a b : DictRef} (h : a ≠ b) :
      Compares s (.dict a) (.dict b) (.guard (.dicts a b) true (tables (s.dict a) (s.dict b)))
  | sameCode {c d : Code} (h : Value.isIdentical (.code c) (.code d) = true) :
      Compares s (.code c) (.code d) (.through (.answer true))
  | codes {c d : Code} (h : Value.isIdentical (.code c) (.code d) = false)
      (hname : c.name = d.name) :
      Compares s (.code c) (.code d)
        (.through (items (c.freeVars == d.freeVars) c.consts d.consts))
  | otherCode {c d : Code} (h : Value.isIdentical (.code c) (.code d) = false)
      (hname : c.name ≠ d.name) :
      Compares s (.code c) (.code d) (.through (.answer false))
  /-- Of other values it makes no difference how lists and dicts are compared. -/
  | atoms {a b : Value} (h : ∀ lists dicts, Value.equalBy lists dicts a b =
        Value.equalBy (fun _ _ => false) (fun _ _ => false) a b) :
      Compares s a b (.through (.answer (Value.equalBy (fun _ _ => false) (fun _ _ => false) a b)))

theorem compares_comparison (s : Store) (a b : Value) : s.Compares a b (s.comparison (a, b)) := by
  cases a with
  | tuple t =>
    -- two values of different kinds are never looked into, which is the case `atoms`
    cases b with
    | tuple u => exact .tuples t u
    | _ => exact .atoms fun _ _ => rfl
  | list a =>
    cases b with
    | list b =>
      by_cases hab : a = b
      · rw [comparison, if_pos hab, hab]
        exact .sameList b
      · rw [comparison, if_neg hab]
        exact .lists hab
    | _ => exact .atoms fun _ _ => rfl
  | dict a =>
    cases b with
    | dict b =>
      by_cases hab : a = b
      · rw [comparison, if_pos hab, hab]
        exact .sameDict b
      · rw [comparison, if_neg hab]
        exact .dicts hab
    | _ => exact .atoms fun _ _ => rfl
  | code c =>
    cases b with
    | code d =>
      rw [comparison]
      -- first the objects themselves, then their names, and the constants only after those
      cases hsame : Value.isIdentical (.code c) (.code d) with
      | true => exact .sameCode hsame
      | false =>
        by_cases hname : c.name = d.name
        · rw [if_neg Bool.false_ne_true, if_pos hname]
          exact .codes hsame hname
        · rw [if_neg Bool.false_ne_true, if_neg hname]
          exact .otherCode hsame hname
    | _ => exact .atoms fun _ _ => rfl
  | _ => cases b <;> exact .atoms fun _ _ => rfl

/-- The pairs that a comparison goes through without a guard and to other pairs. -/
def IsCompoundPair (q : Value × Value) : Prop :=
  q.1.kind = q.2.kind ∧ (q.1.kind = .tuple ∨ q.1.kind = .code)

end Store

/-- The pairs in progress, as a set. -/
def PairsInProgress.pairs (p : PairsInProgress) : Finset ContainerPair :=
  (p.lists.map (fun q => ContainerPair.lists q.1 q.2) ++
    p.dicts.map (fun q => ContainerPair.dicts q.1 q.2)).toFinset

namespace Comparison

theorem mem_of_mentions_pairs {last : Bool} {qs : List Place} {q : Place}
    (h : (pairs last qs).Mentions q) : q ∈ qs := by
  induction qs with
  | nil => cases h
  | cons q' rest ih =>
    cases h with
    | here => exact List.mem_cons_self
    | @later _ _ equal h =>
      -- the next pair is visited only after an equal one
      cases equal with
      | true => exact List.mem_cons_of_mem _ (ih h)
      | false => cases h

theorem mem_of_mentions_items {last : Bool} {xs ys : List Value} {q : Place}
    (h : (items last xs ys).Mentions q) : q.1 ∈ xs ∧ q.2 ∈ ys := by
  rw [items] at h
  split at h
  · exact List.of_mem_zip (mem_of_mentions_pairs h)
  · cases h

theorem mem_of_mentions_tables {t u : Table Value} {q : Place} (h : (tables t u).Mentions q) :
    q.1 ∈ t.values ∧ q.2 ∈ u.values := by
  -- `u` stays whole while the entries of `t` are gone through
  have inEntries : ∀ {es : List (String × Value)}, (entries u es).Mentions q →
      q.1 ∈ es.map Prod.snd ∧ q.2 ∈ u.values := by
    intro es h
    induction es with
    | nil => cases h
    | cons e rest ih =>
      obtain ⟨k, v⟩ := e
      rw [entries] at h
      cases hw : u.get? k with
      | none =>
        rw [hw] at h
        cases h
      | some w =>
        rw [hw] at h
        cases h with
        | here =>
          -- `w` is found under its name, so it is one of the values of `u`
          have hentry : (k, w) ∈ u.entries := Table.mem_entries_iff.2 hw
          exact ⟨List.mem_cons_self, List.mem_map_of_mem hentry⟩
        | @later _ _ equal h =>
          cases equal with
          | true =>
            obtain ⟨hfirst, hsecond⟩ := ih h
            exact ⟨List.mem_cons_of_mem _ hfirst, hsecond⟩
          | false => cases h
  rw [tables] at h
  split at h
  · exact inEntries h
  · cases h

theorem eval_items (F : Place → Bool) (last : Bool) (xs ys : List Value) :
    (items last xs ys).eval F = (xs.isEqv ys (fun a b => F (a, b)) && last) := by
  rw [items]
  -- the plan asks for the lengths before all items and `isEqv` at each, so both grow together
  induction xs generalizing ys with
  | nil => cases ys <;> rfl
  | cons x xs ih =>
    cases ys with
    | nil => rfl
    | cons y ys =>
      specialize ih ys
      by_cases hlength : xs.length = ys.length
      · have hlength' : (x :: xs).length = (y :: ys).length := congrArg Nat.succ hlength
        rw [if_pos hlength] at ih
        rw [if_pos hlength', List.zip_cons_cons, pairs, Plan.eval, List.isEqv, Bool.and_assoc, ← ih]
        cases F (x, y) <;> rfl
      · -- if the lengths differ in the end, no verdict on the first items matters
        have hlength' : ¬(x :: xs).length = (y :: ys).length := fun h => hlength (Nat.succ.inj h)
        rw [if_neg hlength] at ih
        rw [if_neg hlength', List.isEqv, Bool.and_assoc, ← ih]
        exact (Bool.and_false _).symm

theorem eval_tables (F : Place → Bool) (t u : Table Value) :
    (tables t u).eval F = Table.equalBy (fun a b => F (a, b)) t u := by
  have inEntries : ∀ es : List (String × Value), (entries u es).eval F =
      es.all fun e => (u.get? e.1).elim false fun w => F (e.2, w) := by
    intro es
    induction es with
    | nil => rfl
    | cons e rest ih =>
      obtain ⟨k, v⟩ := e
      rw [entries, List.all_cons, ← ih]
      cases u.get? k with
      | none => rfl
      | some w =>
        -- to stop at the first difference and to take a conjunction is the same
        have hvisit : (Plan.visit (v, w) fun equal =>
            if equal then entries u rest else .answer false).eval F =
              (F (v, w) && (entries u rest).eval F) := by
          rw [Plan.eval]
          cases F (v, w) <;> rfl
        exact hvisit
  rw [tables, Table.equalBy]
  by_cases hsize : t.size = u.size
  · rw [if_pos hsize, inEntries, beq_iff_eq.2 hsize, Bool.true_and]
    refine congrArg t.entries.all (funext fun e => ?_)
    cases u.get? e.1 <;> rfl
  · rw [if_neg hsize, beq_eq_false_iff_ne.2 hsize, Bool.false_and]
    rfl

end Comparison

namespace PairsInProgress

variable (p : PairsInProgress) (a b : ListRef) (c d : DictRef)

theorem lists_mem_pairs {p : PairsInProgress} {a b : ListRef} :
    .lists a b ∈ p.pairs ↔ (a, b) ∈ p.lists := by
  simp [pairs]

theorem dicts_mem_pairs {p : PairsInProgress} {a b : DictRef} :
    .dicts a b ∈ p.pairs ↔ (a, b) ∈ p.dicts := by
  simp [pairs]

theorem pairs_addLists : (p.addLists a b).pairs = insert (.lists a b) p.pairs := by
  rw [pairs, addLists, List.map_cons, List.cons_append, List.toFinset_cons]
  rfl

theorem pairs_addDicts : (p.addDicts c d).pairs = insert (.dicts c d) p.pairs := by
  ext q
  cases q <;> simp [pairs, addDicts]

end PairsInProgress

namespace Store

/-- With one more pair in progress no more pairs are left. -/
theorem pairsLeft_addLists_le (s : Store) (p : PairsInProgress) (a b : ListRef) :
    s.pairsLeft (p.addLists a b) ≤ s.pairsLeft p := by
  refine Nat.add_le_add_right (List.countP_mono_left fun q _ hq => ?_) _
  simp_all [PairsInProgress.addLists]

theorem pairsLeft_addDicts_le (s : Store) (p : PairsInProgress) (a b : DictRef) :
    s.pairsLeft (p.addDicts a b) ≤ s.pairsLeft p := by
  refine Nat.add_le_add_left (List.countP_mono_left fun q _ hq => ?_) _
  simp_all [PairsInProgress.addDicts]

/-- **The guards of a comparison suffice.** -/
theorem guards_comparison (s : Store) (roots : List Value) :
    Guards s.comparison (fun q => s.Known roots q.1 ∧ s.Known roots q.2) (s.containerPairs roots)
      (fun q => q.1.depth) (s.nesting roots) where
  depth_le h := h.1.depth_le
  through := by
    rintro ⟨a, b⟩ plan q ⟨ha, hb⟩ hlook hq
    have hcases := s.compares_comparison a b
    rw [hlook] at hcases
    cases hcases with
    | tuples t u =>
      -- the first components alone measure the depth, and both go down together
      obtain ⟨h₁, h₂⟩ := Comparison.mem_of_mentions_items hq
      exact ⟨⟨(ha.of_tuple h₁).1, (hb.of_tuple h₂).1⟩, (ha.of_tuple h₁).2⟩
    | codes =>
      obtain ⟨h₁, h₂⟩ := Comparison.mem_of_mentions_items hq
      exact ⟨⟨(ha.of_code h₁).1, (hb.of_code h₂).1⟩, (ha.of_code h₁).2⟩
    -- all others are answered without a visit
    | sameList | sameDict | sameCode | otherCode | atoms => cases hq
  key_mem := by
    rintro ⟨a, b⟩ key again plan ⟨ha, hb⟩ hlook
    have hcases := s.compares_comparison a b
    rw [hlook] at hcases
    cases hcases with
    | lists =>
      -- both lists are in the graph, hence so is their pair
      exact mem_containerPairs.2 ⟨_, ha.list_mem_containers, _, hb.list_mem_containers, rfl⟩
    | dicts =>
      exact mem_containerPairs.2 ⟨_, ha.dict_mem_containers, _, hb.dict_mem_containers, rfl⟩
  inside := by
    rintro ⟨a, b⟩ key again plan q - hlook hq
    have hcases := s.compares_comparison a b
    rw [hlook] at hcases
    cases hcases with
    | lists =>
      obtain ⟨h₁, h₂⟩ := Comparison.mem_of_mentions_items hq
      exact ⟨.of_list h₁, .of_list h₂⟩
    | dicts =>
      obtain ⟨h₁, h₂⟩ := Comparison.mem_of_mentions_tables hq
      exact ⟨.of_dict h₁, .of_dict h₂⟩

/-- What a comparison goes through are tuples and code objects. -/
theorem isCompoundPair_of_mentions {s : Store} {q m : Value × Value} {plan : Plan _ Bool}
    (hlook : s.comparison q = .through plan) (hm : plan.Mentions m) : IsCompoundPair q := by
  obtain ⟨a, b⟩ := q
  have hcases := s.compares_comparison a b
  rw [hlook] at hcases
  cases hcases with
  | tuples t u => exact ⟨rfl, .inl rfl⟩
  | codes => exact ⟨rfl, .inr rfl⟩
  | sameList | sameDict | sameCode | otherCode | atoms => cases hm

/-- The answer of a comparison with these pairs in progress. -/
def equalIn (s : Store) (p : PairsInProgress) (q : Value × Value) : Bool :=
  s.equalWithin (s.pairsLeft p + 1) p q.1 q.2

/-- There is room for one layer more than there has to be. -/
theorem equalIn_eq (s : Store) (p : PairsInProgress) (a b : Value) :
    s.equalIn p (a, b) = Value.equalBy
      (fun a b => a == b || p.lists.contains (a, b) ||
        (s.list a).isEqv (s.list b) fun x y => s.equalIn (p.addLists a b) (x, y))
      (fun a b => a == b || p.dicts.contains (a, b) ||
        Table.equalBy (fun x y => s.equalIn (p.addDicts a b) (x, y)) (s.dict a) (s.dict b)) a b := by
  -- the bound of `equalIn` fits its own pairs, but the layer below has one pair more in progress;
  -- all bounds with room enough agree, so each can be taken to be the one that fits
  have hmore : s.equalWithin (s.pairsLeft p + 1) p = s.equalWithin (s.pairsLeft p + 2) p :=
    equalWithin_eq (Nat.lt_succ_self _) (by omega)
  have hlists (a b : ListRef) : s.equalWithin (s.pairsLeft p + 1) (p.addLists a b) =
      fun x y => s.equalIn (p.addLists a b) (x, y) :=
    equalWithin_eq (Nat.lt_succ_of_le (s.pairsLeft_addLists_le p a b)) (Nat.lt_succ_self _)
  have hdicts (a b : DictRef) : s.equalWithin (s.pairsLeft p + 1) (p.addDicts a b) =
      fun x y => s.equalIn (p.addDicts a b) (x, y) :=
    equalWithin_eq (Nat.lt_succ_of_le (s.pairsLeft_addDicts_le p a b)) (Nat.lt_succ_self _)
  rw [equalIn, hmore, equalWithin]
  simp only [hlists, hdicts]

theorem equalIn_list (s : Store) (p : PairsInProgress) (a b : ListRef) :
    s.equalIn p (.list a, .list b) = (a == b || p.lists.contains (a, b) ||
      (s.list a).isEqv (s.list b) fun x y => s.equalIn (p.addLists a b) (x, y)) := by
  rw [equalIn_eq]
  rfl

theorem equalIn_dict (s : Store) (p : PairsInProgress) (a b : DictRef) :
    s.equalIn p (.dict a, .dict b) = (a == b || p.dicts.contains (a, b) ||
      Table.equalBy (fun x y => s.equalIn (p.addDicts a b) (x, y)) (s.dict a) (s.dict b)) := by
  rw [equalIn_eq]
  rfl

theorem equalIn_tuple (s : Store) (p : PairsInProgress) (t u : Tuple) :
    s.equalIn p (.tuple t, .tuple u) = t.items.isEqv u.items fun x y => s.equalIn p (x, y) :=
  Value.equalItemsBy_eq_isEqv t.items u.items

theorem equalIn_code (s : Store) (p : PairsInProgress) (c d : Code) :
    s.equalIn p (.code c, .code d) = (Value.isIdentical (.code c) (.code d) ||
      (c.name == d.name && c.freeVars == d.freeVars &&
        c.consts.isEqv d.consts fun x y => s.equalIn p (x, y))) := by
  have hitems : (c.consts.isEqv d.consts fun x y => s.equalIn p (x, y)) = _ :=
    (Value.equalItemsBy_eq_isEqv c.consts d.consts).symm
  rw [hitems]
  rfl

/-- **The answers of comparisons.** -/
theorem solves_comparison (s : Store) :
    Solves s.comparison PairsInProgress.pairs s.equalIn where
  through := by
    rintro p ⟨a, b⟩ plan hlook
    have hcases := s.compares_comparison a b
    rw [hlook] at hcases
    cases hcases with
    | tuples t u => rw [Comparison.eval_items, Bool.and_true, equalIn_tuple]
    | @codes c d h hname =>
      -- `equalBy` has the free variables before the constants, the plan asks for them last
      rw [Comparison.eval_items, equalIn_code, h, beq_iff_eq.2 hname, Bool.false_or, Bool.true_and]
      exact Bool.and_comm _ _
    | sameList r =>
      rw [equalIn_list, beq_self_eq_true]
      rfl
    | sameDict r =>
      rw [equalIn_dict, beq_self_eq_true]
      rfl
    | sameCode h =>
      rw [equalIn_code, h]
      rfl
    | otherCode h hname =>
      rw [equalIn_code, h, beq_eq_false_iff_ne.2 hname]
      rfl
    | atoms h => exact h _ _
  met := by
    rintro p ⟨a, b⟩ key again plan hlook hkey
    have hcases := s.compares_comparison a b
    rw [hlook] at hcases
    cases hcases with
    | lists h =>
      -- two different lists, found in progress: the middle one of the three tests
      have hmem := List.contains_iff_mem.2 (PairsInProgress.lists_mem_pairs.1 hkey)
      rw [equalIn_list, hmem, Bool.or_true, Bool.true_or]
    | dicts h =>
      have hmem := List.contains_iff_mem.2 (PairsInProgress.dicts_mem_pairs.1 hkey)
      rw [equalIn_dict, hmem, Bool.or_true, Bool.true_or]
  entered := by
    rintro p ⟨a, b⟩ key again plan hlook hkey
    have hcases := s.compares_comparison a b
    rw [hlook] at hcases
    cases hcases with
    | @lists a b h =>
      -- of the three tests only the last is left: the items, with the pair in progress
      have hmem : p.lists.contains (a, b) = false := by
        rw [PairsInProgress.lists_mem_pairs] at hkey
        simpa using hkey
      refine ⟨p.addLists a b, p.pairs_addLists a b, ?_⟩
      rw [equalIn_list, beq_eq_false_iff_ne.2 h, hmem, Comparison.eval_items, Bool.and_true]
      rfl
    | @dicts a b h =>
      have hmem : p.dicts.contains (a, b) = false := by
        rw [PairsInProgress.dicts_mem_pairs] at hkey
        simpa using hkey
      refine ⟨p.addDicts a b, p.pairs_addDicts a b, ?_⟩
      rw [equalIn_dict, beq_eq_false_iff_ne.2 h, hmem, Comparison.eval_tables]
      rfl

/-- With nothing in progress a comparison decides equality. -/
theorem equalIn_none (s : Store) (a b : Value) : s.equalIn .none (a, b) = s.equal a b := by
  rw [equalIn, pairsLeft_none, equal]

end Store

end Callable
