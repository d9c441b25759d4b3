import Callable.Proofs.Store.Contents
import Callable.Store.Release
import Mathlib.Data.Finset.Image
import Mathlib.Data.Finset.Option
import Mathlib.Data.Finset.Prod

/-!
# The object graph as a place for walks

A walk through the object graph comes to values: those that it starts with, those in lists and dicts,
and those in immutable objects. What it may come to is bounded in two ways.

* `Store.containers`, `Store.containerPairs` — the lists and dicts of the graph, and their pairs.
  There are finitely many.
* `Value.depth`, `Store.nesting` — how deep immutable objects are nested in a value, and in the
  graph. Each of them is deeper than what is in it, so no cycle consists of them only.
* `Store.Known` — the values that a walk may come to. `Known.of_list`, `Known.of_tuple`, … lead from
  one to the next.
-/

namespace Callable

/-! ### Immutable objects are deeper than what is in them -/

namespace Value

mutual

/-- How deep immutable objects are nested in the value, references not followed. -/
def depth : Value → Nat
  | .tuple ⟨_, xs⟩ => depthOfItems xs
  | .code ⟨_, _, xs, _⟩ => depthOfItems xs
  | .method ⟨_, _, x⟩ => depth x + 1
  | .none | .bool _ | .int _ | .float _ | .str _ | .list _ | .dict _ | .cell _ | .function _ => 0

/-- One more than the greatest depth among some values. -/
def depthOfItems : List Value → Nat
  | [] => 0
  | x :: xs => max (depth x + 1) (depthOfItems xs)

end

theorem depth_lt_of_mem {x : Value} {xs : List Value} (h : x ∈ xs) : x.depth < depthOfItems xs := by
  induction xs with
  | nil => cases h
  | cons y ys ih =>
    rw [depthOfItems]
    rcases List.mem_cons.1 h with rfl | h
    · exact Nat.lt_of_lt_of_le (Nat.lt_succ_self _) (Nat.le_max_left _ _)
    · exact Nat.lt_of_lt_of_le (ih h) (Nat.le_max_right _ _)

end Value

/-! ### The object graph -/

/-- A list or a dict. -/
inductive Container where
  | list (r : ListRef)
  | dict (r : DictRef)
  deriving DecidableEq

/-- An ordered pair of lists or of dicts. -/
inductive ContainerPair where
  | lists (a b : ListRef)
  | dicts (a b : DictRef)
  deriving DecidableEq

/-- The container that an object is. -/
def Object.container? : Object → Option Container
  | .list r => some (.list r)
  | .dict r => some (.dict r)
  | .cell _ | .function _ => none

/-- The pair that two containers of one sort make. -/
def Container.pair? : Container → Container → Option ContainerPair
  | .list a, .list b => some (.lists a b)
  | .dict a, .dict b => some (.dicts a b)
  | _, _ => none

namespace Store

/-- The values in the object graph: some roots, and what the objects contain. -/
def graph (s : Store) (roots : List Value) : List Value := roots ++ s.alive.flatMap s.contents

/-- The lists and dicts in the object graph. -/
def containers (s : Store) (roots : List Value) : Finset Container :=
  (((s.graph roots).flatMap Value.handles).filterMap Object.container?).toFinset

/-- The pairs of lists and of dicts in the object graph. -/
def containerPairs (s : Store) (roots : List Value) : Finset ContainerPair :=
  Finset.eraseNone (((s.containers roots) ×ˢ (s.containers roots)).image fun q => q.1.pair? q.2)

/-- How deep immutable objects are nested in the object graph. -/
def nesting (s : Store) (roots : List Value) : Nat := ((s.graph roots).map Value.depth).foldr max 0

/-- What a walk may come to: its containers are in the graph, and it is no deeper than the graph. -/
structure Known (s : Store) (roots : List Value) (v : Value) : Prop where
  handles : ∀ o ∈ v.handles, ∃ u ∈ s.graph roots, o ∈ u.handles
  depth_le : v.depth ≤ s.nesting roots

variable {s : Store} {roots : List Value}

theorem mem_containers {c : Container} :
    c ∈ s.containers roots ↔ ∃ u ∈ s.graph roots, ∃ o ∈ u.handles, o.container? = some c := by
  simp only [containers, List.mem_toFinset, List.mem_filterMap, List.mem_flatMap]
  constructor
  · rintro ⟨o, ⟨u, hu, ho⟩, hc⟩
    exact ⟨u, hu, o, ho, hc⟩
  · rintro ⟨u, hu, o, ho, hc⟩
    exact ⟨o, ⟨u, hu, ho⟩, hc⟩

theorem mem_containerPairs {q : ContainerPair} :
    q ∈ s.containerPairs roots ↔
      ∃ a ∈ s.containers roots, ∃ b ∈ s.containers roots, a.pair? b = some q := by
  simp only [containerPairs, Finset.mem_eraseNone, Finset.mem_image, Finset.mem_product]
  constructor
  · rintro ⟨⟨a, b⟩, ⟨ha, hb⟩, hq⟩
    exact ⟨a, ha, b, hb, hq⟩
  · rintro ⟨a, ha, b, hb, hq⟩
    exact ⟨(a, b), ⟨ha, hb⟩, hq⟩

theorem depth_le_nesting {v : Value} (hv : v ∈ s.graph roots) : v.depth ≤ s.nesting roots := by
  -- of any list of values: the graph is put together from several and gives no induction
  have le_foldr (vs : List Value) (hv : v ∈ vs) : v.depth ≤ (vs.map Value.depth).foldr max 0 := by
    induction vs with
    | nil => cases hv
    | cons u vs ih =>
      rw [List.map_cons, List.foldr_cons]
      rcases List.mem_cons.1 hv with rfl | hv
      · exact Nat.le_max_left _ _
      · exact Nat.le_trans (ih hv) (Nat.le_max_right _ _)
  exact le_foldr (s.graph roots) hv

namespace Known

theorem of_mem_graph {v : Value} (hv : v ∈ s.graph roots) : s.Known roots v :=
  ⟨fun _ ho => ⟨v, hv, ho⟩, depth_le_nesting hv⟩

theorem of_root {v : Value} (hv : v ∈ roots) : s.Known roots v :=
  .of_mem_graph (List.mem_append_left _ hv)

theorem of_contents {o : Object} {v : Value} (hv : v ∈ s.contents o) : s.Known roots v := by
  -- an object that is gone has nothing in it
  have ho : o ∈ s.alive := mem_alive.2 (isAlive_of_mem_contents hv)
  exact .of_mem_graph (List.mem_append_right _ (List.mem_flatMap.2 ⟨o, ho, hv⟩))

/-- What is in a list is in the graph. -/
theorem of_list {r : ListRef} {v : Value} (hv : v ∈ s.list r) : s.Known roots v := by
  rw [← contents_list] at hv
  exact of_contents hv

/-- What is in a dict is in the graph. -/
theorem of_dict {r : DictRef} {v : Value} (hv : v ∈ (s.dict r).values) : s.Known roots v := by
  rw [← contents_dict] at hv
  exact of_contents hv

/-- An item of an immutable object, of which all handles and the depth are those of its items. -/
theorem of_item {v x : Value} {xs : List Value} (h : s.Known roots v)
    (hhandles : v.handles = Value.handlesOfItems xs) (hdepth : v.depth = Value.depthOfItems xs)
    (hx : x ∈ xs) : s.Known roots x ∧ x.depth < v.depth := by
  have hless : x.depth < v.depth := hdepth ▸ Value.depth_lt_of_mem hx
  refine ⟨⟨fun o ho => h.handles o ?_, Nat.le_of_lt (Nat.lt_of_lt_of_le hless h.depth_le)⟩, hless⟩
  -- what is in the item is in `v`, and that is in the graph
  rw [hhandles, Value.handlesOfItems_eq_flatMap]
  exact List.mem_flatMap.2 ⟨x, hx, ho⟩

theorem of_tuple {t : Tuple} (h : s.Known roots (.tuple t)) {x : Value} (hx : x ∈ t.items) :
    s.Known roots x ∧ x.depth < (Value.tuple t).depth :=
  h.of_item rfl rfl hx

theorem of_code {c : Code} (h : s.Known roots (.code c)) {x : Value} (hx : x ∈ c.consts) :
    s.Known roots x ∧ x.depth < (Value.code c).depth :=
  h.of_item rfl rfl hx

theorem of_receiver {m : Method} (h : s.Known roots (.method m)) :
    s.Known roots m.receiver ∧ m.receiver.depth < (Value.method m).depth := by
  have hless : m.receiver.depth < (Value.method m).depth := Nat.lt_succ_self _
  refine ⟨⟨fun o ho => h.handles o ?_, Nat.le_of_lt (Nat.lt_of_lt_of_le hless h.depth_le)⟩, hless⟩
  exact List.mem_cons_of_mem _ ho

theorem list_mem_containers {r : ListRef} (h : s.Known roots (.list r)) :
    .list r ∈ s.containers roots := by
  obtain ⟨u, hu, ho⟩ := h.handles (.list r) List.mem_cons_self
  exact mem_containers.2 ⟨u, hu, _, ho, rfl⟩

theorem dict_mem_containers {r : DictRef} (h : s.Known roots (.dict r)) :
    .dict r ∈ s.containers roots := by
  obtain ⟨u, hu, ho⟩ := h.handles (.dict r) List.mem_cons_self
  exact mem_containers.2 ⟨u, hu, _, ho, rfl⟩

end Known

end Store

end Callable
