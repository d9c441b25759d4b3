import Callable.Proofs.Walk.Graph
import Callable.Proofs.Walk.Guarded
import Callable.Value.Bisimilarity
import Callable.Value.Rendering

/-!
# Printings as guarded walks

A printing keeps the lists and dicts that it is in the middle of. It goes through tuples and bound
methods without a guard, and writes everything else at once: code objects, cells and functions are
named and not entered.

* `Store.printing` — what is done at each value.
* `Store.prints_printing` — the same case by case, from which the rest follows.
* `Store.guards_printing` — the guards suffice, so the walk ends.
* `Store.renderWithin_eq` — beyond the number of containers a greater bound changes nothing.
* `Store.solves_printing` — the answers are those of `Store.renderWithin`.
-/

namespace Callable

open Walk

/-! ### What is done at a value -/

namespace Printing

open Text (Rope)

/-- All of some values are printed, one after the other, and put together. -/
def items (compose : List Rope → Rope) : List Value → Plan Value Rope
  | [] => .answer (compose [])
  | x :: xs => .visit x fun text => items (fun texts => compose (text :: texts)) xs

theorem mem_of_mentions_items {compose : List Rope → Rope} {xs : List Value} {x : Value}
    (h : (items compose xs).Mentions x) : x ∈ xs := by
  -- each visit adds a text to what `compose` is given
  induction xs generalizing compose with
  | nil => cases h
  | cons y ys ih =>
    cases h with
    | here => exact List.mem_cons_self
    | later h => exact List.mem_cons_of_mem _ (ih h)

theorem eval_items (F : Value → Rope) (compose : List Rope → Rope) (xs : List Value) :
    (items compose xs).eval F = compose (xs.map F) := by
  induction xs generalizing compose with
  | nil => rfl
  | cons x xs ih =>
    rw [items, Plan.eval, ih]
    rfl

end Printing

namespace Store

open Printing in
/-- **A printing, place by place.** Lists and dicts are guarded, and one that is in progress is
elided. -/
def printing (s : Store) : Value → Look Value Container Text.Rope
  | .tuple t => .through (items Rendering.tuple t.items)
  | .method m =>
    .through (.visit m.receiver fun text =>
      .answer (Rendering.method (s.function m.function).qualname text))
  | .list r => .guard (.list r) Rendering.elidedList (items Rendering.list (s.list r))
  | .dict r =>
    .guard (.dict r) Rendering.elidedDict
      (items (fun texts => Rendering.dict ((s.dict r).keys.zip texts)) (s.dict r).values)
  | v => .through (.answer (v.renderBy s (fun _ => .text []) (fun _ => .text [])))

/-- What a printing goes through without a guard and to other values. -/
def IsCompound (v : Value) : Prop := v.kind = .tuple ∨ v.kind = .method

open Printing in
/-- What a printing can come to, case by case. -/
inductive Prints (s : Store) : Value → Look Value Container Text.Rope → Prop
  | tuple (t : Tuple) : Prints s (.tuple t) (.through (items Rendering.tuple t.items))
  | method (m : Method) :
      Prints s (.method m) (.through (.visit m.receiver fun text =>
        .answer (Rendering.method (s.function m.function).qualname text)))
  | list (r : ListRef) :
      Prints s (.list r) (.guard (.list r) Rendering.elidedList (items Rendering.list (s.list r)))
  | dict (r : DictRef) :
      Prints s (.dict r) (.guard (.dict r) Rendering.elidedDict
        (items (fun texts => Rendering.dict ((s.dict r).keys.zip texts)) (s.dict r).values))
  /-- Of other values it makes no difference how lists and dicts are printed. -/
  | atom {v : Value} (h : ∀ list dict, v.renderBy s list dict =
        v.renderBy s (fun _ => .text []) (fun _ => .text [])) :
      Prints s v (.through (.answer (v.renderBy s (fun _ => .text []) (fun _ => .text []))))

theorem prints_printing (s : Store) (v : Value) : s.Prints v (s.printing v) := by
  cases v with
  | tuple t => exact .tuple t
  | method m => exact .method m
  | list r => exact .list r
  | dict r => exact .dict r
  | bool b => cases b <;> exact .atom fun _ _ => rfl
  | _ => exact .atom fun _ _ => rfl

end Store

/-- The lists and dicts in progress, as a set. -/
def Enclosing.containers (e : Enclosing) : Finset Container :=
  (e.lists.map Container.list ++ e.dicts.map Container.dict).toFinset

namespace Enclosing

variable (e : Enclosing)

theorem list_mem_containers {e : Enclosing} {r : ListRef} :
    .list r ∈ e.containers ↔ r ∈ e.lists := by
  simp [containers]

theorem dict_mem_containers {e : Enclosing} {r : DictRef} :
    .dict r ∈ e.containers ↔ r ∈ e.dicts := by
  simp [containers]

theorem containers_addList (r : ListRef) :
    (e.addList r).containers = insert (.list r) e.containers := by
  rw [containers, addList, List.map_cons, List.cons_append, List.toFinset_cons]
  rfl

theorem containers_addDict (r : DictRef) :
    (e.addDict r).containers = insert (.dict r) e.containers := by
  ext c
  cases c <;> simp [containers, addDict]

end Enclosing

namespace Store

variable {s : Store}

/-- **The guards of a printing suffice.** -/
theorem guards_printing (s : Store) (roots : List Value) :
    Guards s.printing (s.Known roots) (s.containers roots) Value.depth (s.nesting roots) where
  depth_le h := h.depth_le
  through := by
    intro v plan x hv hlook hx
    have hcases := s.prints_printing v
    rw [hlook] at hcases
    cases hcases with
    | tuple t => exact hv.of_tuple (Printing.mem_of_mentions_items hx)
    | method m =>
      -- a bound method has one visit, that of its receiver
      cases hx with
      | here => exact hv.of_receiver
      | later h => cases h
    | atom => cases hx
  key_mem := by
    intro v key again plan hv hlook
    have hcases := s.prints_printing v
    rw [hlook] at hcases
    cases hcases with
    -- only lists and dicts have guards
    | list r => exact hv.list_mem_containers
    | dict r => exact hv.dict_mem_containers
  inside := by
    intro v key again plan x _ hlook hx
    have hcases := s.prints_printing v
    rw [hlook] at hcases
    cases hcases with
    | list r => exact .of_list (Printing.mem_of_mentions_items hx)
    | dict r => exact .of_dict (Printing.mem_of_mentions_items hx)

/-- What a printing goes through are tuples and bound methods. -/
theorem isCompound_of_mentions {v x : Value} {plan : Plan Value Text.Rope}
    (hlook : s.printing v = .through plan) (hx : plan.Mentions x) : IsCompound v := by
  have hcases := s.prints_printing v
  rw [hlook] at hcases
  cases hcases with
  | tuple t => exact .inl rfl
  | method m => exact .inr rfl
  | atom => cases hx

/-- The number of containers that have not been entered. -/
def containersLeft (s : Store) (e : Enclosing) : Nat :=
  ((List.range s.lists.size).map Ref.mk).countP (fun r => !e.lists.contains r) +
    ((List.range s.dicts.size).map Ref.mk).countP (fun r => !e.dicts.contains r)

theorem containersLeft_none (s : Store) : s.containersLeft .none + 1 = s.containerBound := by
  simp [containersLeft, Enclosing.none, containerBound]

theorem containersLeft_addList_le (s : Store) (e : Enclosing) (r : ListRef) :
    s.containersLeft (e.addList r) ≤ s.containersLeft e := by
  refine Nat.add_le_add_right (List.countP_mono_left fun q _ hq => ?_) _
  simp_all [Enclosing.addList]

theorem containersLeft_addDict_le (s : Store) (e : Enclosing) (r : DictRef) :
    s.containersLeft (e.addDict r) ≤ s.containersLeft e := by
  refine Nat.add_le_add_left (List.countP_mono_left fun q _ hq => ?_) _
  simp_all [Enclosing.addDict]

theorem containersLeft_addList {e : Enclosing} {r : ListRef} (hr : r.index < s.lists.size)
    (h : r ∉ e.lists) : s.containersLeft (e.addList r) < s.containersLeft e := by
  have hmem : r ∈ (List.range s.lists.size).map (Ref.mk : Nat → ListRef) :=
    List.mem_map.2 ⟨r.index, List.mem_range.2 hr, rfl⟩
  refine Nat.add_lt_add_right (countP_lt (fun q hq => ?_) hmem ?_ ?_) _
  · simp_all [Enclosing.addList]
  · simpa using h
  · simp [Enclosing.addList]

theorem containersLeft_addDict {e : Enclosing} {r : DictRef} (hr : r.index < s.dicts.size)
    (h : r ∉ e.dicts) : s.containersLeft (e.addDict r) < s.containersLeft e := by
  have hmem : r ∈ (List.range s.dicts.size).map (Ref.mk : Nat → DictRef) :=
    List.mem_map.2 ⟨r.index, List.mem_range.2 hr, rfl⟩
  refine Nat.add_lt_add_left (countP_lt (fun q hq => ?_) hmem ?_ ?_) _
  · simp_all [Enclosing.addDict]
  · simpa using h
  · simp [Enclosing.addDict]

/-- Printings with room for all containers that are left agree. -/
theorem renderWithin_eq {k k' : Nat} {e : Enclosing} (hk : s.containersLeft e < k)
    (hk' : s.containersLeft e < k') : s.renderWithin k e = s.renderWithin k' e := by
  -- on one of the bounds; the other is large as well, so neither of them is zero
  induction k generalizing k' e with
  | zero => omega
  | succ k ih =>
    obtain ⟨k', rfl⟩ : ∃ m, k' = m + 1 := ⟨k' - 1, by omega⟩
    unfold renderWithin
    -- one layer is printed alike, so what matters is how it prints the lists and the dicts in it
    congr 1
    · funext r
      by_cases hr : r ∈ e.lists
      · rw [if_pos (List.contains_iff_mem.2 hr), if_pos (List.contains_iff_mem.2 hr)]
      congr 2
      rcases Nat.lt_or_ge r.index s.lists.size with hlt | hge
      · have hless := containersLeft_addList hlt hr
        rw [ih (by omega) (by omega : _ < k')]
      · -- a list that was never made is empty
        rw [list_eq_nil hge]
        rfl
    · funext r
      by_cases hr : r ∈ e.dicts
      · rw [if_pos (List.contains_iff_mem.2 hr), if_pos (List.contains_iff_mem.2 hr)]
      congr 3
      rcases Nat.lt_or_ge r.index s.dicts.size with hlt | hge
      · have hless := containersLeft_addDict hlt hr
        rw [ih (by omega) (by omega : _ < k')]
      · rw [dict_eq_empty hge]
        rfl

/-- The text of a printing inside these containers. -/
def renderIn (s : Store) (e : Enclosing) (v : Value) : Text.Rope :=
  s.renderWithin (s.containersLeft e + 1) e v

/-- There is room for one layer more than there has to be. -/
theorem renderIn_eq (s : Store) (e : Enclosing) (v : Value) :
    s.renderIn e v = v.renderBy s
      (fun r =>
        if e.lists.contains r then Rendering.elidedList
        else Rendering.list ((s.list r).map (s.renderIn (e.addList r))))
      (fun r =>
        if e.dicts.contains r then Rendering.elidedDict
        else Rendering.dict ((s.dict r).map (s.renderIn (e.addDict r))).entries) := by
  -- all bounds with room enough agree, so those below can be taken to fit what is in progress there
  have hmore : s.renderWithin (s.containersLeft e + 1) e =
      s.renderWithin (s.containersLeft e + 2) e :=
    renderWithin_eq (Nat.lt_succ_self _) (by omega)
  have hlist (r : ListRef) : s.renderWithin (s.containersLeft e + 1) (e.addList r) =
      s.renderIn (e.addList r) :=
    renderWithin_eq (Nat.lt_succ_of_le (s.containersLeft_addList_le e r)) (Nat.lt_succ_self _)
  have hdict (r : DictRef) : s.renderWithin (s.containersLeft e + 1) (e.addDict r) =
      s.renderIn (e.addDict r) :=
    renderWithin_eq (Nat.lt_succ_of_le (s.containersLeft_addDict_le e r)) (Nat.lt_succ_self _)
  rw [renderIn, hmore, renderWithin]
  simp only [hlist, hdict]

theorem renderItemsBy_eq_map (list : ListRef → Text.Rope) (dict : DictRef → Text.Rope)
    (xs : List Value) :
    Value.renderItemsBy s list dict xs = xs.map (Value.renderBy s list dict) := by
  induction xs with
  | nil => rfl
  | cons x xs ih => rw [Value.renderItemsBy, List.map_cons, ih]

/-- The names of a dict with the printed values are the printed entries. -/
theorem zip_keys_map_values (t : Table Value) (F : Value → Text.Rope) :
    t.keys.zip (t.values.map F) = (t.map F).entries := by
  -- over the list of entries, as a table gives no induction
  have inEntries (es : List (String × Value)) :
      (es.map Prod.fst).zip ((es.map Prod.snd).map F) = es.map fun e => (e.1, F e.2) := by
    induction es with
    | nil => rfl
    | cons e es ih => rw [List.map_cons, List.map_cons, List.map_cons, List.zip_cons_cons, ih]; rfl
  exact inEntries t.entries

/-- **The answers of printings.** -/
theorem solves_printing (s : Store) : Solves s.printing Enclosing.containers s.renderIn where
  through := by
    intro e v plan hlook
    have hcases := s.prints_printing v
    rw [hlook] at hcases
    cases hcases with
    | tuple t =>
      rw [Printing.eval_items]
      exact congrArg Rendering.tuple (renderItemsBy_eq_map _ _ t.items)
    | method m => rfl
    | atom h => exact h _ _
  met := by
    intro e v key again plan hlook hkey
    have hcases := s.prints_printing v
    rw [hlook] at hcases
    cases hcases with
    | list r =>
      -- it is in progress, so it is elided
      rw [renderIn_eq]
      exact if_pos (List.contains_iff_mem.2 (Enclosing.list_mem_containers.1 hkey))
    | dict r =>
      rw [renderIn_eq]
      exact if_pos (List.contains_iff_mem.2 (Enclosing.dict_mem_containers.1 hkey))
  entered := by
    intro e v key again plan hlook hkey
    have hcases := s.prints_printing v
    rw [hlook] at hcases
    cases hcases with
    | list r =>
      -- it is not, so it is printed with itself in progress
      have hmem : ¬e.lists.contains r = true := fun h =>
        hkey (Enclosing.list_mem_containers.2 (List.contains_iff_mem.1 h))
      refine ⟨e.addList r, e.containers_addList r, ?_⟩
      rw [renderIn_eq, Printing.eval_items]
      exact if_neg hmem
    | dict r =>
      have hmem : ¬e.dicts.contains r = true := fun h =>
        hkey (Enclosing.dict_mem_containers.2 (List.contains_iff_mem.1 h))
      refine ⟨e.addDict r, e.containers_addDict r, ?_⟩
      rw [renderIn_eq, Printing.eval_items, zip_keys_map_values]
      exact if_neg hmem

/-- With nothing around it a value is printed as programs see it. -/
theorem toList_renderIn_none (s : Store) (v : Value) :
    (s.renderIn .none v).toList = s.render v := by
  rw [renderIn, containersLeft_none, render]

end Store

end Callable
