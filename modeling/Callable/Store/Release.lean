import Callable.Store.Tally
import Callable.Value.Survey

/-!
# Releasing objects

An object lives as long as something holds it: a value kept by the program around (a root), or
another object that lives. When the last handle goes, the object goes, and with it everything that
only it held. Objects that hold each other in a circle keep each other alive.

`Store.release` counts the handles on every object and lets go of an object on which there are none.
The handles of that object are then counted no more, so other objects may follow it.

* `Store.mem_held` — what is held, by a root or by an object that is alive.
* `Store.isAlive_release_iff` — of the objects that were alive, those are left that are held in the
  end, by a root or by something that is left.
* `Store.mem_held_of_isAlive_release`, `Store.isAlive_release_of_mem` — so what is left is held, and
  what a root holds stays.
* `Store.isAlive_of_isAlive_release` — nothing comes back to life.
-/

namespace Callable

namespace Store

/-! ### Letting go of one object -/

/-- Let go of an object. -/
def remove (s : Store) : Object → Store
  | .list r => { s with lists := s.lists.remove r }
  | .dict r => { s with dicts := s.dicts.remove r }
  | .cell r => { s with cells := s.cells.remove r }
  | .function r => { s with functions := s.functions.remove r }

theorem isAlive_remove (s : Store) (o o' : Object) :
    (s.remove o).isAlive o' = (o' != o && s.isAlive o') := by
  cases o <;> cases o' <;> simp [remove, isAlive, Heap.isAlive_remove, bne, BEq.beq]

/-- The others contain what they contained. -/
theorem contents_remove (s : Store) (o o' : Object) :
    (s.remove o).contents o' = if o' = o then [] else s.contents o' := by
  cases o <;> cases o' <;> simp only [remove, contents, Heap.get?_remove] <;> grind

theorem alive_remove (s : Store) (o : Object) : (s.remove o).alive = s.alive.filter (· != o) := by
  have all {α : Type} (l : List α) : l.filter (fun _ => true) = l :=
    List.filter_eq_self.2 fun _ _ => rfl
  cases o <;>
    simp [remove, alive, Heap.alive_remove, List.filter_map, Function.comp_def, bne, BEq.beq, all]

theorem nodup_alive (s : Store) : s.alive.Nodup := by
  have hl := s.lists.nodup_alive
  have hd := s.dicts.nodup_alive
  have hc := s.cells.nodup_alive
  have hf := s.functions.nodup_alive
  simp only [List.Nodup] at hl hd hc hf
  -- within a sort the numbers differ, and objects of two sorts are different anyway
  simp only [alive, List.Nodup, List.pairwise_append, List.pairwise_map]
  grind

/-- The objects that were alive are the one and those that are left. -/
theorem alive_perm_remove {s : Store} {o : Object} (h : s.isAlive o = true) :
    s.alive.Perm (o :: (s.remove o).alive) := by
  rw [alive_remove, ← s.nodup_alive.erase_eq_filter]
  exact List.perm_cons_erase (mem_alive.2 h)

/-! ### What is held -/

/-- The objects that an object holds. -/
def handles (s : Store) (o : Object) : List Object := Value.allHandles (s.contents o)

/-- Everything that is held, by the roots or by an object that is alive. -/
def held (s : Store) (roots : List Value) : List Object :=
  Value.allHandles roots ++ s.alive.flatMap s.handles

/-- An object holds what the values in it hold. -/
theorem mem_handles {s : Store} {o o' : Object} :
    o' ∈ s.handles o ↔ ∃ v ∈ s.contents o, o' ∈ v.handles :=
  Value.mem_allHandles

/-- What is held is held by a root or by an object that is alive. -/
theorem mem_held {s : Store} {roots : List Value} {o : Object} :
    o ∈ s.held roots ↔
      (∃ v ∈ roots, o ∈ v.handles) ∨ ∃ o', s.isAlive o' = true ∧ o ∈ s.handles o' := by
  simp [held, Value.mem_allHandles, mem_alive]

/-! ### Releasing -/

/-- Let go of those of the given objects on which there are no handles by the tally, and of what
loses its last handle by that. -/
def cascade (s : Store) (t : Tally) : List Object → Store
  | [] => s
  | o :: rest =>
    if h : s.isAlive o = true ∧ t.count o = 0 then
      have : (s.remove o).alive.length < s.alive.length := by
        simp [(alive_perm_remove h.1).length_eq]
      let handles := s.handles o
      (s.remove o).cascade (t.discount handles) (handles ++ rest)
    else s.cascade t rest
termination_by todo => (s.alive.length, todo.length)

/-- Let go of the objects that nothing holds, until every object that is left is held. -/
def release (s : Store) (roots : List Value) : Store :=
  s.cascade (.ofList s (s.held roots)) s.alive

/-- Letting go of an object takes away its handles. -/
theorem held_perm_remove {s : Store} {o : Object} (h : s.isAlive o = true) (roots : List Value) :
    (s.held roots).Perm (s.handles o ++ (s.remove o).held roots) := by
  -- the others hold what they held
  have hrest : (s.remove o).alive.flatMap (s.remove o).handles =
      (s.remove o).alive.flatMap s.handles := by
    refine congrArg List.flatten (List.map_congr_left fun o' ho' => ?_)
    have : o' ≠ o := by
      rintro rfl
      simp [mem_alive, isAlive_remove] at ho'
    simp [handles, contents_remove, this]
  have hperm := (alive_perm_remove h).flatMap_right s.handles
  rw [List.flatMap_cons] at hperm
  rw [held, held, hrest]
  exact (hperm.append_left _).trans (List.perm_append_comm_assoc ..)

/-- What holds between two steps of a cascade: the tally counts the handles on what is alive, and
of that everything on which there are none is still to be looked at. -/
structure Tallied (s : Store) (roots : List Value) (t : Tally) (todo : List Object) : Prop where
  admits : ∀ o, s.isAlive o = true → t.admits o
  count_eq : ∀ o, s.isAlive o = true → t.count o = (s.held roots).count o
  mem_todo : ∀ o, s.isAlive o = true → t.count o = 0 → o ∈ todo

theorem tallied_start (s : Store) (roots : List Value) :
    Tallied s roots (.ofList s (s.held roots)) s.alive where
  admits _ h := Tally.admits_ofList _ h
  count_eq _ h := Tally.count_ofList _ h
  mem_todo _ h _ := mem_alive.2 h

theorem Tallied.remove {s : Store} {roots : List Value} {t : Tally} {o : Object}
    {rest : List Object} (i : Tallied s roots t (o :: rest)) (h : s.isAlive o = true) :
    Tallied (s.remove o) roots (t.discount (s.handles o)) (s.handles o ++ rest) := by
  have alive {o' : Object} (h' : (s.remove o).isAlive o' = true) :
      o' ≠ o ∧ s.isAlive o' = true := by
    simpa [isAlive_remove] using h'
  have count (o' : Object) := (held_perm_remove h roots).count_eq o'
  -- the handles that go are discounted, and what may have lost its last handle is put on the list
  refine ⟨fun o' h' => ?_, fun o' h' => ?_, fun o' h' hc => ?_⟩
  · exact (Tally.admits_discount ..).2 (i.admits o' (alive h').2)
  · rw [Tally.count_discount _ (i.admits o' (alive h').2), i.count_eq o' (alive h').2, count,
      List.count_append]
    omega
  · rw [Tally.count_discount _ (i.admits o' (alive h').2)] at hc
    -- no handle is left: it was held by what has gone, or it was on the list before
    by_cases hm : o' ∈ s.handles o
    · exact List.mem_append_left _ hm
    · rw [List.count_eq_zero.2 hm] at hc
      have := i.mem_todo o' (alive h').2 hc
      exact List.mem_append_right _ ((List.mem_cons.1 this).resolve_left (alive h').1)

theorem Tallied.skip {s : Store} {roots : List Value} {t : Tally} {o : Object} {rest : List Object}
    (i : Tallied s roots t (o :: rest)) (h : ¬(s.isAlive o = true ∧ t.count o = 0)) :
    Tallied s roots t rest where
  admits := i.admits
  count_eq := i.count_eq
  mem_todo o' h' hc := by
    refine (List.mem_cons.1 (i.mem_todo o' h' hc)).resolve_left ?_
    -- the object that is passed over is gone or has a handle
    rintro rfl
    exact h ⟨h', hc⟩

theorem isAlive_of_isAlive_cascade {s : Store} {t : Tally} {todo : List Object} {o : Object}
    (h : (s.cascade t todo).isAlive o = true) : s.isAlive o = true := by
  fun_induction cascade s t todo with
  | case1 => exact h
  | case2 s t o' rest hdead hlt handles ih =>
    have := ih h
    simp only [isAlive_remove, Bool.and_eq_true] at this
    exact this.2
  | case3 s t o' rest hkeep ih => exact ih h

theorem mem_held_of_mem_held_cascade {s : Store} {roots : List Value} {t : Tally}
    {todo : List Object} {o : Object} (h : o ∈ (s.cascade t todo).held roots) :
    o ∈ s.held roots := by
  fun_induction cascade s t todo with
  | case1 => exact h
  | case2 s t o' rest hdead hlt handles ih =>
    exact (held_perm_remove hdead.1 roots).mem_iff.2 (List.mem_append_right _ (ih h))
  | case3 s t o' rest hkeep ih => exact ih h

theorem Tallied.isAlive_cascade_iff {s : Store} {roots : List Value} {t : Tally}
    {todo : List Object} (i : Tallied s roots t todo) {o : Object} (h : s.isAlive o = true) :
    (s.cascade t todo).isAlive o = true ↔ o ∈ (s.cascade t todo).held roots := by
  fun_induction cascade s t todo with
  | case1 s t =>
    -- nothing is left to be looked at, so there is a handle on all that is alive
    have : t.count o ≠ 0 := fun hc => absurd (i.mem_todo o h hc) List.not_mem_nil
    rw [i.count_eq o h] at this
    simpa [h, List.count_eq_zero] using this
  | case2 s t o' rest hdead hlt handles ih =>
    by_cases ho : o = o'
    · subst ho
      -- the object itself goes: nothing held it, and nothing comes to hold it
      have hfree : o ∉ s.held roots := List.count_eq_zero.1 (i.count_eq o h ▸ hdead.2)
      refine iff_of_false (fun h' => ?_) fun h' => ?_
      · simpa [isAlive_remove] using isAlive_of_isAlive_cascade h'
      · exact hfree ((held_perm_remove h roots).mem_iff.2
          (List.mem_append_right _ (mem_held_of_mem_held_cascade h')))
    · exact ih (i.remove hdead.1) (by simp [isAlive_remove, ho, h])
  | case3 s t o' rest hkeep ih => exact ih (i.skip hkeep) h

/-! ### What is left -/

/-- Nothing comes back to life. -/
theorem isAlive_of_isAlive_release {s : Store} {roots : List Value} {o : Object}
    (h : (s.release roots).isAlive o = true) : s.isAlive o = true :=
  isAlive_of_isAlive_cascade h

/-- Of the objects that were alive, those are left that are held in the end. -/
theorem isAlive_release_iff {s : Store} {roots : List Value} {o : Object}
    (h : s.isAlive o = true) :
    (s.release roots).isAlive o = true ↔ o ∈ (s.release roots).held roots :=
  (tallied_start s roots).isAlive_cascade_iff h

/-- What is left is held. -/
theorem mem_held_of_isAlive_release (s : Store) (roots : List Value) {o : Object}
    (h : (s.release roots).isAlive o = true) : o ∈ (s.release roots).held roots :=
  (isAlive_release_iff (isAlive_of_isAlive_release h)).1 h

/-- What a root holds stays. -/
theorem isAlive_release_of_mem {s : Store} {roots : List Value} {o : Object}
    (ho : ∃ v ∈ roots, o ∈ v.handles) (h : s.isAlive o = true) :
    (s.release roots).isAlive o = true :=
  (isAlive_release_iff h).2 (mem_held.2 (.inl ho))

end Store

end Callable
