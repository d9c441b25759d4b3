import Callable.Proofs.Liveness.Scene

/-!
# What is gone stays gone

An object that nothing holds any more may be in the store for some time, since letting go of it can be
put off. Then it may have handles on objects that are in use, and a cycle of such objects have handles
on each other, but nothing that is in use has a handle on one of them. This is what no step changes: a
step works with what the program can get at, with what it finds there and with what it makes, and
none of this is an object that is about to go.

* `Scene.Lasts` — the object is not about to go. It is a realm, as it is handed on from objects to
  what they contain (`Sound.realm_lasts`).
* `Scene.Sound.step_draws` — a step does not get out of the realm.
* `Scene.Sound.isAlive_settled_of_step` — what was there before a step and is not let go after it was
  not about to go before it.
* `Scene.Sound.gone_of_run` — a function that is gone is gone at all later points of the run.
-/

namespace Callable

open Relation

/-- An operation in a program is a step of a run. -/
theorem Store.Work.step {s s' : Store} {Has : Value → Prop} {results : List Value}
    (h : s.Work Has results s') : s.Step s' := by
  cases h with
  | newStr text => exact .newStr s text
  | @newTuple items _ => exact .newTuple s items
  | @newCode name consts freeVars _ => exact .newCode s name consts freeVars
  | @newMethod f receiver _ _ => exact .newMethod s f receiver
  | @newList items _ => exact .newList s items
  | @newDict t _ => exact .newDict s t
  | @newCell c _ => exact .newCell s c
  | @makeFunction code globals qualname _ _ => exact .makeFunction s code globals qualname
  | @makeClosure code globals qualname cells _ _ _ => exact .makeClosure s code globals qualname cells
  | @setList r items _ _ => exact .setList s r items
  | @setDict r t _ _ => exact .setDict s r t
  | @setCell r c _ _ => exact .setCell s r c
  | getAttr _ h => exact .getAttr h
  | getMethodAttr _ h => exact .getMethodAttr h
  | setAttr _ _ h => exact .setAttr h
  | delAttr _ h => exact .delAttr h
  | setClosure _ _ h => exact .setClosure h
  | @setDefaults f t _ _ => exact .setDefaults s f t
  | @setKwDefaults f r _ _ => exact .setKwDefaults s f r
  | @setAnnotations f r _ _ => exact .setAnnotations s f r
  | @bind f receiver _ _ => exact .bind s f receiver
  | toTuple _ h => exact .toTuple h

namespace Scene

variable {S S' : Scene} {o : Object} {v : Value}

/-- **The object is not about to go**: if it is in the store, it is so when everything is let go that
nothing holds. -/
def Lasts (S : Scene) (o : Object) : Prop :=
  S.store.isAlive o = true → S.settled.isAlive o = true

theorem weak_take (S : Scene) (vs : List Value) : (S.take vs).weak = S.weak := by
  rw [take]
  split <;> rfl

/-- The steps of a program are steps of its store. -/
theorem Step.store_step (h : S.Step S') : S.store.Step S'.store := by
  cases h with
  | work hwork =>
    rw [store_take]
    exact hwork.step
  | enter => exact .newDict S.store .empty
  | leave | upgrade =>
    rw [store_take]
    exact .rest S.store
  | keep | downgrade => exact .rest S.store
  | settle => exact .release S.store S.roots

/-- Numbers that were given out stay so. -/
theorem size_le_of_run (h : ReflTransGen Step S S') :
    S.store.functions.size ≤ S'.store.functions.size := by
  induction h with
  | refl => exact Nat.le_refl _
  | tail _ hstep ih => exact Nat.le_trans ih hstep.store_step.size_le

namespace Sound

/-- What the program can get at is not let go. -/
theorem isAlive_settled_of_reaches (h : S.Sound) (ho : S.store.Reaches S.roots o) :
    S.settled.isAlive o = true := by
  -- the objects that are reached hold each other up, so none of them is the first to go
  refine Store.isAlive_release_of_supported (P := S.store.Reaches S.roots) ?_ ho
  intro x hx
  refine ⟨h.store.isAlive_of_reaches h.roots hx, ?_⟩
  -- it is held by a root, or by what comes before it on the way
  obtain ⟨v, hv, o₀, ho₀, hpath⟩ := hx
  rcases ReflTransGen.cases_tail hpath with rfl | ⟨y, hy, hyx⟩
  · exact .inl ⟨v, hv, ho₀⟩
  · exact .inr ⟨y, ⟨v, hv, o₀, ho₀, hy⟩, hyx⟩

theorem within_lasts_of_has (h : S.Sound) (hv : S.Has v) : v.Within S.Lasts :=
  fun o ho _ => h.isAlive_settled_of_reaches (hv o (Value.holds_iff.2 ho))

/-- **Objects that last hold objects that last**, and new objects do. -/
theorem realm_lasts (h : S.Sound) (s' : Store) : S.store.Realm s' S.Lasts where
  closed {o} ho v hv := by
    -- what contains something is in the store, so it is not let go, and keeps its contents
    have halive : S.settled.isAlive o = true := ho (Store.isAlive_of_mem_contents hv)
    have hcontents : v ∈ S.settled.contents o := by
      rw [Scene.settled, Store.contents_release halive]
      exact hv
    exact fun o' ho' _ => h.settled o v hcontents o' ho'
  made hdead _ halive := by
    -- a new object was not in the store, so it need not last there
    rw [hdead] at halive
    cases halive

/-- What the program keeps lasts. -/
theorem within_lasts_of_root (h : S.Sound) (hv : v ∈ S.roots) : v.Within S.Lasts :=
  h.within_lasts_of_has (.of_root hv)

/-- More is kept than before. -/
theorem draws_take (h : S.Sound) {store : Store} {results : List Value}
    (hdraws : S.store.Draws store S.Lasts results) :
    S.store.Draws (Scene.take { S with store } results).store S.Lasts
      (Scene.take { S with store } results).roots where
  keeps := by
    rw [store_take]
    exact hdraws.keeps
  contents := by
    rw [store_take]
    exact hdraws.contents
  results v hv := by
    rcases mem_roots_take.1 hv with hnew | hold
    · exact hdraws.results v hnew
    · exact h.within_lasts_of_root hold

/-- The values of a request are parts of the function, the arguments and the new dict. -/
theorem within_lasts_of_request (h : S.Sound) {callee : Value} {args full : List Value}
    {kwargs : Table Value} {f : FunctionRef} {locals : DictRef}
    (htarget : callee.target? args = some (f, full)) (hcallee : S.Has callee)
    (hargs : ∀ v ∈ args, S.Has v) (hkwargs : ∀ v ∈ kwargs.values, S.Has v)
    (hlocals : S.Lasts (.dict locals)) :
    ∀ v ∈ ((S.store.function f).request locals full kwargs).values, v.Within S.Lasts := by
  -- a bound method has its function, and it passes on its receiver
  have hpassed : (Value.function f).Within S.Lasts ∧ S.store.functions.isAlive f = true ∧
      ∀ v ∈ full, v.Within S.Lasts := by
    have hwithin := h.within_lasts_of_has hcallee
    have hlive := h.live_of_has hcallee
    have hgiven : ∀ v ∈ args, v.Within S.Lasts := fun v hv => h.within_lasts_of_has (hargs v hv)
    cases callee with
    | function g =>
      cases htarget
      exact ⟨hwithin, hlive _ List.mem_cons_self, hgiven⟩
    | method m =>
      cases htarget
      exact ⟨hwithin.function_of_method, hlive _ List.mem_cons_self,
        List.forall_mem_cons.2 ⟨hwithin.receiver_of_method, hgiven⟩⟩
    | _ => cases htarget
  obtain ⟨hf, halive, hfull⟩ := hpassed
  have hfield {w : Value} (hw : w ∈ (S.store.function f).contents) : w.Within S.Lasts :=
    (h.realm_lasts S.store).within_field halive (hf _ List.mem_cons_self) hw
  intro v hv
  simp only [Request.values, FunctionObject.request, List.mem_append, List.mem_cons,
    List.not_mem_nil, or_false, List.mem_map] at hv
  -- code, globals, locals and the defaults of both sorts, then the arguments, and the cells
  rcases hv with (((rfl | rfl | rfl | rfl | rfl) | hv) | hv) | ⟨r, hr, rfl⟩
  · exact hfield (FunctionObject.mem_contents.2 (by simp))
  · exact hfield (FunctionObject.mem_contents.2 (by simp))
  · exact Value.within_of_handles_eq_singleton rfl hlocals
  · exact hfield (FunctionObject.mem_contents.2 (by simp))
  · exact hfield (FunctionObject.mem_contents.2 (by simp))
  · exact hfull v hv
  · exact h.within_lasts_of_has (hkwargs v hv)
  · exact hfield (List.mem_append_right _ (List.mem_map_of_mem hr))

/-- **A step works with what lasts.** If it is not the one that lets go of things, whatever gets into
an object by it, and whatever the program keeps after it, lasts or is new. -/
theorem step_draws (h : S.Sound) (hstep : S.Step S') :
    S' = { S with store := S.settled } ∨ S.store.Draws S'.store S.Lasts S'.roots := by
  cases hstep with
  | settle => exact .inl rfl
  | work hwork =>
    have hdraws := hwork.draws (fun v hv => h.live_of_has hv) (h.realm_lasts _)
      fun v hv => h.within_lasts_of_has hv
    exact .inr (h.draws_take hdraws)
  | @keep registers calls weak hcallees hkept hweak =>
    -- the store is the same; what the program keeps it had, or had got at
    refine .inr (.refl fun v hv => ?_)
    rcases List.mem_append.1 hv with hv | hv
    · exact h.within_lasts_of_has (hkept v (List.mem_append_left _ hv))
    · obtain ⟨c, hc, hv⟩ := List.mem_flatMap.1 hv
      rcases List.mem_cons.1 hv with rfl | hv
      · -- the calls in flight are the same, so the callee is kept already
        have hcallee : c.callee ∈ S.calls.map InFlight.callee := hcallees ▸ List.mem_map_of_mem hc
        obtain ⟨c', hc', heq⟩ := List.mem_map.1 hcallee
        rw [← heq]
        exact h.within_lasts_of_root
          (List.mem_append_right _ (List.mem_flatMap.2 ⟨c', hc', List.mem_cons_self⟩))
      · exact h.within_lasts_of_has
          (hkept v (List.mem_append_right _ (List.mem_flatMap.2 ⟨c, hc, hv⟩)))
  | @enter callee args full kwargs f htarget hcallee hargs hkwargs =>
    -- the dict for the locals is made before the request that names it
    have hdict := (h.realm_lasts (S.store.newDict .empty).2).draws_newDict (t := .empty) nofun
    have hlocals : S.Lasts (.dict (S.store.newDict .empty).1) :=
      hdict.results _ List.mem_cons_self _ List.mem_cons_self
    have hrequest := h.within_lasts_of_request htarget hcallee hargs hkwargs hlocals
    refine .inr ⟨hdict.keeps, hdict.contents, fun v hv => ?_⟩
    simp only [Scene.roots, List.flatMap_cons, List.mem_append, List.mem_cons] at hv
    rcases hv with hv | (rfl | hv) | hv
    · exact h.within_lasts_of_root (List.mem_append_left _ hv)
    · exact h.within_lasts_of_has hcallee
    · exact hrequest v hv
    · exact h.within_lasts_of_root (List.mem_append_right _ hv)
  | @leave c calls result hcalls hresult =>
    -- one call less: fewer roots, and the result was got at
    refine .inr ?_
    rw [store_take]
    refine .refl fun v hv => ?_
    rcases mem_roots_take.1 hv with hv | hv
    · exact h.within_lasts_of_has (hresult v (Option.mem_toList.1 hv))
    · refine h.within_lasts_of_root ?_
      rcases List.mem_append.1 hv with hv | hv
      · exact List.mem_append_left _ hv
      · refine List.mem_append_right _ ?_
        rw [hcalls, List.flatMap_cons]
        exact List.mem_append_right _ hv
  | downgrade => exact .inr (.refl fun v hv => h.within_lasts_of_root hv)
  | @upgrade w f hw hup =>
    -- a reference gives its function only if that is not about to go
    have halive : S.settled.isAlive (.function f) = true := by
      rw [WeakRef.eq_target_of_upgrade? hup]
      change w.isAlive S.settled = true
      rw [← WeakRef.upgrade?_isSome, hup]
      rfl
    refine .inr (h.draws_take (.refl (List.forall_mem_singleton.2 ?_)))
    exact Value.within_of_handles_eq_singleton rfl fun _ => halive

end Sound

/-- **Nothing is saved that was about to go.** The objects that are left after a step hold each other
up before it already, together with those that last. -/
theorem isAlive_settled_of_draws (h : S.store.Draws S'.store S.Lasts S'.roots)
    (ho : S.store.isAlive o = true) (ho' : S'.settled.isAlive o = true) :
    S.settled.isAlive o = true := by
  -- those that last, and those that are there before and after: a set that holds itself up
  let P : Object → Prop := fun x =>
    S.settled.isAlive x = true ∨ S.store.isAlive x = true ∧ S'.settled.isAlive x = true
  -- what has been let stay is held by a root or by something else that was let stay
  have hlasting {x : Object} (hx : S.settled.isAlive x = true) : S.store.isAlive x = true ∧
      ((∃ v ∈ S.roots, v.Holds x) ∨ ∃ y, P y ∧ S.store.Holds y x) := by
    refine ⟨Store.isAlive_of_isAlive_release hx, ?_⟩
    refine (Store.mem_held.1 (Store.mem_held_of_isAlive_release _ _ hx)).imp ?_ ?_
    · rintro ⟨v, hv, hvx⟩
      exact ⟨v, hv, Value.holds_iff.2 hvx⟩
    · rintro ⟨y, hy, hyx⟩
      rw [Store.handles_release hy] at hyx
      exact ⟨y, .inl hy, Store.holds_iff.2 hyx⟩
  have hsupported : S.store.Supported S.roots P := by
    rintro x (hx | ⟨hx, hx'⟩)
    · exact hlasting hx
    · by_cases hlast : S.settled.isAlive x = true
      · exact hlasting hlast
      · -- what holds it after the step was not put there by the step
        have hnot {v : Value} (hv : v.Within S.Lasts) (hvx : x ∈ v.handles) : False :=
          hlast (hv x hvx hx)
        refine ⟨hx, .inr ?_⟩
        rcases Store.mem_held.1 (Store.mem_held_of_isAlive_release _ _ hx') with
          ⟨v, hv, hvx⟩ | ⟨y, hy, hyx⟩
        · exact (hnot (h.results v hv) hvx).elim
        · rw [Store.handles_release hy] at hyx
          obtain ⟨v, hv, hvx⟩ := Store.mem_handles.1 hyx
          rcases h.contents y v hv with hold | hnew
          · have hyx' : S.store.Holds y x := Store.holds_iff.2 (Store.mem_handles.2 ⟨v, hold, hvx⟩)
            exact ⟨y, .inr ⟨hyx'.isAlive, hy⟩, hyx'⟩
          · exact (hnot hnew hvx).elim
  exact Store.isAlive_release_of_supported hsupported (.inr ⟨ho, ho'⟩)

namespace Sound

/-- What was there before a step and is not let go after it lasted before it. -/
theorem isAlive_settled_of_step (h : S.Sound) (hstep : S.Step S') (ho : S.store.isAlive o = true)
    (ho' : S'.settled.isAlive o = true) : S.settled.isAlive o = true := by
  rcases h.step_draws hstep with rfl | hdraws
  · exact (Store.isAlive_release_release S.store S.roots o).symm.trans ho'
  · exact isAlive_settled_of_draws hdraws ho ho'

/-- **Death is final.** A function that was made and is gone is gone at all later points of the
run. -/
theorem gone_of_run (h : S.Sound) {f : FunctionRef} (hmade : f.index < S.store.functions.size)
    (hgone : S.settled.isAlive (.function f) = false) (hrun : ReflTransGen Step S S') :
    S'.settled.isAlive (.function f) = false := by
  have hsound {T : Scene} (hT : ReflTransGen Step S T) : T.Sound := by
    induction hT with
    | refl => exact h
    | tail _ hstep ih => exact ih.step hstep
  -- on the run, backwards in each step: what is alive after it was alive before it
  induction hrun with
  | refl => exact hgone
  | @tail T T' hT hstep ih =>
    by_contra halive
    rw [Bool.not_eq_false] at halive
    -- it would have been in the store before the step, as its number was given out
    have hmadeT : f.index < T.store.functions.size := Nat.lt_of_lt_of_le hmade (size_le_of_run hT)
    obtain ⟨fn', hfn'⟩ := Option.isSome_iff_exists.1 (Store.isAlive_of_isAlive_release halive)
    obtain ⟨fn, hfn, -⟩ := hstep.store_step.exists_revised hmadeT hfn'
    have hbefore : T.store.isAlive (.function f) = true := Option.isSome_iff_exists.2 ⟨fn, hfn⟩
    have hlast := (hsound hT).isAlive_settled_of_step hstep hbefore halive
    rw [ih] at hlast
    cases hlast

end Sound

/-- Weak references are to functions that were made. -/
theorem Reachable.made_of_weak (h : S.Reachable) :
    ∀ w ∈ S.weak, w.target.index < S.store.functions.size := by
  -- no step takes a number back, so only a step that makes a reference has to be looked at
  induction h with
  | refl => exact nofun
  | @tail S S' hrun hstep ih =>
    have hS : S.Sound := Reachable.sound hrun
    -- a reference that there was is to a function that there was
    have hold {w : WeakRef} (hw : w ∈ S.weak) : w.target.index < S'.store.functions.size :=
      Nat.lt_of_lt_of_le (ih w hw) hstep.store_step.size_le
    intro w hw
    cases hstep with
    | work | leave | upgrade =>
      rw [weak_take] at hw
      exact hold hw
    | keep _ _ hweak => exact hold (hweak w hw)
    | downgrade hf =>
      rcases List.mem_cons.1 hw with rfl | hw
      · exact Heap.index_lt_of_isAlive (Value.live_function_iff.1 (hS.live_of_has hf))
      · exact hold hw
    | enter | settle => exact hold hw

end Scene

end Callable
