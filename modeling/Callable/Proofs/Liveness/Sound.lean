import Callable.Proofs.Liveness.Origin

/-!
# Stores without dangling handles

What a count of handles says about an object is worth something only if no handle outlives the object
that it is on. A store is sound if no object in it holds one that is gone.

* `Value.Live` — all handles in the value are on objects that are alive.
* `Store.Sound` — a store in which objects contain such values only.
* `Store.Grown` — what every operation comes to: nothing goes, the store is sound after it, and what
  the operation answers is live. `Sound.grown_of_draws` says so of operations that are given what is
  live.
* `Store.Sound.release` — a store is sound after objects were let go, too, and what the roots hold is
  live still (`Store.live_release`).
* `Store.isAlive_release_of_supported` — objects that hold each other up stay.
-/

namespace Callable

/-- All objects that the value holds are alive. -/
def Value.Live (s : Store) (v : Value) : Prop := ∀ o ∈ v.handles, s.isAlive o = true

namespace Store

/-- **A sound store.** No object holds one that is gone. -/
def Sound (s : Store) : Prop := ∀ o, ∀ v ∈ s.contents o, v.Live s

/-- What holds after an operation: nothing was let go, the store is sound, and some values are
live. -/
structure Grown (s s' : Store) (results : List Value) : Prop where
  keeps : ∀ o, s.isAlive o = true → s'.isAlive o = true
  sound : s'.Sound
  live : ∀ v ∈ results, v.Live s'

end Store

namespace Value

variable {s s' : Store}

theorem Live.mono {v : Value} (h : v.Live s)
    (hkeeps : ∀ o, s.isAlive o = true → s'.isAlive o = true) : v.Live s' :=
  fun o ho => hkeeps o (h o ho)

theorem live_of_handles_eq_nil {v : Value} (h : v.handles = []) : v.Live s :=
  within_of_handles_eq_nil h

/-- A value that holds one object is live if that is alive. -/
theorem live_iff_of_handles_eq_singleton {v : Value} {o : Object} (h : v.handles = [o]) :
    v.Live s ↔ s.isAlive o = true := by
  constructor
  · intro hlive
    refine hlive o ?_
    rw [h]
    exact List.mem_singleton_self o
  · intro halive
    exact within_of_handles_eq_singleton h halive

theorem live_dict_iff {r : DictRef} : (dict r).Live s ↔ s.isAlive (.dict r) = true :=
  live_iff_of_handles_eq_singleton rfl

theorem live_function_iff {r : FunctionRef} :
    (function r).Live s ↔ s.isAlive (.function r) = true :=
  live_iff_of_handles_eq_singleton rfl

end Value

/-! ### Operations -/

namespace Store

variable {s s' : Store}

/-- **Operations keep a store sound** if they are given what is live. To be alive is handed on in a
sound store, and the operation does not get out of it. -/
theorem Sound.grown_of_draws (hs : s.Sound) {Given : Value → Prop} {results : List Value}
    (hlive : ∀ v, Given v → v.Live s)
    (h : ∀ P, s.Realm s' P → (∀ v, Given v → v.Within P) → s.Draws s' P results) :
    s.Grown s' results := by
  -- first of all nothing goes, whatever the realm is
  have hkeeps : ∀ o, s.isAlive o = true → s'.isAlive o = true :=
    (h (fun _ => True) ⟨fun _ _ _ _ _ => trivial, fun _ _ => trivial⟩ fun _ _ _ _ => trivial).keeps
  -- the realm of what is alive after the operation: it is closed, since what was held stays alive
  have hrealm : s.Realm s' fun o => s'.isAlive o = true :=
    ⟨fun _ v hv => (hs _ v hv).mono hkeeps, fun _ halive => halive⟩
  have hdraws := h _ hrealm fun v hv => (hlive v hv).mono hkeeps
  refine ⟨hkeeps, fun o v hv => ?_, hdraws.results⟩
  rcases hdraws.contents o v hv with hold | hnew
  · exact (hs o v hold).mono hkeeps
  · exact hnew

theorem Sound.grown_newDict (hs : s.Sound) {t : Table Value} (h : ∀ v ∈ t.values, v.Live s) :
    s.Grown (s.newDict t).2 [.dict (s.newDict t).1] :=
  hs.grown_of_draws h fun _ hP hentries => hP.draws_newDict hentries

theorem Sound.grown_newFunction (hs : s.Sound) {fn : FunctionObject}
    (h : ∀ v ∈ fn.contents, v.Live s) :
    s.Grown (s.newFunction fn).2 [.function (s.newFunction fn).1] :=
  hs.grown_of_draws h fun _ hP hparts => hP.draws_newFunction hparts

/-! ### What is read from an object -/

/-- What a function that is alive contains is live. -/
theorem Sound.live_field (hs : s.Sound) {f : FunctionRef} (hf : (Value.function f).Live s)
    {v : Value} (hv : v ∈ (s.function f).contents) : v.Live s := by
  rw [← contents_function (Value.live_function_iff.1 hf)] at hv
  exact hs _ v hv

/-- What is got at from live roots is alive. -/
theorem Sound.isAlive_of_reaches (hs : s.Sound) {roots : List Value}
    (hroots : ∀ v ∈ roots, v.Live s) {o : Object} (h : s.Reaches roots o) : s.isAlive o = true := by
  obtain ⟨v, hv, o₀, ho₀, hpath⟩ := h
  -- along the path each object keeps the next one alive
  induction hpath with
  | refl => exact hroots v hv o₀ ho₀.mem_handles
  | tail _ hstep _ =>
    obtain ⟨w, hw, ho⟩ := hstep
    exact hs _ w hw.mem_contents _ ho.mem_handles

/-! ### Letting go -/

/-- Letting go of objects leaves the others as they are. -/
theorem contents_cascade {t : Tally} {todo : List Object} {o : Object}
    (h : (s.cascade t todo).isAlive o = true) :
    (s.cascade t todo).contents o = s.contents o := by
  fun_induction cascade s t todo with
  | case1 => rfl
  | case2 s t o' rest hdead hlt handles ih =>
    -- `o'` is the one that goes, and `o` is there at the end
    have hne : o ≠ o' := by
      rintro rfl
      have hgone := isAlive_of_isAlive_cascade h
      rw [isAlive_remove] at hgone
      simp at hgone
    rw [ih h, contents_remove, if_neg hne]
  | case3 s t o' rest hkeep ih => exact ih h

theorem contents_release {roots : List Value} {o : Object}
    (h : (s.release roots).isAlive o = true) : (s.release roots).contents o = s.contents o :=
  contents_cascade h

theorem handles_release {roots : List Value} {o : Object}
    (h : (s.release roots).isAlive o = true) : (s.release roots).handles o = s.handles o := by
  rw [handles, handles, contents_release h]

/-- What the roots hold is live after the release. -/
theorem live_release {roots : List Value} (hroots : ∀ v ∈ roots, v.Live s) :
    ∀ v ∈ roots, v.Live (s.release roots) :=
  fun v hv o ho => isAlive_release_of_mem ⟨v, hv, ho⟩ (hroots v hv o ho)

/-- A sound store is sound after a release, since what is left is what is held. -/
theorem Sound.release (hs : s.Sound) (roots : List Value) : (s.release roots).Sound := by
  intro o v hv o' ho'
  have hleft : (s.release roots).isAlive o = true := isAlive_of_mem_contents hv
  -- its holder is left, so by that handle it is left as well
  have hheld : o' ∈ (s.release roots).handles o := mem_handles.2 ⟨v, hv, ho'⟩
  rw [contents_release hleft] at hv
  have halive : s.isAlive o' = true := hs o v hv o' ho'
  exact (isAlive_release_iff halive).2 (mem_held.2 (.inr ⟨o, hleft, hheld⟩))

/-- The objects that are held by the roots or by each other, of some that are alive. -/
def Supported (s : Store) (roots : List Value) (P : Object → Prop) : Prop :=
  ∀ o, P o → s.isAlive o = true ∧ ((∃ v ∈ roots, v.Holds o) ∨ ∃ o', P o' ∧ s.Holds o' o)

/-- They stay when an object is let go on which there are no handles. -/
theorem Supported.remove {roots : List Value} {P : Object → Prop} (h : s.Supported roots P)
    {o : Object} (ho : o ∉ s.held roots) : (s.remove o).Supported roots P := by
  -- a supported object has a handle on it, and the one that is let go has none
  have hne {x : Object} (hx : P x) : x ≠ o := by
    rintro rfl
    refine ho (mem_held.2 ?_)
    rcases (h x hx).2 with ⟨v, hv, hroot⟩ | ⟨y, hy, hholds⟩
    · exact .inl ⟨v, hv, hroot.mem_handles⟩
    · exact .inr ⟨y, (h y hy).1, holds_iff.1 hholds⟩
  intro x hx
  refine ⟨?_, ?_⟩
  · rw [isAlive_remove, (h x hx).1]
    simpa using hne hx
  · refine (h x hx).2.imp_right ?_
    rintro ⟨y, hy, hholds⟩
    refine ⟨y, hy, ?_⟩
    rw [holds_iff] at hholds ⊢
    rw [handles, contents_remove, if_neg (hne hy)]
    exact hholds

theorem Supported.isAlive_cascade {roots : List Value} {P : Object → Prop}
    (h : s.Supported roots P) {t : Tally} {todo : List Object} (i : Tallied s roots t todo)
    {o : Object} (ho : P o) : (s.cascade t todo).isAlive o = true := by
  fun_induction cascade s t todo with
  | case1 s t => exact (h o ho).1
  | case2 s t o' rest hdead hlt handles ih =>
    -- the tally counts the handles, so on what goes there are none
    have hfree : o' ∉ s.held roots := List.count_eq_zero.1 (i.count_eq o' hdead.1 ▸ hdead.2)
    exact ih (h.remove hfree) (i.remove hdead.1)
  | case3 s t o' rest hkeep ih => exact ih h (i.skip hkeep)

/-- **What is supported stays.** Objects that are alive are not let go as long as each of them is held
by a root or by another of them, be it in a circle. -/
theorem isAlive_release_of_supported {roots : List Value} {P : Object → Prop}
    (h : s.Supported roots P) {o : Object} (ho : P o) : (s.release roots).isAlive o = true :=
  h.isAlive_cascade (tallied_start s roots) ho

/-- After a release there is nothing more to let go. -/
theorem isAlive_release_release (s : Store) (roots : List Value) (o : Object) :
    ((s.release roots).release roots).isAlive o = (s.release roots).isAlive o := by
  -- what the first release has left is held by a root or by something else it has left
  have hsupported : (s.release roots).Supported roots fun x => (s.release roots).isAlive x = true := by
    intro x hx
    refine ⟨hx, (mem_held.1 (mem_held_of_isAlive_release s roots hx)).imp ?_ ?_⟩
    · rintro ⟨v, hv, ho⟩
      exact ⟨v, hv, Value.holds_iff.2 ho⟩
    · rintro ⟨y, hy, ho⟩
      exact ⟨y, hy, holds_iff.2 ho⟩
  rw [Bool.eq_iff_iff]
  exact ⟨isAlive_of_isAlive_release, isAlive_release_of_supported hsupported⟩

end Store

end Callable
