import Callable.Proofs.Function.Effect
import Callable.Proofs.Run.Step

/-!
# Calls as delegations

A call makes a dict for the locals, hands a snapshot of the function to the evaluator, and answers
what the evaluator answers. Evaluations call again, also the function that is running, and change
it, so of a request in a run three things are to be said: it is a snapshot of the function at the
moment of entry, whatever was done to the function before or is done after; its dict is one that was
never there before; and no other call of the run has got it too.

* `Handover` — a request that a call may hand over, and the store in which it is evaluated.
* `Evaluator.logged` — an evaluator that keeps a list of its requests.
* `Value.call_of_target?` — what a call comes to, in terms of its one request.
* `Chronicle.snapshot`, `Chronicle.locals_fresh` — the requests of a run, those of calls inside of
  calls among them.
* `Course.calls_delegate` — the result, on single calls and on runs.
-/

namespace Callable

variable {σ ω : Type}

/-! ### Snapshots -/

/-- **A snapshot.** The request has what the function holds in the store `s`, and these arguments.
The evaluation begins in the store `s'`, which has one object more than `s`: the empty dict for the
locals. The number of that dict was given to no dict before, living or gone. -/
structure Handover (s : Store) (f : FunctionRef) (args : List Value) (kwargs : Table Value)
    (r : Request) (s' : Store) : Prop where
  code : r.code = (s.function f).code
  globals : r.globals = (s.function f).globals
  defaults : r.defaults = (s.function f).defaults
  kwDefaults : r.kwDefaults = (s.function f).kwDefaults
  closure : r.closure = (s.function f).closure
  args : r.args = args
  kwargs : r.kwargs = kwargs
  unmade : s.dicts.size ≤ r.locals.index
  locals : s'.dicts.get? r.locals = some .empty
  otherDicts : ∀ d, d ≠ r.locals → s'.dicts.get? d = s.dicts.get? d
  numbers : s'.dicts.size = s.dicts.size + 1
  lists : s'.lists = s.lists
  cells : s'.cells = s.cells
  functions : s'.functions = s.functions
  labels : s'.labels = s.labels

/-- The request that a call makes is a snapshot. -/
theorem handover_request (s : Store) (f : FunctionRef) (args : List Value) (kwargs : Table Value) :
    Handover s f args kwargs ((s.function f).request (s.newDict .empty).1 args kwargs)
      (s.newDict .empty).2 where
  code := rfl
  globals := rfl
  defaults := rfl
  kwDefaults := rfl
  closure := rfl
  args := rfl
  kwargs := rfl
  unmade := Nat.le_refl _
  locals := (s.dicts.get?_alloc _ _).trans (if_pos rfl)
  otherDicts d hd := (s.dicts.get?_alloc _ d).trans (if_neg hd)
  numbers := Heap.size_alloc s.dicts _
  lists := rfl
  cells := rfl
  functions := rfl
  labels := rfl

/-! ### A single call -/

/-- The evaluator with a list of the requests that it has got. -/
def Evaluator.logged (ev : Evaluator σ ω) : Evaluator (σ × List Request) ω :=
  fun obs r w =>
    let (outcome, w') := ev obs r ⟨w.store, w.host.1, w.watch, w.console⟩
    (outcome, ⟨w'.store, (w'.host, w.host.2 ++ [r]), w'.watch, w'.console⟩)

/-- The world with a list of requests beside the evaluator's own state. -/
def World.withLog (w : World σ ω) (log : List Request) : World (σ × List Request) ω :=
  ⟨w.store, (w.host, log), w.watch, w.console⟩

/-- **A call delegates.** There is a snapshot of the target such that the evaluator is asked for it
once, in the world that has the new dict; the answer of the evaluator is that of the call, and the
world that it leaves is left by the call, but for what the observer is told. -/
def Value.Delegates (v : Value) (ev : Evaluator σ ω) (obs : Observer ω) (args : List Value)
    (kwargs : Table Value) (w : World σ ω) : Prop :=
  ∃ f full r s, v.target? args = some (f, full) ∧ Handover w.store f full kwargs r s ∧
    let entered := { w with store := s }.report (obs.enter (w.store.function f).qualname)
    let (outcome, left) := ev obs r entered
    v.call ev obs args kwargs w = (outcome, left.report (obs.exit outcome.isOk)) ∧
      ∀ log, v.call ev.logged obs args kwargs (w.withLog log) =
        (outcome, (left.report (obs.exit outcome.isOk)).withLog (log ++ [r]))

/-- What can be called delegates. -/
theorem Value.delegates_of_isCallable {v : Value} (hv : v.isCallable = true) (ev : Evaluator σ ω)
    (obs : Observer ω) (args : List Value) (kwargs : Table Value) (w : World σ ω) :
    v.Delegates ev obs args kwargs w := by
  rw [← v.isSome_target? args] at hv
  obtain ⟨⟨f, full⟩, htarget⟩ := Option.isSome_iff_exists.1 hv
  have hcall := call_of_target? htarget ev obs kwargs w
  refine ⟨f, full, _, _, htarget, handover_request w.store f full kwargs, hcall.trans rfl, ?_⟩
  -- the evaluator with a list is an evaluator as any other, so the same equation unfolds for it
  intro log
  exact (call_of_target? htarget ev.logged obs kwargs (w.withLog log)).trans rfl

/-! ### The numbers of dicts -/

namespace Store

variable {s s' : Store} {f : FunctionRef}

/-- Letting go of an object takes no dict's number back. -/
theorem size_dicts_cascade (s : Store) (t : Tally) (todo : List Object) :
    (s.cascade t todo).dicts.size = s.dicts.size := by
  fun_induction cascade s t todo with
  | case1 => rfl
  | case2 s t o rest _ _ _ ih =>
    rw [ih]
    -- only a dict that goes changes the heap of dicts, and it leaves its number behind
    cases o with
    | dict r => exact Heap.size_remove s.dicts r
    | _ => rfl
  | case3 s t o rest _ ih => exact ih

/-- No step takes back the number of a dict. -/
theorem Step.size_dicts_le (h : s.Step s') : s.dicts.size ≤ s'.dicts.size := by
  -- dicts are made one at a time, and written in place
  have one (s : Store) (t : Table Value) : s.dicts.size ≤ (s.newDict t).2.dicts.size :=
    Nat.le_trans (Nat.le_succ _) (Nat.le_of_eq (Heap.size_alloc s.dicts t).symm)
  have written (s : Store) (r : DictRef) (t : Table Value) :
      s.dicts.size ≤ (s.setDict r t).dicts.size :=
    Nat.le_of_eq (Heap.size_set s.dicts r t).symm
  cases h with
  | newDict t => exact one s t
  | setDict r t => exact written s r t
  | setAttr h =>
    cases written_of_setAttr h with
    -- a field is replaced, and no dict is made for that
    | field => exact Nat.le_refl _
    | entry => exact written ..
    | first => exact one ..
  | @delAttr _ f name h =>
    cases hname : Attribute.ofName? name with
    | some a =>
      obtain rfl := Attribute.ofName?_eq_some_iff.1 hname
      obtain ⟨x, -, rfl⟩ := Change.exists_of_apply (c := .delete a) h
      exact Nat.le_refl _
    | none =>
      -- the dict that loses the entry stays
      obtain ⟨r, -, rfl⟩ := exists_dict_of_delAttr hname h
      exact written ..
  | setClosure h =>
    obtain rfl := eq_putField_of_setClosure h
    exact Nat.le_refl _
  | release roots => exact Nat.le_of_eq (size_dicts_cascade ..).symm
  | _ => exact Nat.le_refl _

end Store

/-! ### The requests of a run -/

/-- The store after some moments. -/
def Store.after (s : Store) (ms : List Moment) : Store := ms.foldl (fun _ m => m.store) s

/-- **A chronicle.** It is a trail of which the moments with a request are entries of calls, from
the store that was there before. -/
inductive Chronicle : Store → List Moment → Prop
  | nil (s : Store) : Chronicle s []
  | step {s s' : Store} {ms : List Moment} (h : s.Step s') (rest : Chronicle s' ms) :
      Chronicle s (⟨s', none⟩ :: ms)
  | entry {s s' : Store} {f : FunctionRef} {args : List Value} {kwargs : Table Value} {r : Request}
      {ms : List Moment} (h : Handover s f args kwargs r s') (rest : Chronicle s' ms) :
      Chronicle s (⟨s', some (f, r)⟩ :: ms)

namespace Chronicle

variable {s : Store} {ms ms' : List Moment}

theorem append (h : Chronicle s ms) (h' : Chronicle (s.after ms) ms') :
    Chronicle s (ms ++ ms') := by
  induction h with
  | nil => exact h'
  | step h _ ih => exact .step h (ih h')
  | entry h _ ih => exact .entry h (ih h')

/-- Each request is a snapshot of its function in the store just before. -/
theorem snapshot (h : Chronicle s ms) {before later : List Moment} {m : Moment} {f : FunctionRef}
    {r : Request} (hms : ms = before ++ m :: later) (hm : m.handed = some (f, r)) :
    Handover (s.after before) f r.args r.kwargs r m.store := by
  -- on the chronicle, with `before` shrinking: the moment is the first one or is in the rest
  induction h generalizing before with
  | nil => simp at hms
  | @step s s' ms h _ ih =>
    cases before with
    | nil =>
      -- the first moment has a request, so it is no step
      cases hms
      cases hm
    | cons m' before =>
      obtain ⟨rfl, hrest⟩ := List.cons.inj hms
      exact ih hrest
  | @entry s s' f' args kwargs r' ms h _ ih =>
    cases before with
    | nil =>
      cases hms
      cases hm
      -- `r` has the arguments of the call, so these need not be named
      have hargs := h.args
      have hkwargs := h.kwargs
      subst hargs hkwargs
      exact h
    | cons m' before =>
      obtain ⟨rfl, hrest⟩ := List.cons.inj hms
      exact ih hrest

/-- The dicts that some moments have for locals. -/
def locals (ms : List Moment) : List DictRef :=
  (ms.filterMap (·.handed)).map (·.2.locals)

/-- The dicts for locals were not there at the beginning, and no two calls have the same. -/
theorem locals_fresh (h : Chronicle s ms) :
    (∀ d ∈ locals ms, s.dicts.size ≤ d.index) ∧ (locals ms).Nodup := by
  induction h with
  | nil => exact ⟨nofun, List.nodup_nil⟩
  -- an ordinary step hands over nothing, and numbers only grow
  | step h _ ih => exact ⟨fun d hd => Nat.le_trans h.size_dicts_le (ih.1 d hd), ih.2⟩
  | @entry s s' f args kwargs r ms h _ ih =>
    have hlocals : locals (⟨s', some (f, r)⟩ :: ms) = r.locals :: locals ms := rfl
    -- the one that is made now has the last number of the store after, the others have later ones
    have hlt : r.locals.index < s'.dicts.size :=
      Heap.index_lt_of_isAlive (by rw [Heap.isAlive, h.locals]; rfl)
    have hnumbers := h.numbers
    rw [hlocals]
    constructor
    · intro d hd
      rcases List.mem_cons.1 hd with rfl | hd
      · exact h.unmade
      · have := ih.1 d hd
        omega
    · refine List.nodup_cons.2 ⟨fun hmem => ?_, ih.2⟩
      exact absurd (ih.1 _ hmem) (Nat.not_le.2 hlt)

end Chronicle

/-- The store at the end of a run is the one of its last moment. -/
theorem Course.store_eq_after {c : Conduct σ ω} {obs : Observer ω} {w w' : World σ ω}
    {ds : List Deed} (h : Course c obs w ds w') :
    w'.store = w.store.after (Deed.momentsAll ds) := by
  induction h with
  | done => rfl
  | own _ _ ih => exact ih
  | @call obs obs' w w₂ inner ds ev observed f args kwargs _ _ _ ihbody ih =>
    -- the end of a call is told to the observer, and the store is that of the evaluation
    have hbody : (f.call ev obs' args kwargs w).2.store =
        (w.entering f obs').store.after (Deed.momentsAll inner) := ihbody
    rw [ih, hbody]
    exact (List.foldl_append ..).symm

/-- **The chronicle of a run.** -/
theorem Course.chronicle {obs : Observer ω} {w w' : World σ ω} {ds : List Deed}
    (h : Course .lawful obs w ds w') : Chronicle w.store (Deed.momentsAll ds) := by
  induction h with
  | done obs w => exact .nil w.store
  | own hown _ ih => exact .step hown ih
  | @call obs obs' w w₂ inner ds ev observed f args kwargs _ hbody _ ihbody ih =>
    -- the moments of the evaluation come first, and the rest begins in the store that it leaves
    refine .entry (handover_request w.store f args kwargs) (ihbody.append ?_)
    have hafter := hbody.store_eq_after
    rw [← hafter]
    exact ih

/-! ### The result -/

/-- **Calls are delegations.** Any call of what can be called delegates. In a run that reaches the
store by steps every request, at whatever depth its call was made, is a snapshot of its function
in the store just before, so what is done to the function shows in the requests of later calls and
in no others. The dicts for the locals were not there before the run, and no two calls of the run
have the same one. -/
theorem Course.calls_delegate :
    (∀ {σ ω : Type} {v : Value}, v.isCallable = true →
      ∀ (ev : Evaluator σ ω) (obs : Observer ω) (args : List Value) (kwargs : Table Value)
        (w : World σ ω), v.Delegates ev obs args kwargs w) ∧
    ∀ {σ ω : Type} {obs : Observer ω} {w w' : World σ ω} {ds : List Deed},
      Course .lawful obs w ds w' →
      (∀ before m later f r, Deed.momentsAll ds = before ++ m :: later → m.handed = some (f, r) →
        Handover (w.store.after before) f r.args r.kwargs r m.store) ∧
      (∀ d ∈ Chronicle.locals (Deed.momentsAll ds), w.store.dicts.size ≤ d.index) ∧
      (Chronicle.locals (Deed.momentsAll ds)).Nodup := by
  refine ⟨Value.delegates_of_isCallable, fun {σ ω obs w w' ds} h => ⟨?_, h.chronicle.locals_fresh⟩⟩
  intro before m later f r hms hm
  exact h.chronicle.snapshot hms hm

/-! ### A function that is given other code while it runs -/

section Renewing

/-- The code at first, and the code that it is replaced by. -/
def firstCode : Code := ⟨⟨0⟩, "f", [], []⟩

def secondCode : Code := ⟨⟨1⟩, "g", [], []⟩

/-- The function with the other code. -/
def renewed (s : Store) : Store :=
  s.modifyFunction ⟨0⟩ fun fn => { fn with code := secondCode }

/-- Whatever it is asked to run, it gives the function the other code and calls it. -/
def renewing : Evaluator Unit Unit := fun obs _ w =>
  FunctionRef.call ⟨0⟩ (fun _ _ w => (.ok .none, w)) obs [] .empty
    { w with store := renewed w.store }

/-- There is a function with the first code. -/
def renewingWorld : World Unit Unit where
  store := (Store.empty.makeFunction firstCode ⟨0⟩ "").2
  host := ()
  watch := ()
  console := ""

/-- The function calls itself after its code was replaced. The request that is being evaluated has
the first code, the other one the second, and each has a dict of its own. -/
theorem Course.calls_delegate_renewing :
    ∃ ds w' m₁ m m₂ r₁ r₂, Course .lawful Observer.silent renewingWorld ds w' ∧
      (Value.function ⟨0⟩).Delegates renewing .silent [] .empty renewingWorld ∧
      Deed.momentsAll ds = [m₁, m, m₂] ∧
      m₁.handed = some (⟨0⟩, r₁) ∧ m₂.handed = some (⟨0⟩, r₂) ∧
      r₁.code = firstCode ∧ r₂.code = secondCode ∧ r₁.locals ≠ r₂.locals := by
  let entered := renewingWorld.entering ⟨0⟩ .silent
  -- the evaluator writes the field directly; it is a step, since the library would write the same
  have hset : entered.store.setAttr ⟨0⟩ "__code__" (.code secondCode) =
      .ok (renewed entered.store) := rfl
  have hown : Conduct.lawful.own entered { entered with store := renewed entered.store } :=
    .setAttr hset
  have hgives : Conduct.lawful.gives (σ := Unit) Observer.silent true (.silent : Observer Unit) :=
    trivial
  have hbody : Course .lawful Observer.silent entered _
      (FunctionRef.evaluation ⟨0⟩ renewing .silent [] .empty renewingWorld).2 :=
    .own hown (.call hgives (.done _ _) (.done _ _))
  have hcourse : Course .lawful Observer.silent renewingWorld _ _ :=
    .call hgives hbody (.done _ _)
  obtain ⟨hrequests, -, hlocals⟩ := Course.calls_delegate.2 hcourse
  have h₁ := hrequests [] _ _ _ _ rfl rfl
  have h₂ := hrequests [_, _] _ _ _ _ rfl rfl
  have hne := (List.nodup_cons.1 hlocals).1
  refine ⟨_, _, _, _, _, _, _, hcourse, Course.calls_delegate.1 rfl _ _ _ _ _, rfl, rfl, rfl,
    h₁.code, h₂.code, fun heq => hne ?_⟩
  exact List.mem_singleton.2 heq

end Renewing

end Callable
