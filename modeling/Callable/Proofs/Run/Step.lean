import Callable.Proofs.Run.Operation
import Callable.Store.Release

/-!
# The steps of a run

What code around the library can do to the store, one operation after the other. The fields of a
function are out of its reach: it works on them through the operations only, and these are listed
here once and for all.

* `Store.Step` — one operation on the store. `Step.getAttr`, `Step.setAttribute`, … give those that
  come down to another one.
* `Store.Step.functions_cases` — what a step can do to functions: nothing, make one, revise the
  fields of one, or let go of some. Whatever concerns functions over a run follows from this.
* `FunctionObject.Revised` — how fields may be revised. Code and closure are revised one at a time,
  and each only by what agrees with the other.
* `Conduct.lawful` — code that reaches the store by steps only; the observer and the evaluator's own
  state are at its disposal.
* `Deed.momentsAll`, `Trail`, `Course.trail` — the stores that a run goes through, those inside of
  calls among them, each a step away from the one before.
* `Monitored.exists_course_performAll` — operations under a monitor are such a run.
-/

namespace Callable

/-! ### Functions and their fields -/

namespace Heap

variable {sort : Mutable} {α : Type}

@[simp] theorem size_alloc (h : Heap sort α) (a : α) : (h.alloc a).2.size = h.size + 1 := by
  simp [alloc, size]

/-- An object that is alive has its contents. -/
theorem get?_eq_some_get [Inhabited α] {h : Heap sort α} {r : Ref sort} (hr : h.isAlive r = true) :
    h.get? r = some (h.get r) := by
  obtain ⟨a, ha⟩ := Option.isSome_iff_exists.1 hr
  rw [get, ha]
  rfl

end Heap

/-- **A revision of a function's fields.** Code is replaced by code that needs as many cells as
there are, the closure by as many cells as the code needs; anything else leaves the two alone. -/
inductive FunctionObject.Revised (fn : FunctionObject) : FunctionObject → Prop
  | kept {fn' : FunctionObject} (hcode : fn'.code = fn.code) (hclosure : fn'.closure = fn.closure) :
      Revised fn fn'
  | code {c : Code} (h : c.freeVarCount = fn.cellCount) : Revised fn { fn with code := c }
  | closure {cells : List CellRef} (h : cells.length = fn.code.freeVarCount) :
      Revised fn { fn with closure := closureOf cells }

namespace Store

/-! ### Steps -/

/-- **A step of a run.** -/
inductive Step : Store → Store → Prop
  /-- What is only read, or refused, or done elsewhere leaves the store as it is. -/
  | rest (s : Store) : Step s s
  | newStr (s : Store) (text : String) : Step s (s.newStr text).2
  | newTuple (s : Store) (items : List Value) : Step s (s.newTuple items).2
  | newCode (s : Store) (name : String) (consts : List Value) (freeVars : List String) :
      Step s (s.newCode name consts freeVars).2
  | newMethod (s : Store) (f : FunctionRef) (receiver : Value) : Step s (s.newMethod f receiver).2
  | newList (s : Store) (items : List Value) : Step s (s.newList items).2
  | newDict (s : Store) (t : Table Value) : Step s (s.newDict t).2
  | newCell (s : Store) (v : Option Value) : Step s (s.newCell v).2
  | makeFunction (s : Store) (code : Code) (globals : DictRef) (qualname : String) :
      Step s (s.makeFunction code globals qualname).2
  | makeClosure (s : Store) (code : Code) (globals : DictRef) (qualname : String)
      (cells : List CellRef) : Step s (s.makeClosure code globals qualname cells).2
  | setList (s : Store) (r : ListRef) (items : List Value) : Step s (s.setList r items)
  | setDict (s : Store) (r : DictRef) (t : Table Value) : Step s (s.setDict r t)
  | setCell (s : Store) (r : CellRef) (v : Option Value) : Step s (s.setCell r v)
  | setAttr {s s' : Store} {f : FunctionRef} {name : String} {v : Value}
      (h : s.setAttr f name v = .ok s') : Step s s'
  | delAttr {s s' : Store} {f : FunctionRef} {name : String} (h : s.delAttr f name = .ok s') :
      Step s s'
  | setClosure {s s' : Store} {f : FunctionRef} {closure : Option (List CellRef)}
      (h : s.setClosure f closure = .ok s') : Step s s'
  | setDefaults (s : Store) (f : FunctionRef) (t : Option Tuple) : Step s (s.setDefaults f t)
  | setKwDefaults (s : Store) (f : FunctionRef) (r : Option DictRef) : Step s (s.setKwDefaults f r)
  | setAnnotations (s : Store) (f : FunctionRef) (r : Option DictRef) :
      Step s (s.setAnnotations f r)
  /-- Objects that nothing holds any more are let go, whatever the roots are. -/
  | release (s : Store) (roots : List Value) : Step s (s.release roots)

namespace Step

variable {s s' : Store} {f : FunctionRef} {v : Value}

/-- Writing one of the fixed attributes is writing it under its name. -/
theorem setAttribute {a : Attribute} (h : s.setAttribute f a v = .ok s') : s.Step s' := by
  have hname : s.setAttr f a.label v = .ok s' := by
    rw [Store.setAttr, Attribute.ofName?_label]
    exact h
  exact .setAttr hname

theorem deleteAttribute {a : Attribute} (h : s.deleteAttribute f a = .ok s') : s.Step s' := by
  have hname : s.delAttr f a.label = .ok s' := by
    rw [Store.delAttr, Attribute.ofName?_label]
    exact h
  exact .delAttr hname

/-- Reading an attribute may make a string or a tuple. -/
theorem getAttribute (s : Store) (f : FunctionRef) (a : Attribute) :
    s.Step (s.getAttribute f a).2 := by
  cases a with
  | name => exact .newStr s (s.function f).name
  | qualname => exact .newStr s (s.function f).qualname
  | closure =>
    -- cells are shown in a new tuple, and a missing closure as `None`
    rw [Store.getAttribute]
    cases (s.function f).closure with
    | none => exact .rest s
    | some cells => exact .newTuple s (cells.map .cell)
  | _ => exact .rest s

theorem getAttr {name : String} (h : s.getAttr f name = .ok (v, s')) : s.Step s' := by
  rw [Store.getAttr] at h
  cases hname : Attribute.ofName? name with
  | some a =>
    rw [hname] at h
    obtain rfl : (s.getAttribute f a).2 = s' := congrArg Prod.snd (Except.ok.inj h)
    exact .getAttribute s f a
  | none =>
    rw [hname] at h
    cases hfree : s.freeAttr? f name with
    -- an attribute of the dict is handed out as it is, and one that is missing is an error
    | none => simp only [hfree, reduceCtorEq] at h
    | some u =>
      simp only [hfree] at h
      cases h
      exact .rest s

theorem getMethodAttr {m : Method} {name : String} (h : s.getMethodAttr m name = .ok (v, s')) :
    s.Step s' := by
  rw [Store.getMethodAttr] at h
  split at h
  · cases h
    exact .rest s
  · split at h
    · cases h
      exact .rest s
    · exact .getAttr h

theorem toTuple {t : Tuple} (h : s.toTuple? v = some (t, s')) : s.Step s' := by
  cases v with
  | tuple t =>
    cases h
    exact .rest s
  | list r =>
    cases h
    exact .newTuple s (s.list r)
  | _ => cases h

theorem bind (s : Store) (f : FunctionRef) (v : Value) : s.Step (s.bind f v).2 := by
  rw [Store.bind]
  split
  · exact .rest s
  · exact .newMethod s f v

end Step

/-! ### What a step does to functions -/

section Functions

variable {s s' : Store} {f : FunctionRef}

/-- One function at most, and that only by a revision. -/
def RevisesOne (s s' : Store) : Prop :=
  s'.functions = s.functions ∨
    ∃ f fn, (s.function f).Revised fn ∧ s'.functions = s.functions.set f fn

theorem revisesOne_setFunction {fn : FunctionObject} (h : (s.function f).Revised fn) :
    s.RevisesOne (s.setFunction f fn) :=
  .inr ⟨f, fn, h, rfl⟩

/-- Making a tuple of a list leaves functions alone. -/
theorem functions_of_toTuple? {v : Value} {t : Tuple} (h : s.toTuple? v = some (t, s')) :
    s'.functions = s.functions := by
  cases v with
  | tuple t =>
    cases h
    rfl
  | list r =>
    cases h
    rfl
  | _ => cases h

theorem revisesOne_setAttribute {a : Attribute} {v : Value} (h : s.setAttribute f a v = .ok s') :
    s.RevisesOne s' := by
  cases a with
  | code =>
    cases v with
    | code c =>
      rw [setAttribute] at h
      split at h
      · -- the guard of the write is what `Revised.code` asks for
        rename_i hcount
        cases h
        exact revisesOne_setFunction (.code hcount)
      · cases h
    | _ => cases h
  | defaults =>
    rw [setAttribute] at h
    split at h
    · rename_i t s₁ ht
      cases h
      -- the list may have been copied first, which leaves functions alone
      have hsame := functions_of_toTuple? ht
      refine .inr ⟨f, { s.function f with defaults := some t }, .kept rfl rfl, ?_⟩
      rw [setFunction, hsame]
    · cases h
  | kwDefaults | annotations | dict =>
    -- these fields have nothing to do with code and closure
    cases v with
    | dict r =>
      cases h
      exact revisesOne_setFunction (.kept rfl rfl)
    | _ => cases h
  | name | qualname =>
    cases v with
    | str t =>
      cases h
      exact revisesOne_setFunction (.kept rfl rfl)
    | _ => cases h
  | doc | moduleName =>
    cases h
    exact revisesOne_setFunction (.kept rfl rfl)
  | globals | closure => cases h

theorem revisesOne_deleteAttribute {a : Attribute} (h : s.deleteAttribute f a = .ok s') :
    s.RevisesOne s' := by
  cases a <;> cases h <;> exact revisesOne_setFunction (.kept rfl rfl)

theorem revisesOne_setAttr {name : String} {v : Value} (h : s.setAttr f name v = .ok s') :
    s.RevisesOne s' := by
  rw [setAttr] at h
  cases hname : Attribute.ofName? name with
  | some a =>
    rw [hname] at h
    exact revisesOne_setAttribute h
  | none =>
    rw [hname] at h
    -- the entry goes into the dict of the function, and without one the function gets it now
    cases hdict : (s.function f).dict with
    | some r =>
      simp only [hdict] at h
      cases h
      exact .inl rfl
    | none =>
      simp only [hdict] at h
      cases h
      have hrev : (s.function f).Revised
          { s.function f with dict := some (s.newDict (Table.empty.insert name v)).1 } :=
        .kept rfl rfl
      exact .inr ⟨f, _, hrev, rfl⟩

theorem revisesOne_delAttr {name : String} (h : s.delAttr f name = .ok s') : s.RevisesOne s' := by
  rw [delAttr] at h
  cases hname : Attribute.ofName? name with
  | some a =>
    rw [hname] at h
    exact revisesOne_deleteAttribute h
  | none =>
    rw [hname] at h
    cases hdict : (s.function f).dict with
    | none => simp only [hdict, reduceCtorEq] at h
    | some r =>
      simp only [hdict] at h
      split at h
      · -- the dict loses an entry, which is no field of the function
        cases h
        exact .inl rfl
      · cases h

theorem revisesOne_setClosure {closure : Option (List CellRef)}
    (h : s.setClosure f closure = .ok s') : s.RevisesOne s' := by
  rw [setClosure] at h
  split at h
  · -- again the guard is the condition of the revision
    rename_i hcount
    cases h
    exact revisesOne_setFunction (.closure hcount)
  · cases h

/-- **What a step does to functions.** It leaves them alone, makes one, revises the fields of one,
or lets go of some. -/
theorem Step.functions_cases (h : s.Step s') :
    s.RevisesOne s' ∨ (∃ fn, s'.functions = (s.functions.alloc fn).2) ∨
      ∃ roots, s' = s.release roots := by
  cases h with
  | makeFunction => exact .inr (.inl ⟨_, rfl⟩)
  | makeClosure => exact .inr (.inl ⟨_, rfl⟩)
  | release roots => exact .inr (.inr ⟨roots, rfl⟩)
  | setAttr h => exact .inl (revisesOne_setAttr h)
  | delAttr h => exact .inl (revisesOne_delAttr h)
  | setClosure h => exact .inl (revisesOne_setClosure h)
  | setDefaults => exact .inl (revisesOne_setFunction (.kept rfl rfl))
  | setKwDefaults => exact .inl (revisesOne_setFunction (.kept rfl rfl))
  | setAnnotations => exact .inl (revisesOne_setFunction (.kept rfl rfl))
  -- everything else is about lists, dicts, cells and labels
  | _ => exact .inl (.inl rfl)

/-- Letting go of an object takes no function's place and changes no fields. -/
theorem functions_remove (s : Store) (o : Object) :
    (s.remove o).functions.size = s.functions.size ∧
      ∀ {f fn}, (s.remove o).functions.get? f = some fn → s.functions.get? f = some fn := by
  cases o with
  | function r =>
    refine ⟨Heap.size_remove _ r, fun {f fn} h => ?_⟩
    change (s.functions.remove r).get? f = some fn at h
    rw [Heap.get?_remove] at h
    split at h
    · cases h
    · exact h
  | _ => exact ⟨rfl, fun h => h⟩

theorem functions_cascade (s : Store) (t : Tally) (todo : List Object) :
    (s.cascade t todo).functions.size = s.functions.size ∧
      ∀ {f fn}, (s.cascade t todo).functions.get? f = some fn → s.functions.get? f = some fn := by
  -- along the cascade, one object after the other
  fun_induction cascade s t todo with
  | case1 => exact ⟨rfl, fun h => h⟩
  | case2 s t o rest _ _ _ ih =>
    obtain ⟨hsize, hget⟩ := functions_remove s o
    exact ⟨ih.1.trans hsize, fun h => hget (ih.2 h)⟩
  | case3 s t o rest _ ih => exact ih

/-- **A function over a step.** A function that was made before a step and is alive after it was
alive before it, and its fields were revised at most. -/
theorem Step.exists_revised (h : s.Step s') {fn' : FunctionObject}
    (hf : f.index < s.functions.size) (hfn' : s'.functions.get? f = some fn') :
    ∃ fn, s.functions.get? f = some fn ∧ fn.Revised fn' := by
  rcases h.functions_cases with (hsame | ⟨g, fn, hrev, hset⟩) | ⟨fn, hnew⟩ | ⟨roots, rfl⟩
  · -- functions were left alone
    rw [hsame] at hfn'
    exact ⟨fn', hfn', .kept rfl rfl⟩
  · rw [hset, Heap.get?_set] at hfn'
    split at hfn'
    · -- it is the one whose fields were written
      rename_i hg
      obtain ⟨rfl, halive⟩ := hg
      cases hfn'
      exact ⟨s.function f, Heap.get?_eq_some_get halive, hrev⟩
    · exact ⟨fn', hfn', .kept rfl rfl⟩
  · -- the new one has a number that no function had before
    rw [hnew, Heap.get?_alloc, if_neg] at hfn'
    · exact ⟨fn', hfn', .kept rfl rfl⟩
    · rintro rfl
      exact Nat.lt_irrefl _ hf
  · -- what a release leaves has the fields that it had
    exact ⟨fn', (functions_cascade ..).2 hfn', .kept rfl rfl⟩

/-- No step takes back the number of a function. -/
theorem Step.size_le (h : s.Step s') : s.functions.size ≤ s'.functions.size := by
  rcases h.functions_cases with (hsame | ⟨g, fn, -, hset⟩) | ⟨fn, hnew⟩ | ⟨roots, rfl⟩
  · exact Nat.le_of_eq (congrArg Heap.size hsame).symm
  · rw [hset]
    exact Nat.le_of_eq (Heap.size_set ..).symm
  · rw [hnew, Heap.size_alloc]
    exact Nat.le_succ _
  · exact Nat.le_of_eq (functions_cascade ..).1.symm

end Functions

end Store

/-! ### Lawful runs -/

/-- **The lawful conduct.** The store is changed by steps only. -/
def Conduct.lawful {σ ω : Type} : Conduct σ ω where
  own w w' := w.store.Step w'.store
  gives _ _ _ := True

/-- **The orderly conduct.** It is quiet and lawful at once. -/
def Conduct.orderly {σ ω : Type} : Conduct σ ω where
  own w w' := w.store.Step w'.store ∧ w'.watch = w.watch
  gives obs observed obs' := obs' = if observed then obs else .silent

namespace Conduct

variable {σ ω : Type}

theorem orderly_within_quiet : (orderly : Conduct σ ω).Within quiet where
  own h := h.2
  gives h := h

theorem orderly_within_lawful : (orderly : Conduct σ ω).Within lawful where
  own h := h.1
  gives _ := trivial

end Conduct

/-- A moment of a run: a store, and the request that was handed over for a function just then, if
one was. -/
structure Moment where
  store : Store
  handed : Option (FunctionRef × Request)

namespace Deed

mutual

/-- The moments of a deed. A call is at its first one when the dict for its locals has been made and
the evaluator has its request. -/
def moments : Deed → List Moment
  | .own after => [⟨after, none⟩]
  | .call _ f before request inner _ =>
    ⟨(before.newDict .empty).2, some (f, request)⟩ :: momentsAll inner

/-- The moments of some deeds. -/
def momentsAll : List Deed → List Moment
  | [] => []
  | d :: ds => d.moments ++ momentsAll ds

end

end Deed

/-- **A trail.** From a store to another one there are these moments, each a step away from the one
before. What is handed over has the fields that the function has at the moment. -/
inductive Trail : Store → List Moment → Store → Prop
  | nil (s : Store) : Trail s [] s
  | cons {s s' : Store} {m : Moment} {ms : List Moment} (hstep : s.Step m.store)
      (hhanded : ∀ {f r}, m.handed = some (f, r) →
        ∃ locals args kwargs, r = (m.store.function f).request locals args kwargs)
      (rest : Trail m.store ms s') : Trail s (m :: ms) s'

theorem Trail.append {s s₁ s₂ : Store} {ms ms' : List Moment} (h : Trail s ms s₁)
    (h' : Trail s₁ ms' s₂) : Trail s (ms ++ ms') s₂ := by
  -- the first trail may be empty, and then the second one begins where it began
  induction h with
  | nil => exact h'
  | cons hstep hhanded _ ih => exact .cons hstep hhanded (ih h')

/-- **The trail of a run.** A lawful run goes from store to store by steps, also inside of calls. -/
theorem Course.trail {σ ω : Type} {obs : Observer ω} {w w' : World σ ω} {ds : List Deed}
    (h : Course .lawful obs w ds w') : Trail w.store (Deed.momentsAll ds) w'.store := by
  induction h with
  | done obs w => exact .nil w.store
  | own hown _ ih => exact .cons hown nofun ih
  | @call obs obs' w w₂ inner ds ev observed f args kwargs _ _ _ ihbody ih =>
    -- the evaluation starts with the new dict, and the end of the call leaves the store alone
    refine .cons (.newDict w.store .empty) ?_ (ihbody.append ih)
    rintro g r hgr
    cases hgr
    exact ⟨_, args, kwargs, rfl⟩

/-! ### Operations under a monitor -/

namespace Monitored

variable {σ : Type} {ev : Evaluator σ Monitor}

/-- Going past the monitor is lawful if it is a step; under the monitor everything is. -/
def Operation.IsLawful : Operation σ → Prop
  | .aside change => ∀ (s : Store) (host : σ), s.Step (change s host).1
  | _ => True

/-- An operation under a monitor is a lawful run. -/
theorem Operation.exists_course (hev : ev.HoldsTo .lawful) {op : Operation σ} (hop : op.IsLawful)
    (w : Monitored σ) : ∃ ds, Course .lawful Monitor.observer w ds (op.perform ev w).2 := by
  -- all but the calls are one deed of their own, whatever the monitor hears of it
  have own {w' : Monitored σ} (h : w.store.Step w'.store) :
      ∃ ds, Course .lawful Monitor.observer w ds w' :=
    ⟨_, .own h (.done _ w')⟩
  have gives : Conduct.lawful.gives (σ := σ) Monitor.observer true Monitor.observer := trivial
  cases op with
  | makeFunction code globals qualname => exact own (.makeFunction w.store code globals qualname)
  | makeClosure code globals qualname cells =>
    exact own (.makeClosure w.store code globals qualname cells)
  | call f args kwargs => exact Course.of_call hev gives f args kwargs w
  | callValue v args kwargs => exact Course.of_callValue hev gives v args kwargs w
  | getAttr f name =>
    -- a failed operation is a deed as well, which rests where it is
    refine own ?_
    rw [perform, Monitored.getAttr]
    cases h : w.store.getAttr f name with
    | ok r => exact .getAttr h
    | error e => exact .rest w.store
  | setAttr f name v =>
    refine own ?_
    rw [perform, Monitored.setAttr]
    cases h : w.store.setAttr f name v with
    | ok s => exact .setAttr h
    | error e => exact .rest w.store
  | delAttr f name =>
    refine own ?_
    rw [perform, Monitored.delAttr]
    cases h : w.store.delAttr f name with
    | ok s => exact .delAttr h
    | error e => exact .rest w.store
  | bind f receiver => exact own (.bind w.store f receiver)
  | aside change => exact own (hop w.store w.host)

/-- So is a sequence of them. -/
theorem exists_course_performAll (hev : ev.HoldsTo .lawful) {ops : List (Operation σ)}
    (hops : ∀ op ∈ ops, op.IsLawful) (w : Monitored σ) :
    ∃ ds, Course .lawful Monitor.observer w ds (performAll ev ops w) := by
  induction ops generalizing w with
  | nil => exact ⟨[], .done _ w⟩
  | cons op ops ih =>
    obtain ⟨hop, hrest⟩ := List.forall_mem_cons.1 hops
    obtain ⟨ds, hds⟩ := op.exists_course hev hop w
    obtain ⟨ds', hds'⟩ := ih hrest (op.perform ev w).2
    exact ⟨_, hds.append hds'⟩

end Monitored

end Callable
