import Callable.Proofs.Liveness.Sound
import Callable.Proofs.Run.Step

/-!
# Operations keep a store sound

A program around the library gets at values through the handles that it has, and gives them to
operations. Here are all operations, with what each is given and what it answers. An operation that
fails leaves the store as it was.

* `Store.Work` — an operation, in a program that has some values at hand.
* `Store.Work.draws` — what it puts into objects and what comes of it is drawn from what it is given.
* `Store.Work.grown` — after it nothing is gone, the store is sound, and what came of it is live.
-/

namespace Callable

namespace Store

variable {s s' : Store}

/-! ### Operations -/

/-- **An operation of the library**, in a program that has some values at hand. Whatever it is given
is at hand; the list is what comes of it. -/
inductive Work (s : Store) (Has : Value → Prop) : List Value → Store → Prop
  | newStr (text : String) : Work s Has [.str (s.newStr text).1] (s.newStr text).2
  | newTuple {items : List Value} (h : ∀ v ∈ items, Has v) :
      Work s Has [.tuple (s.newTuple items).1] (s.newTuple items).2
  | newCode (name : String) {consts : List Value} (freeVars : List String)
      (h : ∀ v ∈ consts, Has v) :
      Work s Has [.code (s.newCode name consts freeVars).1] (s.newCode name consts freeVars).2
  | newMethod {f : FunctionRef} {receiver : Value} (hf : Has (.function f)) (hv : Has receiver) :
      Work s Has [.method (s.newMethod f receiver).1] (s.newMethod f receiver).2
  | newList {items : List Value} (h : ∀ v ∈ items, Has v) :
      Work s Has [.list (s.newList items).1] (s.newList items).2
  | newDict {t : Table Value} (h : ∀ v ∈ t.values, Has v) :
      Work s Has [.dict (s.newDict t).1] (s.newDict t).2
  | newCell {c : Option Value} (h : ∀ v ∈ c, Has v) :
      Work s Has [.cell (s.newCell c).1] (s.newCell c).2
  | makeFunction {code : Code} {globals : DictRef} (qualname : String) (hcode : Has (.code code))
      (hglobals : Has (.dict globals)) :
      Work s Has [.function (s.makeFunction code globals qualname).1]
        (s.makeFunction code globals qualname).2
  | makeClosure {code : Code} {globals : DictRef} (qualname : String) {cells : List CellRef}
      (hcode : Has (.code code)) (hglobals : Has (.dict globals))
      (hcells : ∀ r ∈ cells, Has (.cell r)) :
      Work s Has [.function (s.makeClosure code globals qualname cells).1]
        (s.makeClosure code globals qualname cells).2
  | setList {r : ListRef} {items : List Value} (hr : Has (.list r)) (h : ∀ v ∈ items, Has v) :
      Work s Has [] (s.setList r items)
  | setDict {r : DictRef} {t : Table Value} (hr : Has (.dict r)) (h : ∀ v ∈ t.values, Has v) :
      Work s Has [] (s.setDict r t)
  | setCell {r : CellRef} {c : Option Value} (hr : Has (.cell r)) (h : ∀ v ∈ c, Has v) :
      Work s Has [] (s.setCell r c)
  | getAttr {s' : Store} {f : FunctionRef} {name : String} {v : Value} (hf : Has (.function f))
      (h : s.getAttr f name = .ok (v, s')) : Work s Has [v] s'
  | getMethodAttr {s' : Store} {m : Method} {name : String} {v : Value} (hm : Has (.method m))
      (h : s.getMethodAttr m name = .ok (v, s')) : Work s Has [v] s'
  | setAttr {s' : Store} {f : FunctionRef} {name : String} {v : Value} (hf : Has (.function f))
      (hv : Has v) (h : s.setAttr f name v = .ok s') : Work s Has [] s'
  | delAttr {s' : Store} {f : FunctionRef} {name : String} (hf : Has (.function f))
      (h : s.delAttr f name = .ok s') : Work s Has [] s'
  | setClosure {s' : Store} {f : FunctionRef} {closure : Option (List CellRef)}
      (hf : Has (.function f)) (hcells : ∀ r ∈ closure.getD [], Has (.cell r))
      (h : s.setClosure f closure = .ok s') : Work s Has [] s'
  | setDefaults {f : FunctionRef} {t : Option Tuple} (hf : Has (.function f))
      (ht : Has (.ofTuple? t)) : Work s Has [] (s.setDefaults f t)
  | setKwDefaults {f : FunctionRef} {r : Option DictRef} (hf : Has (.function f))
      (hr : Has (.ofDict? r)) : Work s Has [] (s.setKwDefaults f r)
  | setAnnotations {f : FunctionRef} {r : Option DictRef} (hf : Has (.function f))
      (hr : Has (.ofDict? r)) : Work s Has [] (s.setAnnotations f r)
  | bind {f : FunctionRef} {receiver : Value} (hf : Has (.function f)) (hv : Has receiver) :
      Work s Has [(s.bind f receiver).1] (s.bind f receiver).2
  | toTuple {s' : Store} {v : Value} {t : Tuple} (hv : Has v) (h : s.toTuple? v = some (t, s')) :
      Work s Has [.tuple t] s'

namespace Work

variable {Has : Value → Prop} {f : FunctionRef} {a : Attribute}

/-- Reading one of the fixed attributes is reading it under its name. -/
theorem getAttribute (hf : Has (.function f)) :
    s.Work Has [(s.getAttribute f a).1] (s.getAttribute f a).2 := by
  have hname : s.getAttr f a.label = .ok (s.getAttribute f a) := by
    rw [Store.getAttr, Attribute.ofName?_label]
  exact .getAttr hf hname

theorem setAttribute {v : Value} (hf : Has (.function f)) (hv : Has v)
    (h : s.setAttribute f a v = .ok s') : s.Work Has [] s' := by
  -- the constructors are for names, and the name of an attribute leads back to it
  have hname : s.setAttr f a.label v = .ok s' := by
    rw [Store.setAttr, Attribute.ofName?_label]
    exact h
  exact .setAttr hf hv hname

theorem deleteAttribute (hf : Has (.function f)) (h : s.deleteAttribute f a = .ok s') :
    s.Work Has [] s' := by
  have hname : s.delAttr f a.label = .ok s' := by
    rw [Store.delAttr, Attribute.ofName?_label]
    exact h
  exact .delAttr hf hname

end Work

/-! ### What an operation comes to -/

/-- **An operation does not get out of a realm** that all it is given is in. -/
theorem Work.draws {Has : Value → Prop} {results : List Value} {P : Object → Prop}
    (h : s.Work Has results s') (hlive : ∀ v, Has v → v.Live s) (hP : s.Realm s' P)
    (hHas : ∀ v, Has v → v.Within P) : s.Draws s' P results := by
  have alive {f : FunctionRef} (hf : Has (.function f)) : s.functions.isAlive f = true :=
    Value.live_function_iff.1 (hlive _ hf)
  have within {o : Object} {v : Value} (hv : Has v) (ho : o ∈ v.handles) : P o := hHas v hv o ho
  cases h with
  | newStr text =>
    -- an immutable object is new by its label, and no object of the store has changed
    exact draws_labels (List.forall_mem_singleton.2 (Value.within_of_handles_eq_nil rfl))
  | newTuple h =>
    exact draws_labels (List.forall_mem_singleton.2 (Value.within_tuple fun v hv => hHas v (h v hv)))
  | newCode name freeVars h =>
    exact draws_labels (List.forall_mem_singleton.2 (Value.within_code fun v hv => hHas v (h v hv)))
  | @newMethod f receiver hf hv =>
    have hmethod : (Value.method (s.newMethod f receiver).1).Within P :=
      Value.within_method (hHas _ hf) (hHas _ hv)
    exact draws_labels (List.forall_mem_singleton.2 hmethod)
  -- a new mutable object is in the realm itself, and what it holds was given
  | newList h => exact hP.draws_newList fun v hv => hHas v (h v hv)
  | newDict h => exact hP.draws_newDict fun v hv => hHas v (h v hv)
  | newCell h => exact hP.draws_newCell fun v hv => hHas v (h v hv)
  | makeFunction qualname hcode hglobals =>
    exact hP.draws_makeFunction qualname (hHas _ hcode) (hHas _ hglobals)
  | makeClosure qualname hcode hglobals hcells =>
    exact hP.draws_makeClosure qualname (hHas _ hcode) (hHas _ hglobals)
      fun r hr => hHas _ (hcells r hr)
  | setList _ h => exact draws_setList _ fun v hv => hHas v (h v hv)
  -- `draws_setDict` lets a dict keep what it held as well; here all that it gets was given
  | setDict _ h => exact draws_setDict _ fun v hv => .inr (hHas v (h v hv))
  | setCell _ h => exact draws_setCell _ fun v hv => hHas v (h v hv)
  -- what is read hangs on the function, or is a dict or tuple made for it
  | getAttr hf h => exact hP.draws_getAttr (alive hf) (within hf List.mem_cons_self) h
  | getMethodAttr hm h =>
    have hlive' := hlive _ hm
    exact hP.draws_getMethodAttr (hlive' _ List.mem_cons_self) (hHas _ hm) h
  | setAttr _ hv h => exact hP.draws_setAttr (hHas _ hv) h
  | delAttr _ h => exact hP.draws_delAttr h
  | setClosure _ hcells h => exact Realm.draws_setClosure (fun r hr => hHas _ (hcells r hr)) h
  | @setDefaults f t _ ht =>
    -- the setters of single fields cannot fail and write one field each
    have hfield : ∀ v ∈ Attribute.defaults.values t, v.Within P :=
      List.forall_mem_singleton.2 (hHas _ ht)
    exact draws_putField 0 f hfield
  | @setKwDefaults f r _ hr =>
    have hfield : ∀ v ∈ Attribute.kwDefaults.values r, v.Within P :=
      List.forall_mem_singleton.2 (hHas _ hr)
    exact draws_putField 0 f hfield
  | @setAnnotations f r _ hr =>
    have hfield : ∀ v ∈ Attribute.annotations.values r, v.Within P :=
      List.forall_mem_singleton.2 (hHas _ hr)
    exact draws_putField 0 f hfield
  | bind hf hv => exact Realm.draws_bind _ (hHas _ hf) (hHas _ hv)
  | toTuple hv h => exact hP.draws_toTuple? (hHas _ hv) h

/-- **A sound store stays sound** when an operation is given what is live, and what comes of it is
live then. -/
theorem Work.grown {Has : Value → Prop} {results : List Value} (h : s.Work Has results s')
    (hs : s.Sound) (hlive : ∀ v, Has v → v.Live s) : s.Grown s' results :=
  hs.grown_of_draws hlive fun _ hP hHas => h.draws hlive hP hHas

end Store

end Callable
