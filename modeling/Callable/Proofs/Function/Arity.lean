import Callable.Proofs.Run.Script

/-!
# Closures and the code they are for

Code and closure of a function are written by two operations, and each of them looks at the other
field before it writes. But a function can be made from code that needs cells without having any,
so the two numbers need not agree from the beginning. What holds of every function is weaker: there
is no closure, or there are as many cells as the code needs, and not none. From this it follows
that the numbers agree for good as soon as they agree at all.

* `FunctionObject.ClosureFits`, `FunctionObject.IsBalanced` — the two properties, and
  `Revised.closureFits`, `Revised.counts` what a revision of the fields preserves.
* `Store.Tracks` — what is preserved for one function over a run, whether it lives or not.
* `Course.closure_arity` — the result on runs: in each moment the closure fits, and from the first
  moment in which the numbers agree they stay, also in the requests.
-/

namespace Callable

/-! ### What a revision preserves -/

namespace FunctionObject

/-- **The closure fits.** If there is one it has cells, as many as the code has free variables. -/
def ClosureFits (fn : FunctionObject) : Prop :=
  ∀ cells, fn.closure = some cells → cells ≠ [] ∧ cells.length = fn.code.freeVarCount

/-- As many cells as the code has free variables, none if there is no closure. -/
def IsBalanced (fn : FunctionObject) : Prop := fn.cellCount = fn.code.freeVarCount

theorem cellCount_of_closure {fn : FunctionObject} {cells : List CellRef}
    (h : fn.closure = some cells) : fn.cellCount = cells.length := by
  rw [cellCount, h]
  rfl

theorem ne_nil_of_closureOf {cells cells' : List CellRef} (h : closureOf cells = some cells') :
    cells' = cells ∧ cells ≠ [] := by
  cases cells with
  | nil => cases h
  | cons r cells =>
    cases h
    exact ⟨rfl, List.cons_ne_nil r cells⟩

/-- A closure of as many cells as the code needs fits, whatever the closure was. -/
theorem closureFits_closureOf {fn : FunctionObject} {cells : List CellRef}
    (h : cells.length = fn.code.freeVarCount) :
    ClosureFits { fn with closure := closureOf cells } := by
  intro cells' hcells
  obtain ⟨rfl, hne⟩ := ne_nil_of_closureOf hcells
  exact ⟨hne, h⟩

theorem Revised.closureFits {fn fn' : FunctionObject} (h : fn.Revised fn')
    (hfits : fn.ClosureFits) : fn'.ClosureFits := by
  intro cells hcells
  cases h with
  | kept hcode hclosure =>
    rw [hclosure] at hcells
    rw [hcode]
    exact hfits cells hcells
  | @code c hc =>
    -- the closure stays, and the new code was compared with the number of its cells
    have hlength : cells.length = c.freeVarCount := calc
      cells.length = fn.cellCount := (cellCount_of_closure hcells).symm
      _ = c.freeVarCount := hc.symm
    exact ⟨(hfits cells hcells).1, hlength⟩
  | closure hc => exact closureFits_closureOf hc cells hcells

/-- Once the numbers agree a revision changes neither. -/
theorem Revised.counts {fn fn' : FunctionObject} (h : fn.Revised fn') (hbal : fn.IsBalanced) :
    fn'.cellCount = fn.cellCount ∧ fn'.code.freeVarCount = fn.code.freeVarCount := by
  cases h with
  | kept hcode hclosure =>
    rw [cellCount, hclosure, hcode]
    exact ⟨rfl, rfl⟩
  | code hc => exact ⟨rfl, hc.trans hbal⟩
  | @closure cells hc =>
    refine ⟨?_, rfl⟩
    calc cellCount { fn with closure := closureOf cells } = cells.length :=
          length_getD_closureOf cells
      _ = fn.code.freeVarCount := hc
      _ = fn.cellCount := hbal.symm

/-- The fields that a function has when it is gone. -/
theorem closureFits_default : (default : FunctionObject).ClosureFits := nofun

theorem isBalanced_default : (default : FunctionObject).IsBalanced := rfl

end FunctionObject

/-! ### One function over a run -/

namespace Store

/-- **Making a function.** It is made without a closure, from any code, or with one cell for each
free variable of the code. -/
inductive Makes (s : Store) : FunctionRef → Store → Prop
  | function (code : Code) (globals : DictRef) (qualname : String) :
      Makes s (s.makeFunction code globals qualname).1 (s.makeFunction code globals qualname).2
  | closure (code : Code) (globals : DictRef) (qualname : String) {cells : List CellRef}
      (h : cells.length = code.freeVarCount) :
      Makes s (s.makeClosure code globals qualname cells).1
        (s.makeClosure code globals qualname cells).2

/-- The function was made, and as long as it lives its fields have the property. -/
structure Tracks (s : Store) (f : FunctionRef) (P : FunctionObject → Prop) : Prop where
  made : f.index < s.functions.size
  fields : ∀ {fn}, s.functions.get? f = some fn → P fn

/-- What revisions preserve, steps preserve. -/
theorem Tracks.step {s s' : Store} {f : FunctionRef} {P : FunctionObject → Prop}
    (hP : ∀ {fn fn' : FunctionObject}, fn.Revised fn' → P fn → P fn') (h : s.Tracks f P)
    (hstep : s.Step s') : s'.Tracks f P := by
  refine ⟨Nat.lt_of_lt_of_le h.made hstep.size_le, fun hfn' => ?_⟩
  -- a function that lives after the step lived before it, since its number was given out already
  obtain ⟨fn, hfn, hrev⟩ := hstep.exists_revised h.made hfn'
  exact hP hrev (h.fields hfn)

/-- What holds as long as the function lives, and of one that is gone, holds of the function. -/
theorem Tracks.function {s : Store} {f : FunctionRef} {P : FunctionObject → Prop}
    (h : s.Tracks f P) (hdefault : P default) : P (s.function f) := by
  change P ((s.functions.get? f).getD default)
  cases hfn : s.functions.get? f with
  | none => exact hdefault
  | some fn => exact h.fields hfn

end Store

/-- What revisions preserve of a function holds in every moment of a trail. -/
theorem Trail.tracks {s s' : Store} {ms : List Moment} (h : Trail s ms s') {f : FunctionRef}
    {P : FunctionObject → Prop}
    (hP : ∀ {fn fn' : FunctionObject}, fn.Revised fn' → P fn → P fn') (hs : s.Tracks f P) :
    ∀ m ∈ ms, m.store.Tracks f P := by
  induction h with
  | nil => nofun
  | cons hstep _ _ ih =>
    have hm := hs.step hP hstep
    exact List.forall_mem_cons.2 ⟨hm, ih hm⟩

/-! ### Closures over a run -/

namespace Store

/-- A function that was just made has a closure that fits, if it has one. -/
theorem Makes.tracks {s s' : Store} {f : FunctionRef} (h : s.Makes f s') :
    s'.Tracks f FunctionObject.ClosureFits := by
  -- either way it is a new function, with fields of which the closure fits
  have tracks {fn : FunctionObject} (hfits : fn.ClosureFits) :
      (s.newFunction fn).2.Tracks (s.newFunction fn).1 FunctionObject.ClosureFits := by
    refine ⟨?_, fun {fn'} hfn' => ?_⟩
    · change (s.functions.alloc fn).1.index < (s.functions.alloc fn).2.size
      rw [Heap.size_alloc]
      exact Nat.lt_succ_self _
    · change (s.functions.alloc fn).2.get? (s.functions.alloc fn).1 = some fn' at hfn'
      rw [Heap.get?_alloc, if_pos rfl] at hfn'
      cases hfn'
      exact hfits
  cases h with
  | function code globals qualname => exact tracks nofun
  | closure code globals qualname hcells =>
    exact tracks (FunctionObject.closureFits_closureOf hcells)

end Store

namespace Trail

variable {s s' : Store} {f : FunctionRef} {m : Moment} {before after : List Moment}

/-- A trail from one of its moments on. -/
theorem split (h : Trail s (before ++ m :: after) s') :
    s.functions.size ≤ m.store.functions.size ∧ Trail m.store (m :: after) s' := by
  -- the moments before it only count for the numbers that were given out
  induction before generalizing s with
  | nil =>
    cases h with
    | cons hstep hhanded rest => exact ⟨hstep.size_le, .cons (.rest m.store) hhanded rest⟩
  | cons m₀ before ih =>
    cases h with
    | cons hstep _ rest =>
      obtain ⟨hsize, htrail⟩ := ih rest
      exact ⟨Nat.le_trans hstep.size_le hsize, htrail⟩

/-- What is handed over has the fields of the function. -/
theorem exists_request {ms : List Moment} (h : Trail s ms s') {r : Request}
    (hm : m ∈ ms) (hr : m.handed = some (f, r)) :
    ∃ locals args kwargs, r = (m.store.function f).request locals args kwargs := by
  induction h with
  | nil => cases hm
  | cons _ hhanded _ ih =>
    rcases List.mem_cons.1 hm with rfl | hm
    · exact hhanded hr
    · exact ih hm

/-- **From a moment in which the numbers agree.** As long as the function lives neither changes, and
requests of the function carry as many cells as their code has free variables. -/
theorem counts_of_isBalanced (h : Trail s (before ++ m :: after) s')
    (hmade : f.index < s.functions.size) (hbal : (m.store.function f).IsBalanced) :
    ∀ m' ∈ m :: after,
      (m'.store.functions.isAlive f = true →
        (m'.store.function f).cellCount = (m.store.function f).cellCount ∧
          (m'.store.function f).code.freeVarCount = (m.store.function f).code.freeVarCount) ∧
      ∀ r, m'.handed = some (f, r) → (r.closure.getD []).length = r.code.freeVarCount := by
  obtain ⟨hsize, htrail⟩ := h.split
  -- what is preserved: the numbers are those of this moment, and so they agree
  let P (fn : FunctionObject) : Prop :=
    fn.cellCount = (m.store.function f).cellCount ∧
      fn.code.freeVarCount = (m.store.function f).code.freeVarCount
  have hbalP {fn : FunctionObject} (hP : P fn) : fn.IsBalanced := calc
    fn.cellCount = (m.store.function f).cellCount := hP.1
    _ = (m.store.function f).code.freeVarCount := hbal
    _ = fn.code.freeVarCount := hP.2.symm
  have hrevised {fn fn' : FunctionObject} (hrev : fn.Revised fn') (hP : P fn) : P fn' := by
    obtain ⟨hcells, hvars⟩ := hrev.counts (hbalP hP)
    exact ⟨hcells.trans hP.1, hvars.trans hP.2⟩
  have hstart : m.store.Tracks f P := by
    refine ⟨Nat.lt_of_lt_of_le hmade hsize, fun {fn} hfn => ?_⟩
    obtain rfl : m.store.function f = fn := by
      rw [Store.function, Heap.get, hfn]
      rfl
    exact ⟨rfl, rfl⟩
  intro m' hm'
  have htracks : m'.store.Tracks f P := htrail.tracks hrevised hstart m' hm'
  refine ⟨fun halive => htracks.fields (Heap.get?_eq_some_get halive), fun r hr => ?_⟩
  -- a request takes its fields from the function, and those of a function that is gone agree, too
  obtain ⟨locals, args, kwargs, rfl⟩ := htrail.exists_request hm' hr
  have htracksbal : m'.store.Tracks f FunctionObject.IsBalanced :=
    ⟨htracks.made, fun hfn => hbalP (htracks.fields hfn)⟩
  exact htracksbal.function FunctionObject.isBalanced_default

end Trail

/-- **Closures and the code they are for.** Let a function be made without a closure, or with one
cell for each free variable of its code, and let code around the library go on from there as it
likes: by operations on functions, under a monitor or not, in calls and outside of them. Then in
every moment the function has no closure, or one of as many cells as its code has free variables,
and not of none. And from every moment in which its cells are as many as the free variables neither
number changes any more, as long as there is the function, and each request that is handed over for
it carries as many cells as its code has free variables. -/
theorem Course.closure_arity {σ ω : Type} {obs : Observer ω} {w w' : World σ ω} {ds : List Deed}
    {s : Store} {f : FunctionRef} (hmake : s.Makes f w.store) (h : Course .lawful obs w ds w') :
    (∀ m ∈ ⟨w.store, none⟩ :: Deed.momentsAll ds, (m.store.function f).ClosureFits) ∧
      ∀ before m after, ⟨w.store, none⟩ :: Deed.momentsAll ds = before ++ m :: after →
        (m.store.function f).IsBalanced → ∀ m' ∈ m :: after,
          (m'.store.functions.isAlive f = true →
            (m'.store.function f).cellCount = (m.store.function f).cellCount ∧
              (m'.store.function f).code.freeVarCount = (m.store.function f).code.freeVarCount) ∧
          ∀ r, m'.handed = some (f, r) → (r.closure.getD []).length = r.code.freeVarCount := by
  -- the beginning counts as a moment, to which it takes no step
  have htrail : Trail w.store (⟨w.store, none⟩ :: Deed.momentsAll ds) w'.store :=
    .cons (.rest w.store) nofun h.trail
  refine ⟨fun m hm => ?_, fun before m after hms hbal => ?_⟩
  · have htracks := htrail.tracks FunctionObject.Revised.closureFits hmake.tracks m hm
    exact htracks.function FunctionObject.closureFits_default
  · rw [hms] at htrail
    exact htrail.counts_of_isBalanced hmake.tracks.made hbal

/-! ### A function that gets its closure late -/

section Late

open Script

/-- Code with one free variable. -/
def lateCode : Code := ⟨⟨0⟩, "f", [], ["x"]⟩

/-- When it runs it gives its function another closure and then other code. -/
def lateBodies : Table Body :=
  .ofList [("f", ⟨none,
    [⟨⟨.function (.setClosure (.register "$f") (some [.emptyCell])), none⟩, true⟩,
      ⟨⟨.function (.setAttr (.register "$f") "__code__" (.code "g" [] ["y"])), none⟩, true⟩],
    .result .none⟩)]

/-- A script to which the function is known, which was made and has no closure. -/
def lateWorld : World Stage Unit where
  store := (Store.empty.makeFunction lateCode ⟨0⟩ "").2
  host := { Stage.start with outermost := .ofList [("$f", .function ⟨0⟩)] }
  watch := ()
  console := ""

/-- It has got a closure of a single cell. -/
def lateClosed : World Stage Unit :=
  { lateWorld with
    store := lateWorld.store.setFunction ⟨0⟩
      { lateWorld.store.function ⟨0⟩ with closure := some [⟨0⟩] } }

/-- The numbers do not agree at first. They do when the closure is there, and a call after that
hands over one cell for the one free variable. -/
theorem Course.closure_arity_late :
    ∃ ds w' before m after r, Course .lawful Observer.silent lateWorld ds w' ∧
      ⟨lateWorld.store, none⟩ :: Deed.momentsAll ds = before ++ m :: after ∧
      ¬(lateWorld.store.function ⟨0⟩).IsBalanced ∧ (m.store.function ⟨0⟩).IsBalanced ∧
      (∃ m' ∈ after, m'.handed = some (⟨0⟩, r)) ∧
      (r.closure.getD []).length = r.code.freeVarCount ∧ r.code.freeVarCount = 1 := by
  have hmake : Store.empty.Makes ⟨0⟩ lateWorld.store := .function lateCode ⟨0⟩ ""
  have hset : lateWorld.store.setClosure ⟨0⟩ (some [⟨0⟩]) = .ok lateClosed.store := rfl
  have hev : (evaluate lateBodies 2 : Evaluator Stage Unit).HoldsTo .lawful :=
    (holdsTo_evaluate lateBodies 2).mono Conduct.orderly_within_lawful
  let r := lateClosed.requestTo ⟨0⟩ [] .empty
  obtain ⟨inner, hinner⟩ := hev .silent r (lateClosed.entering ⟨0⟩ .silent)
  have hcall : Course .lawful Observer.silent lateClosed
      [.call true ⟨0⟩ lateClosed.store r inner
        (FunctionRef.evaluation ⟨0⟩ (evaluate lateBodies 2) .silent [] .empty lateClosed).1]
      (FunctionRef.call ⟨0⟩ (evaluate lateBodies 2) .silent [] .empty lateClosed).2 :=
    .call trivial hinner (.done _ _)
  have hstep : lateWorld.store.Step lateClosed.store := .setClosure hset
  have hcourse : Course .lawful Observer.silent lateWorld _ _ := .own hstep hcall
  let entry : Moment := ⟨(lateClosed.store.newDict .empty).2, some (⟨0⟩, r)⟩
  let after := entry :: (Deed.momentsAll inner ++ [])
  have harity := (Course.closure_arity hmake hcourse).2 [⟨lateWorld.store, none⟩]
    ⟨lateClosed.store, none⟩ after rfl rfl entry (by simp [after])
  exact ⟨_, _, [⟨lateWorld.store, none⟩], ⟨lateClosed.store, none⟩, after, r, hcourse, rfl,
    nofun, rfl, ⟨entry, List.mem_cons_self, rfl⟩, harity.2 r rfl, rfl⟩

end Late

end Callable
