import Callable.Proofs.Run.Script

/-!
# A recording is the forest of the observed calls

A recording without a limit holds what happened and nothing else: for each operation under the
monitor its own event, and for each call the tree of the calls that were observed in it, written out
depth first.

* `CallTree`, `CallTree.flatten` — an observed call with the observed calls in it, and its events:
  the beginning, then the calls in it, then the end.
* `Deed.forestAll` — the trees of the observed calls among some deeds. A call that is not observed
  is left out with everything below it.
* `Course.watch_observed` — what the monitor has heard of an evaluation is the events of its forest,
  whatever the tracer.
* `Monitored.Operation.Reports` — the events of an operation, rule by rule.
* `Monitored.recording_performAll` — a recording without a limit holds the events of the operations
  in their order.

The one induction is on the course of an evaluation, with the depth free: a call that begins while
`d` calls are under way hands its evaluation a monitor at `d + 1`, and takes it back at `d`.
-/

namespace Callable

/-! ### Trees of calls -/

/-- A call that was observed: the name that the function had when the call began, the observed calls
that the evaluation made in its turn, and whether it answered a value. -/
inductive CallTree where
  | node (name : String) (children : List CallTree) (ok : Bool)

namespace CallTree

mutual

/-- The events of a call that begins while so many calls are under way. -/
def flatten (d : Nat) : CallTree → List Event
  | node name children ok =>
    .called name (d + 1) :: (flattenAll (d + 1) children ++ [.returned d ok])

/-- The events of calls that are made one after the other. -/
def flattenAll (d : Nat) : List CallTree → List Event
  | [] => []
  | t :: ts => t.flatten d ++ flattenAll d ts

end

theorem flattenAll_append (d : Nat) (ts ts' : List CallTree) :
    flattenAll d (ts ++ ts') = flattenAll d ts ++ flattenAll d ts' := by
  induction ts with
  | nil => rfl
  | cons t ts ih => rw [List.cons_append, flattenAll, flattenAll, ih, List.append_assoc]

end CallTree

namespace Deed

mutual

/-- The trees of the observed calls in a deed: one if it is an observed call, else none. -/
def forest : Deed → List CallTree
  | .own _ => []
  | .call observed f before _ inner outcome =>
    if observed then [.node (before.function f).qualname (forestAll inner) outcome.isOk] else []

/-- The trees of the observed calls in some deeds. -/
def forestAll : List Deed → List CallTree
  | [] => []
  | d :: ds => d.forest ++ forestAll ds

end

end Deed

/-! ### Hearing events one after the other -/

/-- What a tracer has heard of two sequences of events is what it has heard of the one and then of
the other. -/
theorem Tracer.hearAll_append (t : Tracer) (es es' : List Event) :
    (t.hearAll (es ++ es')).1 = ((t.hearAll es).1.hearAll es').1 := by
  induction es generalizing t with
  | nil => rfl
  | cons e es ih => exact ih (t.hear e).1

/-- A recording without a limit takes in every event. -/
theorem Tracer.hearAll_recording (events : Array Event) (es : List Event) :
    ((Tracer.recording ⟨none, events⟩).hearAll es).1 =
      .recording ⟨none, events ++ es.toArray⟩ := by
  induction es generalizing events with
  | nil => rw [Tracer.hearAll, Array.append_empty]
  | cons e es ih =>
    -- with no limit an event is pushed without a look at how many there are
    change ((Tracer.recording ⟨none, events.push e⟩).hearAll es).1 = _
    rw [ih, Array.push_eq_append, Array.append_assoc, ← List.toArray_cons]

namespace Monitor

/-- The monitor after a sequence of events that leaves the depth as it was. -/
def hearAll (m : Monitor) (es : List Event) : Monitor :=
  { m with tracer := (m.tracer.hearAll es).1 }

theorem hearAll_append (m : Monitor) (es es' : List Event) :
    m.hearAll (es ++ es') = (m.hearAll es).hearAll es' := by
  rw [hearAll, Tracer.hearAll_append]
  rfl

end Monitor

/-! ### What a monitor hears of an evaluation -/

namespace Course

variable {σ ω : Type}

/-- Of a course that began with the silent observer nobody takes notice. -/
theorem watch_silent {w w' : World σ ω} {ds : List Deed}
    (h : Course .quiet .silent w ds w') : w'.watch = w.watch := by
  generalize hobs : Observer.silent = obs at h
  induction h with
  | done => rfl
  | own h _ ih =>
    rw [ih hobs]
    exact h
  | @call obs obs' w w₂ inner ds ev observed f args kwargs hgives _ _ ihbody ih =>
    subst hobs
    -- either observer that a call may be given is the silent one
    obtain rfl : obs' = Observer.silent := by
      cases observed <;> exact hgives
    rw [ih rfl]
    exact ihbody rfl

/-- **What a monitor hears of a call.** From a call that is observed, while `d` calls are under way,
the tracer hears the events of its tree. -/
theorem watch_call {f : FunctionRef} {ev : Evaluator σ Monitor} {args : List Value}
    {kwargs : Table Value} {w : Monitored σ} {ts : List CallTree}
    (hbody : (f.evaluation ev Monitor.observer args kwargs w).2.watch =
      (w.entering f Monitor.observer).watch.hearAll
        (CallTree.flattenAll (w.entering f Monitor.observer).watch.depth ts)) :
    (f.call ev Monitor.observer args kwargs w).2.watch =
      w.watch.hearAll ((CallTree.node (w.store.function f).qualname ts
        (f.evaluation ev Monitor.observer args kwargs w).1.isOk).flatten w.watch.depth) := by
  -- the notice of the end comes last, from the depth to which the evaluation has come back
  rw [FunctionRef.call_eq, World.report_watch, hbody, CallTree.flatten, ← List.cons_append,
    Monitor.hearAll_append]
  rfl

/-- **What a monitor hears of an evaluation.** At the end of a course that began with the monitor as
observer, the tracer has heard the events of the observed calls, and the depth is what it was. -/
theorem watch_observed {w w' : Monitored σ} {ds : List Deed}
    (h : Course .quiet Monitor.observer w ds w') :
    w'.watch = w.watch.hearAll (CallTree.flattenAll w.watch.depth (Deed.forestAll ds)) := by
  generalize hobs : Monitor.observer = obs at h
  induction h with
  | done => rfl
  | own h _ ih =>
    rw [ih hobs, h]
    rfl
  | @call obs obs' w w₂ inner ds ev observed f args kwargs hgives body _ ihbody ih =>
    subst hobs
    -- first the call, then what comes after it, from the monitor that the call has left
    rw [ih rfl, Deed.forestAll, CallTree.flattenAll_append, Monitor.hearAll_append]
    cases observed with
    | false =>
      obtain rfl : obs' = Observer.silent := hgives
      -- the whole subtree is hidden: the call leaves the monitor as it found it
      have hsame : (f.call ev .silent args kwargs w).2.watch = w.watch := body.watch_silent
      rw [hsame]
      rfl
    | true =>
      obtain rfl : obs' = Monitor.observer := hgives
      -- the evaluation is one level deeper, so its forest is written out for that depth
      rw [watch_call (ihbody rfl), Deed.forest, if_pos rfl, CallTree.flattenAll,
        CallTree.flattenAll, List.append_nil]
      rfl

end Course

/-! ### The events of operations -/

namespace Monitored

variable {σ : Type} {ev : Evaluator σ Monitor} {w : Monitored σ}

/-- The tree of a call: the name of the function when the call begins, the forest of the deeds of
its evaluation, and whether that came to a value. -/
def TreeOf (ev : Evaluator σ Monitor) (w : Monitored σ) (f : FunctionRef) (args : List Value)
    (kwargs : Table Value) (t : CallTree) : Prop :=
  ∃ inner,
    Course .quiet Monitor.observer (w.entering f Monitor.observer) inner
      (f.evaluation ev Monitor.observer args kwargs w).2 ∧
    t = .node (w.store.function f).qualname (Deed.forestAll inner)
      (f.evaluation ev Monitor.observer args kwargs w).1.isOk

/-- **The events of an operation.** Of a function that is made, its name and the number of its
cells, and that it has no defaults; of a write or a deletion, whether it was accepted; of a
function that is read through an instance, whether that gave a bound method; of a call, the events
of its tree. There is nothing to report of what is only read, of what cannot be called, and of what
goes past the monitor. -/
inductive Operation.Reports (ev : Evaluator σ Monitor) (w : Monitored σ) :
    Operation σ → List Event → Prop
  | makeFunction {code : Code} {globals : DictRef} {qualname : String} {f : FunctionRef} {s : Store}
      (h : w.store.makeFunction code globals qualname = (f, s)) :
      Reports ev w (.makeFunction code globals qualname)
        [.made (s.function f).qualname (s.function f).cellCount 0]
  | makeClosure {code : Code} {globals : DictRef} {qualname : String} {cells : List CellRef}
      {f : FunctionRef} {s : Store} (h : w.store.makeClosure code globals qualname cells = (f, s)) :
      Reports ev w (.makeClosure code globals qualname cells)
        [.made (s.function f).qualname (s.function f).cellCount 0]
  | call {f : FunctionRef} {args : List Value} {kwargs : Table Value} {t : CallTree}
      (h : TreeOf ev w f args kwargs t) :
      Reports ev w (.call f args kwargs) (t.flatten w.watch.depth)
  | callFunction {f : FunctionRef} {args : List Value} {kwargs : Table Value} {t : CallTree}
      (h : TreeOf ev w f args kwargs t) :
      Reports ev w (.callValue (.function f) args kwargs) (t.flatten w.watch.depth)
  | callMethod {m : Method} {args : List Value} {kwargs : Table Value} {t : CallTree}
      (h : TreeOf ev w m.function (m.receiver :: args) kwargs t) :
      Reports ev w (.callValue (.method m) args kwargs) (t.flatten w.watch.depth)
  | refused {v : Value} {args : List Value} {kwargs : Table Value} (hv : v.isCallable = false) :
      Reports ev w (.callValue v args kwargs) []
  | getAttr (f : FunctionRef) (name : String) : Reports ev w (.getAttr f name) []
  | setAttr (f : FunctionRef) (name : String) (v : Value) :
      Reports ev w (.setAttr f name v) [.attrSet name (w.store.setAttr f name v).isOk]
  | delAttr (f : FunctionRef) (name : String) :
      Reports ev w (.delAttr f name) [.attrDeleted name (w.store.delAttr f name).isOk]
  | bind (f : FunctionRef) (receiver : Value) :
      Reports ev w (.bind f receiver) [.bound ((w.store.bind f receiver).1.kind == .method)]
  | aside (change : Store → σ → Store × σ) : Reports ev w (.aside change) []

/-- The events of operations that are performed one after the other. -/
inductive ReportsAll (ev : Evaluator σ Monitor) :
    Monitored σ → List (Operation σ) → List (List Event) → Prop
  | nil (w : Monitored σ) : ReportsAll ev w [] []
  | cons {w : Monitored σ} {op : Operation σ} {ops : List (Operation σ)} {es : List Event}
      {ess : List (List Event)} (h : op.Reports ev w es)
      (rest : ReportsAll ev (op.perform ev w).2 ops ess) :
      ReportsAll ev w (op :: ops) (es :: ess)

/-- A call by a quiet evaluator has a tree. -/
theorem exists_treeOf (hev : ev.HoldsTo .quiet) (w : Monitored σ) (f : FunctionRef)
    (args : List Value) (kwargs : Table Value) : ∃ t, TreeOf ev w f args kwargs t := by
  obtain ⟨inner, hinner⟩ :=
    hev Monitor.observer (w.requestTo f args kwargs) (w.entering f Monitor.observer)
  exact ⟨_, inner, hinner, rfl⟩

/-- What the monitor hears of a call is the events of its tree. -/
theorem TreeOf.watch_call {f : FunctionRef} {args : List Value} {kwargs : Table Value}
    {t : CallTree} (h : TreeOf ev w f args kwargs t) :
    (f.call ev Monitor.observer args kwargs w).2.watch =
      w.watch.hearAll (t.flatten w.watch.depth) := by
  obtain ⟨inner, hinner, rfl⟩ := h
  exact Course.watch_call hinner.watch_observed

/-- Every operation with a quiet evaluator has events to report. -/
theorem Operation.exists_reports (hev : ev.HoldsTo .quiet) (w : Monitored σ) (op : Operation σ) :
    ∃ es, op.Reports ev w es := by
  cases op with
  | makeFunction code globals qualname => exact ⟨_, .makeFunction rfl⟩
  | makeClosure code globals qualname cells => exact ⟨_, .makeClosure rfl⟩
  | call f args kwargs =>
    obtain ⟨t, ht⟩ := exists_treeOf hev w f args kwargs
    exact ⟨_, .call ht⟩
  | callValue v args kwargs =>
    cases hv : v.isCallable with
    | false => exact ⟨[], .refused hv⟩
    | true =>
      -- what is callable is a function or a bound method
      rcases Value.isCallable_iff.1 hv with hkind | hkind
      · cases v <;> cases hkind
        obtain ⟨t, ht⟩ := exists_treeOf hev w _ args kwargs
        exact ⟨_, .callFunction ht⟩
      · cases v <;> cases hkind
        obtain ⟨t, ht⟩ := exists_treeOf hev w _ (_ :: args) kwargs
        exact ⟨_, .callMethod ht⟩
  | getAttr f name => exact ⟨_, .getAttr f name⟩
  | setAttr f name v => exact ⟨_, .setAttr f name v⟩
  | delAttr f name => exact ⟨_, .delAttr f name⟩
  | bind f receiver => exact ⟨_, .bind f receiver⟩
  | aside change => exact ⟨_, .aside change⟩

/-- **One operation.** The monitor hears the events of the operation and no others, whatever its
tracer does with them. -/
theorem Operation.Reports.watch_perform {op : Operation σ} {es : List Event}
    (h : op.Reports ev w es) : (op.perform ev w).2.watch = w.watch.hearAll es := by
  cases h with
  | @makeFunction code globals qualname f s hmade =>
    -- the event names the defaults of the new function, which has none
    have hdefaults := w.store.defaults_makeFunction code globals qualname
    simp only [Operation.perform, Monitored.makeFunction, reportMade, hear, World.report_watch]
    rw [hdefaults, hmade]
    rfl
  | @makeClosure code globals qualname cells f s hmade =>
    have hdefaults := w.store.defaults_makeClosure code globals qualname cells
    simp only [Operation.perform, Monitored.makeClosure, reportMade, hear, World.report_watch]
    rw [hdefaults, hmade]
    rfl
  | call ht => exact ht.watch_call
  | callFunction ht => exact ht.watch_call
  | callMethod ht => exact ht.watch_call
  | @refused v args kwargs hv =>
    simp only [Operation.perform, Monitored.callValue, Value.call_of_not_isCallable hv]
    rfl
  | getAttr f name =>
    -- a read is not reported, be it refused or not
    simp only [Operation.perform, Monitored.getAttr]
    cases w.store.getAttr f name <;> rfl
  | setAttr f name v =>
    -- the event is reported in either case, with the verdict
    simp only [Operation.perform, Monitored.setAttr]
    cases w.store.setAttr f name v <;> rfl
  | delAttr f name =>
    simp only [Operation.perform, Monitored.delAttr]
    cases w.store.delAttr f name <;> rfl
  | bind f receiver => rfl
  | aside change => rfl

/-- Every sequence of operations with a quiet evaluator has events to report. -/
theorem exists_reportsAll (hev : ev.HoldsTo .quiet) (w : Monitored σ) (ops : List (Operation σ)) :
    ∃ ess, ReportsAll ev w ops ess := by
  induction ops generalizing w with
  | nil => exact ⟨[], .nil w⟩
  | cons op ops ih =>
    obtain ⟨es, hes⟩ := op.exists_reports hev w
    obtain ⟨ess, hess⟩ := ih (op.perform ev w).2
    exact ⟨es :: ess, .cons hes hess⟩

/-- **A sequence of operations.** The monitor hears the events of the operations in their order. -/
theorem ReportsAll.watch_performAll {ops : List (Operation σ)} {ess : List (List Event)}
    (h : ReportsAll ev w ops ess) : (performAll ev ops w).watch = w.watch.hearAll ess.flatten := by
  induction h with
  | nil w => rfl
  | cons h _ ih => rw [performAll, ih, h.watch_perform, List.flatten_cons, Monitor.hearAll_append]

/-- **A recording is the forest of the observed calls.** Let evaluators leave the notes of the
observer alone, and give to every call the observer that they were handed, or none. Then every
sequence of operations has events to report, operation by operation, and a recording without a limit
holds these events in their order, after those that it held before; and the depth is what it was. -/
theorem recording_performAll (hev : ev.HoldsTo .quiet) (ops : List (Operation σ))
    {events : Array Event} {d : Nat} (hw : w.watch = ⟨.recording ⟨none, events⟩, d⟩) :
    (∃ ess, ReportsAll ev w ops ess) ∧
      ∀ ess, ReportsAll ev w ops ess →
        (performAll ev ops w).watch = ⟨.recording ⟨none, events ++ ess.flatten.toArray⟩, d⟩ := by
  refine ⟨exists_reportsAll hev w ops, fun ess hess => ?_⟩
  -- any tracer is told the same, and a recording without a limit keeps all of it
  rw [hess.watch_performAll, hw, Monitor.hearAll, Tracer.hearAll_recording]

/-! ### A recording of a script -/

section Sample

open Script

/-- A step of a body that calls what is in a register, and goes on if that fails. -/
def tryCall (register : String) (observed : Bool) : BodyStep :=
  ⟨⟨.call ⟨.register register, [], [], .value, observed⟩, none⟩, true⟩

/-- One body fails. The other one sees it fail when it calls it, first observed and then plainly,
and then tries to call a string. In between it gives itself another name. -/
def sampleBodies : Table Body :=
  .ofList
    [("inner", ⟨none, [], .failure (.internal "stop")⟩),
      ("outer", ⟨none, [tryCall "$inner" true,
        ⟨⟨.function (.setAttr (.register "$outer") "__qualname__" (.str "renamed")), none⟩, false⟩,
        tryCall "$inner" false, tryCall "$text" true], .result .none⟩)]

/-- A script in which the two functions are known, under a recording. -/
def sampleWorld : Monitored Stage where
  store := .empty
  host := { Stage.start with
    outermost := .ofList [("$inner", .function ⟨0⟩), ("$outer", .function ⟨1⟩),
      ("$text", .str ⟨⟨0⟩, "text"⟩)] }
  watch := .start (.recording (.start none))
  console := ""

/-- Make the two functions, call the second one twice, and bind it. -/
def sampleOperations : List (Operation Stage) :=
  [.makeFunction ⟨⟨0⟩, "inner", [], []⟩ ⟨0⟩ "", .makeFunction ⟨⟨0⟩, "outer", [], []⟩ ⟨0⟩ "",
    .call ⟨1⟩ [] .empty, .callValue (.function ⟨1⟩) [] .empty, .callValue .none [] .empty,
    .bind ⟨1⟩ (.int 0)]

/-- What a recording holds, and nothing of other tracers. -/
def recorded : Tracer → List Event
  | .recording r => r.events.toList
  | _ => []

theorem recording_performAll_sample :
    ∃ ess, ReportsAll (evaluate sampleBodies 2) sampleWorld sampleOperations ess ∧
      ess.flatten =
        [.made "inner" 0 0, .made "outer" 0 0,
          .called "outer" 1, .called "inner" 2, .returned 1 false, .returned 0 true,
          .called "renamed" 1, .called "inner" 2, .returned 1 false, .returned 0 true,
          .bound true] := by
  -- the script runs under the orderly conduct, which is stricter than the quiet one
  have hev : (evaluate sampleBodies 2 : Evaluator Stage Monitor).HoldsTo .quiet :=
    (holdsTo_evaluate sampleBodies 2).mono Conduct.orderly_within_quiet
  -- what the recording holds is computed, and the theorem says of which events it is made up
  obtain ⟨⟨ess, hess⟩, hall⟩ := recording_performAll hev sampleOperations
    (show sampleWorld.watch = ⟨.recording ⟨none, #[]⟩, 0⟩ from rfl)
  have hrecorded : recorded (performAll (evaluate sampleBodies 2) sampleOperations
      sampleWorld).watch.tracer = ess.flatten := by
    rw [hall ess hess]
    exact congrArg Array.toList (Array.empty_append ..)
  refine ⟨ess, hess, ?_⟩
  rw [← hrecorded]
  decide +kernel

end Sample

end Monitored

end Callable
