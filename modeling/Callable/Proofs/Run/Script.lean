import Callable.Proofs.Run.Step
import Callable.Script.Session

/-!
# Scripts are orderly

The evaluator of a script runs whatever steps the script has for a function, calls among them, and
whatever the steps are it is orderly: it leaves the notes of the observer alone, gives to a call
the observer that it was handed or none, and changes the store by steps of the library. So what is
proved of runs of evaluators that hold to such a conduct is proved of all scripts.

* `Run.IsOrderly` — a computation of a script has an orderly course wherever it starts. It is closed
  under the ways to put computations together (`IsOrderly.bind`, `IsOrderly.tryCatch`).
* `isOrderly_eval`, `isOrderly_action`, `isOrderly_body` — expressions, actions and bodies are
  orderly; there is one lemma for each family of actions, with one line for each action.
* `holdsTo_evaluate`, `holdsTo_evaluator` — the result, by induction on the depth to which calls
  may be nested.
-/

namespace Callable.Script

variable {ω α β : Type} {obs : Observer ω}

namespace Run

/-- From this world the computation has an orderly course. -/
def IsOrderlyAt (obs : Observer ω) (w : World Stage ω) (m : Run ω α) : Prop :=
  ∃ ds, Course .orderly obs w ds (m w).2

/-- **An orderly computation.** Wherever it starts under the observer, it has an orderly course. -/
def IsOrderly (obs : Observer ω) (m : Run ω α) : Prop := ∀ w, m.IsOrderlyAt obs w

namespace IsOrderlyAt

variable {w : World Stage ω} {m : Run ω α}

/-- One thing is done in the store or on the stage. -/
theorem own (hstep : w.store.Step (m w).2.store) (hwatch : (m w).2.watch = w.watch) :
    m.IsOrderlyAt obs w :=
  ⟨_, .own ⟨hstep, hwatch⟩ (.done obs _)⟩

/-- One computation after the other. -/
theorem bind {k : α → Run ω β} (hm : m.IsOrderlyAt obs w)
    (hk : ∀ {a w'}, m w = (.ok a, w') → (k a).IsOrderlyAt obs w') :
    (m >>= k).IsOrderlyAt obs w := by
  obtain ⟨ds, hds⟩ := hm
  -- the two layers of the monad are opened, so that the cases are those of what `m` returned
  change ∃ ds, Course .orderly obs w ds (match m w with | (r, w') => ExceptT.bindCont k r w').2
  cases hr : m w with
  | mk r w' =>
    rw [hr] at hds
    cases r with
    -- a failure skips what follows, so the course is that of the first part alone
    | error e => exact ⟨ds, hds⟩
    | ok a =>
      obtain ⟨ds', hds'⟩ := hk hr
      exact ⟨ds ++ ds', hds.append hds'⟩

/-- What goes on from the store goes on from this one. -/
theorem ofStore {k : Store → Run ω β} (hk : (k w.store).IsOrderlyAt obs w) :
    (Run.store >>= k).IsOrderlyAt obs w := hk

/-- What goes on from the world goes on from this one. -/
theorem ofGet {k : World Stage ω → Run ω β} (hk : (k w).IsOrderlyAt obs w) :
    (get >>= k : Run ω β).IsOrderlyAt obs w := hk

/-- A world to which there is a course may take the place of this one. -/
theorem ofSet {w' : World Stage ω} {k : PUnit → Run ω β} (h : ∃ ds, Course .orderly obs w ds w')
    (hk : (k ⟨⟩).IsOrderlyAt obs w') : (set w' >>= k : Run ω β).IsOrderlyAt obs w := by
  obtain ⟨ds, hds⟩ := h
  obtain ⟨ds', hds'⟩ := hk
  exact ⟨ds ++ ds', hds.append hds'⟩

theorem ofOrFault {r : Except Fault α} {k : α → Run ω β}
    (hk : ∀ {a}, r = .ok a → (k a).IsOrderlyAt obs w) :
    (Run.orFault r >>= k).IsOrderlyAt obs w := by
  cases r with
  | error e => exact ⟨[], .done obs w⟩
  | ok a => exact hk rfl

/-- A store that was made from the one that there is may take its place. -/
theorem replaceStore {s' : Store} (h : w.store.Step s') :
    (Run.modifyStore fun _ => s' : Run ω Unit).IsOrderlyAt obs w := .own h rfl

end IsOrderlyAt

namespace IsOrderly

theorem pure (a : α) : IsOrderly obs (Pure.pure a : Run ω α) := fun w => ⟨[], .done obs w⟩

theorem throw (e : Stop) : IsOrderly obs (MonadExcept.throw e : Run ω α) :=
  fun w => ⟨[], .done obs w⟩

theorem bind {m : Run ω α} {k : α → Run ω β} (hm : m.IsOrderly obs)
    (hk : ∀ a, (k a).IsOrderly obs) : (m >>= k).IsOrderly obs :=
  fun w => (hm w).bind fun _ => hk _ _

theorem tryCatch {m : Run ω α} {h : Stop → Run ω α} (hm : m.IsOrderly obs)
    (hh : ∀ e, (h e).IsOrderly obs) : (MonadExcept.tryCatch m h).IsOrderly obs := by
  intro w
  obtain ⟨ds, hds⟩ := hm w
  change ∃ ds, Course .orderly obs w ds (ExceptT.tryCatch m h w).2
  rw [ExceptT.tryCatch, ExceptT.mk]
  change ∃ ds, Course .orderly obs w ds (StateT.bind m _ w).2
  rw [StateT.bind]
  cases hr : m w with
  | mk r w' =>
    rw [hr] at hds
    cases r with
    | ok a => exact ⟨ds, hds⟩
    | error e =>
      -- what was done before the failure stays done, and the handler goes on from there
      obtain ⟨ds', hds'⟩ := hh e w'
      exact ⟨ds ++ ds', hds.append hds'⟩

/-! ### Reading and writing -/

theorem store : IsOrderly obs (Run.store : Run ω Store) := fun w => ⟨[], .done obs w⟩

theorem stage : IsOrderly obs (Run.stage : Run ω Stage) := fun w => ⟨[], .done obs w⟩

theorem modifyStage (f : Stage → Stage) : IsOrderly obs (Run.modifyStage f : Run ω Unit) :=
  fun w => .own (.rest w.store) rfl

theorem readConsole : IsOrderly obs (Run.readConsole : Run ω String) :=
  fun w => .own (.rest w.store) rfl

theorem settleFor (f : FunctionRef) : IsOrderly obs (Run.settleFor f : Run ω Unit) := by
  intro w
  -- settling rests or releases from the roots of the stage, and both are steps
  have hstep : w.store.Step (Script.settleFor f w).store := by
    rw [Script.settleFor]
    split
    · exact .rest w.store
    · exact .release w.store w.host.roots
  have hwatch : (Script.settleFor f w).watch = w.watch := by
    rw [Script.settleFor]
    split <;> rfl
  exact .own hstep hwatch

theorem make {f : Store → α × Store} (h : ∀ s : Store, s.Step (f s).2) :
    IsOrderly obs (Run.make f : Run ω α) :=
  fun w => .own (h w.store) rfl

theorem modifyStore {f : Store → Store} (h : ∀ s : Store, s.Step (f s)) :
    IsOrderly obs (Run.modifyStore f : Run ω Unit) :=
  fun w => .own (h w.store) rfl

theorem require (a : Option α) : IsOrderly obs (Run.require a : Run ω α) := by
  cases a with
  | none => exact .throw _
  | some a => exact .pure a

theorem orFault (r : Except Fault α) : IsOrderly obs (Run.orFault r : Run ω α) := by
  cases r with
  | error e => exact .throw _
  | ok a => exact .pure a

theorem attempt {f : Store → Except Fault (α × Store)}
    (h : ∀ {s a s'}, f s = .ok (a, s') → s.Step s') : IsOrderly obs (Run.attempt f : Run ω α) :=
  -- `replaceStore` has to know that the new store was made from the current one, hence `ofStore`
  fun _ => .ofStore (.ofOrFault fun hf =>
    (IsOrderlyAt.replaceStore (h hf)).bind fun _ => IsOrderly.pure _ _)

theorem attemptWrite {f : Store → Except Fault Store}
    (h : ∀ {s s'}, f s = .ok s' → s.Step s') : IsOrderly obs (Run.attemptWrite f : Run ω Unit) :=
  fun _ => .ofStore (.ofOrFault fun hf => .replaceStore (h hf))

theorem answer (a : Answer) : IsOrderly obs (Run.answer a : Run ω Result) := .pure _

theorem done : IsOrderly obs (Run.done : Run ω Result) := .pure _

theorem give (v : Value) : IsOrderly obs (Run.give v : Run ω Result) :=
  .bind .store fun _ => .pure _

theorem giveOptional (v : Option Value) : IsOrderly obs (Run.giveOptional v : Run ω Result) :=
  .bind .store fun _ => .pure _

theorem showOptional (v : Option Value) : IsOrderly obs (Run.showOptional v : Run ω Result) :=
  .bind (.giveOptional v) fun _ => .pure _

theorem giveText (cs : List Char) : IsOrderly obs (Run.giveText cs : Run ω Result) := .answer _

end IsOrderly

end Run

open Run

/-! ### Expressions -/

mutual

theorem isOrderly_eval : ∀ e : Expr, IsOrderly obs (e.eval : Run ω Value)
  | .none | .bool _ | .int _ | .float _ => .pure _
  | .str text => .bind (.make fun s => .newStr s text) fun _ => .pure _
  | .tuple es => .bind (isOrderly_evalItems es) fun vs =>
    .bind (.make fun s => .newTuple s vs) fun _ => .pure _
  | .list es => .bind (isOrderly_evalItems es) fun vs =>
    .bind (.make fun s => .newList s vs) fun _ => .pure _
  | .dict es => .bind (isOrderly_evalEntries es) fun vs =>
    .bind (.make fun s => .newDict s (.ofList vs)) fun _ => .pure _
  | .emptyCell => .bind (.make fun s => .newCell s none) fun _ => .pure _
  | .cell e => .bind (isOrderly_eval e) fun v =>
    .bind (.make fun s => .newCell s (some v)) fun _ => .pure _
  | .code name es freeVars => .bind (isOrderly_evalItems es) fun vs =>
    .bind (.make fun s => .newCode s name vs freeVars) fun _ => .pure _
  | .register name => .bind .stage fun _ => .require _
  | .item e i => .bind (isOrderly_eval e) fun v => by
    cases v with
    | tuple t => exact .require _
    | list r => exact .bind .store fun _ => .require _
    | _ => exact .throw _
  | .entry e key => .bind (isOrderly_eval e) fun v => by
    cases v with
    | dict r => exact .bind .store fun _ => .require _
    | _ => exact .throw _
  | .sum a b => .bind (isOrderly_eval a) fun v => .bind (isOrderly_eval b) fun u => by
    cases v <;> cases u <;> first | exact .throw _ | exact .pure _

theorem isOrderly_evalItems : ∀ es : List Expr,
    IsOrderly obs (Expr.evalItems es : Run ω (List Value))
  | [] => .pure _
  | e :: es => .bind (isOrderly_eval e) fun _ => .bind (isOrderly_evalItems es) fun _ => .pure _

theorem isOrderly_evalEntries : ∀ es : List (String × Expr),
    IsOrderly obs (Expr.evalEntries es : Run ω (List (String × Value)))
  | [] => .pure _
  | (_, e) :: es =>
    .bind (isOrderly_eval e) fun _ => .bind (isOrderly_evalEntries es) fun _ => .pure _

end

section Expressions

variable (e : Expr)

theorem isOrderly_evalList : IsOrderly obs (e.evalList : Run ω ListRef) :=
  .bind (isOrderly_eval e) fun _ => .require _

theorem isOrderly_evalDict : IsOrderly obs (e.evalDict : Run ω DictRef) :=
  .bind (isOrderly_eval e) fun _ => .require _

theorem isOrderly_evalCell : IsOrderly obs (e.evalCell : Run ω CellRef) :=
  .bind (isOrderly_eval e) fun _ => .require _

theorem isOrderly_evalCode : IsOrderly obs (e.evalCode : Run ω Code) :=
  .bind (isOrderly_eval e) fun _ => .require _

theorem isOrderly_evalFunction : IsOrderly obs (e.evalFunction : Run ω FunctionRef) :=
  .bind (isOrderly_eval e) fun _ => .require _

theorem isOrderly_evalMethod : IsOrderly obs (e.evalMethod : Run ω Method) :=
  .bind (isOrderly_eval e) fun _ => .require _

theorem isOrderly_evalTuple? : IsOrderly obs (evalTuple? e : Run ω (Option Tuple)) :=
  .bind (isOrderly_eval e) fun v => by
    cases v <;> first | exact .pure _ | exact .bind (.require _) fun _ => .pure _

theorem isOrderly_evalDict? : IsOrderly obs (evalDict? e : Run ω (Option DictRef)) :=
  .bind (isOrderly_eval e) fun v => by
    cases v <;> first | exact .pure _ | exact .bind (.require _) fun _ => .pure _

end Expressions

theorem isOrderly_evalClosure (cells : Option (List Expr)) :
    IsOrderly obs (evalClosure cells : Run ω (Option (List CellRef))) := by
  cases cells with
  | none => exact .pure _
  | some es => exact .bind (.bind (isOrderly_evalItems es) fun _ => .require _) fun _ => .pure _

theorem isOrderly_evalWeak (name : String) : IsOrderly obs (evalWeak name : Run ω WeakRef) :=
  .bind .stage fun _ => .bind (.require _) fun _ => .bind (.settleFor _) fun _ => .pure _

theorem isOrderly_evalMaking (m : Making) :
    IsOrderly obs (m.eval : Run ω (Code × DictRef × Option (List CellRef))) :=
  .bind (isOrderly_evalCode m.code) fun _ => .bind (isOrderly_evalDict m.globals) fun _ =>
    .bind (isOrderly_evalClosure m.cells) fun _ => .pure _

/-! ### Actions -/

theorem isOrderly_wrapTimes (wr : Wrapper) :
    ∀ (n : Nat) (v : Value), IsOrderly obs (wr.wrapTimes n v : Run ω Value)
  | 0, _ => .pure _
  | n + 1, v => by
    -- one layer at a time, whatever is wrapped: the recursion is on the number of layers
    have hwrap : IsOrderly obs (wr.wrap v : Run ω Value) := by
      cases wr with
      | list => exact .bind (.make fun s => .newList s [v]) fun _ => .pure _
      | tuple => exact .bind (.make fun s => .newTuple s [v]) fun _ => .pure _
      | dict => exact .bind (.make fun s => .newDict s _) fun _ => .pure _
    exact .bind hwrap fun v' => isOrderly_wrapTimes wr n v'

theorem isOrderly_valueAction (a : ValueAction) : IsOrderly obs (a.perform : Run ω Result) := by
  cases a with
  | take e => exact .bind (isOrderly_eval e) fun _ => .give _
  | nest wr n e =>
    exact .bind (isOrderly_eval e) fun _ => .bind (isOrderly_wrapTimes wr n _) fun _ => .pure _
  | repr e => exact .bind (isOrderly_eval e) fun _ => .bind .store fun _ => .giveText _
  | display e => exact .bind (isOrderly_eval e) fun _ => .bind .store fun _ => .giveText _
  | kind e => exact .bind (isOrderly_eval e) fun _ => .answer _
  | isCallable e => exact .bind (isOrderly_eval e) fun _ => .answer _
  | isNone e => exact .bind (isOrderly_eval e) fun _ => .answer _
  | text e => exact .bind (isOrderly_eval e) fun _ => .answer _
  | toTuple e =>
    -- the tuple is made in the store that was read, which is still the store there is
    refine .bind (isOrderly_eval e) fun v w => .ofStore ?_
    cases h : w.store.toTuple? v with
    | none => exact IsOrderly.answer _ w
    | some r => exact (IsOrderlyAt.replaceStore (.toTuple h)).bind fun _ => IsOrderly.pure _ _
  | equal a b =>
    exact .bind (isOrderly_eval a) fun _ => .bind (isOrderly_eval b) fun _ =>
      .bind .store fun _ => .answer _
  | identical a b =>
    exact .bind (isOrderly_eval a) fun _ => .bind (isOrderly_eval b) fun _ => .answer _

theorem isOrderly_listAction (a : ListAction) : IsOrderly obs (a.perform : Run ω Result) := by
  cases a with
  | push l e =>
    exact .bind (isOrderly_evalList l) fun _ => .bind (isOrderly_eval e) fun _ =>
      .bind (.modifyStore fun s => .setList s _ _) fun _ => .done
  | set l i e =>
    exact .bind (isOrderly_evalList l) fun _ => .bind (isOrderly_eval e) fun _ =>
      .bind .store fun _ => .bind (.require _) fun _ =>
        .bind (.modifyStore fun s => .setList s _ _) fun _ => .done
  | pop l =>
    exact .bind (isOrderly_evalList l) fun _ => .bind .store fun _ =>
      .bind (.modifyStore fun s => .setList s _ _) fun _ => .showOptional _

theorem isOrderly_dictAction (a : DictAction) : IsOrderly obs (a.perform : Run ω Result) := by
  cases a with
  | get d key => exact .bind (isOrderly_evalDict d) fun _ => .bind .store fun _ => .giveOptional _
  | contains d key => exact .bind (isOrderly_evalDict d) fun _ => .bind .store fun _ => .answer _
  | set d key e =>
    exact .bind (isOrderly_evalDict d) fun _ => .bind (isOrderly_eval e) fun _ =>
      .bind .store fun _ => .bind (.modifyStore fun s => .setDict s _ _) fun _ => .showOptional _
  | remove d key =>
    exact .bind (isOrderly_evalDict d) fun _ => .bind .store fun _ =>
      .bind (.modifyStore fun s => .setDict s _ _) fun _ => .showOptional _
  | size d => exact .bind .store fun _ => .bind (isOrderly_evalDict d) fun _ => .answer _
  | keys d => exact .bind (isOrderly_evalDict d) fun _ => .bind .store fun _ => .answer _
  | copy d =>
    exact .bind (isOrderly_evalDict d) fun _ => .bind (.make fun s => .newDict s _) fun _ => .give _
  | same a b =>
    exact .bind (isOrderly_evalDict a) fun _ => .bind (isOrderly_evalDict b) fun _ => .answer _

theorem isOrderly_cellAction (a : CellAction) : IsOrderly obs (a.perform : Run ω Result) := by
  cases a with
  | get c => exact .bind (isOrderly_evalCell c) fun _ => .bind .store fun _ => .showOptional _
  | set c e =>
    exact .bind (isOrderly_evalCell c) fun _ => .bind (isOrderly_eval e) fun _ =>
      .bind (.modifyStore fun s => .setCell s _ _) fun _ => .done
  | clear c =>
    exact .bind (isOrderly_evalCell c) fun _ =>
      .bind (.modifyStore fun s => .setCell s _ _) fun _ => .done
  | isEmpty c => exact .bind (isOrderly_evalCell c) fun _ => .bind .store fun _ => .answer _
  | contents c =>
    exact .bind (isOrderly_evalCell c) fun _ => .bind .store fun _ =>
      .bind (.orFault _) fun _ => .give _
  | same a b =>
    exact .bind (isOrderly_evalCell a) fun _ => .bind (isOrderly_evalCell b) fun _ => .answer _

theorem isOrderly_functionAction (a : FunctionAction) :
    IsOrderly obs (a.perform : Run ω Result) := by
  cases a with
  | make m =>
    -- making is one step of the store, with a closure and without one
    refine .bind (isOrderly_evalMaking m) fun ⟨code, globals, cells⟩ => .bind ?_ fun _ => .give _
    cases cells with
    | none => exact .make fun s => .makeFunction s code globals m.qualname
    | some cells => exact .make fun s => .makeClosure s code globals m.qualname cells
  | fields f => exact .bind (isOrderly_evalFunction f) fun _ => .bind .store fun _ => .answer _
  | same a b =>
    exact .bind (isOrderly_evalFunction a) fun _ => .bind (isOrderly_evalFunction b) fun _ =>
      .answer _
  | codeInfo e => exact .bind (isOrderly_evalCode e) fun _ => .bind .store fun _ => .answer _
  | getAttr f name =>
    exact .bind (isOrderly_evalFunction f) fun _ =>
      .bind (.attempt fun h => .getAttr h) fun _ => .give _
  | setAttr f name e =>
    exact .bind (isOrderly_evalFunction f) fun _ => .bind (isOrderly_eval e) fun _ =>
      .bind (.attemptWrite fun h => .setAttr h) fun _ => .done
  | delAttr f name =>
    exact .bind (isOrderly_evalFunction f) fun _ =>
      .bind (.attemptWrite fun h => .delAttr h) fun _ => .done
  | setClosure f cells =>
    exact .bind (isOrderly_evalFunction f) fun _ => .bind (isOrderly_evalClosure cells) fun _ =>
      .bind (.attemptWrite fun h => .setClosure h) fun _ => .done
  | setDefaults f e =>
    exact .bind (isOrderly_evalFunction f) fun _ => .bind (isOrderly_evalTuple? e) fun _ =>
      .bind (.modifyStore fun s => .setDefaults s _ _) fun _ => .done
  | setKwDefaults f e =>
    exact .bind (isOrderly_evalFunction f) fun _ => .bind (isOrderly_evalDict? e) fun _ =>
      .bind (.modifyStore fun s => .setKwDefaults s _ _) fun _ => .done
  | setAnnotations f e =>
    exact .bind (isOrderly_evalFunction f) fun _ => .bind (isOrderly_evalDict? e) fun _ =>
      .bind (.modifyStore fun s => .setAnnotations s _ _) fun _ => .done

theorem isOrderly_methodAction (a : MethodAction) : IsOrderly obs (a.perform : Run ω Result) := by
  cases a with
  | bind f e =>
    exact .bind (isOrderly_evalFunction f) fun _ => .bind (isOrderly_eval e) fun _ =>
      .bind (.make fun s => .bind s _ _) fun _ => .give _
  | make f e =>
    exact .bind (isOrderly_evalFunction f) fun _ => .bind (isOrderly_eval e) fun _ =>
      .bind (.make fun s => .newMethod s _ _) fun _ => .give _
  | getAttr m name =>
    exact .bind (isOrderly_evalMethod m) fun _ =>
      .bind (.attempt fun h => .getMethodAttr h) fun _ => .give _
  | parts m => exact .bind (isOrderly_evalMethod m) fun _ => .bind .store fun _ => .answer _

theorem isOrderly_attributeAction (a : AttributeAction) :
    IsOrderly obs (a.perform : Run ω Result) := by
  cases a with
  | names => exact .answer _
  | describe name => exact .answer _
  | get f a =>
    exact .bind (isOrderly_evalFunction f) fun _ =>
      .bind (.make fun s => .getAttribute s _ a) fun _ => .give _
  | set f a e =>
    exact .bind (isOrderly_evalFunction f) fun _ => .bind (isOrderly_eval e) fun _ =>
      .bind (.attemptWrite fun h => .setAttribute h) fun _ => .done
  | delete f a =>
    exact .bind (isOrderly_evalFunction f) fun _ =>
      .bind (.attemptWrite fun h => .deleteAttribute h) fun _ => .done

theorem isOrderly_weakAction (a : WeakAction) : IsOrderly obs (a.perform : Run ω Result) := by
  cases a with
  | make f name =>
    exact .bind (isOrderly_evalFunction f) fun _ => .bind (.modifyStage _) fun _ => .done
  | clone name copy =>
    exact .bind .stage fun _ => .bind (.require _) fun _ => .bind (.modifyStage _) fun _ => .done
  | drop name => exact .bind .stage fun _ => .bind (.modifyStage _) fun _ => .answer _
  | isAlive name => exact .bind (isOrderly_evalWeak name) fun _ => .bind .store fun _ => .answer _
  | upgrade name =>
    exact .bind (isOrderly_evalWeak name) fun _ => .bind .store fun _ => .giveOptional _
  | repr name => exact .bind (isOrderly_evalWeak name) fun _ => .bind .store fun _ => .giveText _
  | count f => exact .bind (isOrderly_evalFunction f) fun _ => .bind .stage fun _ => .answer _

/-! ### Calls -/

section Calls

variable {ev : Evaluator Stage ω} {obs' : Observer ω}

theorem isOrderly_holding (callee : Value) {call : World Stage ω → Outcome × World Stage ω}
    (h : ∀ w, ∃ ds, Course .orderly obs w ds (call w).2) : IsOrderly obs (holding callee call) := by
  -- the call stands between two changes of the stage
  refine .bind (.modifyStage _) fun _ w => .ofGet ?_
  have hcourse := h w
  cases hcall : call w with
  | mk outcome w₁ =>
    rw [hcall] at hcourse
    refine IsOrderlyAt.ofSet hcourse ?_
    refine IsOrderly.bind (.modifyStage _) (fun _ => .bind .stage fun t => ?_) w₁
    cases t.broken with
    | true => exact .throw _
    | false =>
      -- the call answers, or its error goes on upwards
      cases outcome with
      | ok v => exact .pure v
      | error e => exact .throw _

/-- A call by an orderly evaluator, with the observer that was handed over or with none. -/
theorem isOrderly_routeCall (hev : ev.HoldsTo .orderly) {observed : Bool}
    (hobs : (Conduct.orderly : Conduct Stage ω).gives obs observed obs') (route : Route)
    (callee : Value) (args : List Value) (kwargs : Table Value) :
    IsOrderly obs (route.call callee ev obs' args kwargs) := by
  -- the routes differ in what the callee must be; each ends in a call with the observer handed over
  cases route with
  | value => exact isOrderly_holding callee (Course.of_callValue hev hobs callee args kwargs)
  | function =>
    exact .bind (.require _) fun f =>
      isOrderly_holding callee (Course.of_call hev hobs f args kwargs)
  | method =>
    exact .bind (.require _) fun m =>
      isOrderly_holding callee (Course.of_call hev hobs m.function (m.receiver :: args) kwargs)

theorem isOrderly_call (hev : ev.HoldsTo .orderly) (c : Call) : IsOrderly obs (c.perform ev obs) :=
  .bind (isOrderly_eval c.callee) fun _ => .bind (isOrderly_evalItems c.args) fun _ =>
    .bind (isOrderly_evalEntries c.kwargs) fun _ =>
      .bind (isOrderly_routeCall hev rfl c.route _ _ _) fun _ => .give _

theorem isOrderly_action (hev : ev.HoldsTo .orderly) (a : Action) :
    IsOrderly obs (a.perform ev obs) := by
  cases a with
  | value a => exact isOrderly_valueAction a
  | list a => exact isOrderly_listAction a
  | dict a => exact isOrderly_dictAction a
  | cell a => exact isOrderly_cellAction a
  | function a => exact isOrderly_functionAction a
  | method a => exact isOrderly_methodAction a
  | fixed a => exact isOrderly_attributeAction a
  | weak a => exact isOrderly_weakAction a
  | error a => exact .answer _
  | call c => exact isOrderly_call hev c
  | drop name => exact .bind .stage fun _ => .bind (.modifyStage _) fun _ => .answer _
  | moduleKey => exact .answer _
  | trace tracer events => exact .bind .readConsole fun _ => .answer _

/-! ### Bodies -/

theorem isOrderly_conclude (keep : Option String) {m : Run ω Result} (hm : m.IsOrderly obs) :
    IsOrderly obs (conclude keep m) := by
  refine .bind hm fun r => ?_
  cases keep with
  | none => exact .pure _
  | some name =>
    cases r.value with
    | none => exact .pure _
    | some v => exact .bind (.modifyStage _) fun _ => .pure _

theorem isOrderly_bodyStep (hev : ev.HoldsTo .orderly) (s : BodyStep) :
    IsOrderly obs (s.run ev obs) := by
  -- the handler is orderly for every failure, those of the nested calls included
  refine .tryCatch ?_ fun e => ?_
  · exact .bind (isOrderly_conclude s.step.keep (isOrderly_action hev s.step.action)) fun _ =>
      .modifyStage _
  · cases e with
    | malformed => exact .throw _
    | error e =>
      refine .bind (.modifyStage _) fun _ => ?_
      cases s.catches with
      | true => exact .pure _
      | false => exact .throw _

theorem isOrderly_bodySteps (hev : ev.HoldsTo .orderly) (steps : List BodyStep) :
    IsOrderly obs (steps.forM fun s => s.run ev obs) := by
  induction steps with
  | nil => exact .pure _
  | cons s steps ih => exact .bind (isOrderly_bodyStep hev s) fun _ => ih

theorem isOrderly_ending (e : Ending) : IsOrderly obs (e.run : Run ω Value) := by
  cases e with
  | result e => exact isOrderly_eval e
  | failure e => exact .throw _

theorem isOrderly_body (hev : ev.HoldsTo .orderly) (b : Body) : IsOrderly obs (b.run ev obs) := by
  have hsteps : IsOrderly obs (do b.steps.forM fun s => s.run ev obs; b.ending.run) :=
    .bind (isOrderly_bodySteps hev b.steps) fun _ => isOrderly_ending b.ending
  rw [Body.run]
  cases b.early with
  | none => exact hsteps
  | some e =>
    refine .bind ?_ fun stop => ?_
    · exact .bind (isOrderly_eval e.a) fun _ => .bind (isOrderly_eval e.b) fun _ =>
        .bind .store fun _ => .pure _
    · -- a body that stops early does none of its steps
      cases stop with
      | true => exact isOrderly_eval e.result
      | false => exact hsteps

theorem isOrderly_requestParts (r : Request) :
    IsOrderly obs (requestParts r : Run ω (List (String × Value))) := by
  -- the parts of the request become objects; of a closure the cells themselves are handed on
  refine .bind (.make fun s => .newTuple s r.args) fun _ =>
    .bind (.make fun s => .newDict s r.kwargs) fun _ => ?_
  cases r.closure with
  | none => exact .bind (.pure _) fun _ => .pure _
  | some cells =>
    exact .bind (.make fun s => .newTuple s (cells.map .cell)) fun _ =>
      .bind (.pure _) fun _ => .pure _

theorem isOrderly_runRequest (hev : ev.HoldsTo .orderly) (bodies : Table Body) (r : Request) :
    IsOrderly obs (runRequest bodies ev obs r) := by
  refine .bind (.modifyStage _) fun _ => .bind (isOrderly_requestParts r) fun parts => ?_
  cases bodies.get? r.code.name with
  | none => exact .bind (.make fun s => .newDict s (.ofList parts)) fun _ => .pure _
  | some b => exact .bind (.modifyStage _) fun _ => isOrderly_body hev b

/-- What the evaluation of a request adds to the computation is done on the stage. -/
theorem Run.IsOrderly.toOutcome {m : Run ω Value} (hm : m.IsOrderly obs) (w : World Stage ω) :
    ∃ ds, Course .orderly obs w ds (toOutcome m w).2 := by
  obtain ⟨ds, hds⟩ := hm w
  -- when the outcome is read off only the stage changes, neither the store nor the notes
  have hafter : (m w).2.store.Step (Script.toOutcome m w).2.store ∧
      (Script.toOutcome m w).2.watch = (m w).2.watch := by
    rw [Script.toOutcome]
    cases m w with
    | mk r after =>
      cases r with
      | ok v => exact ⟨.rest _, rfl⟩
      | error e => cases e <;> exact ⟨.rest _, rfl⟩
  exact ⟨_, hds.append (.own hafter (.done obs _))⟩

end Calls

/-- **The evaluator of a script is orderly**, however deep its calls are nested: it leaves the
notes of the observer alone, gives to a call the observer that it was handed or none, and changes
the store by the operations of the library only. -/
theorem holdsTo_evaluate (bodies : Table Body) (n : Nat) :
    (evaluate bodies n : Evaluator Stage ω).HoldsTo .orderly := by
  -- the calls of a body are run by the evaluator for one level less
  induction n with
  | zero => exact fun obs r w => (IsOrderly.throw Stop.malformed).toOutcome w
  | succ n ih => exact fun obs r w => (isOrderly_runRequest ih bodies r).toOutcome w

/-- Whoever is handed the silent observer could have been handed any other one. -/
theorem exists_course_of_silent {w w' : World Stage ω} {ds : List Deed}
    (h : Course .orderly .silent w ds w') : ∃ ds', Course .orderly obs w ds' w' := by
  -- the observer is an index of the course, so it has to be a variable for the induction
  generalize hobs : Observer.silent = obs₀ at h
  induction h with
  | done => exact ⟨[], .done obs _⟩
  | own hown _ ih =>
    obtain ⟨ds', hds'⟩ := ih hobs
    exact ⟨_, .own hown hds'⟩
  | @call obs₀ obs' w w₂ inner ds ev observed f args kwargs hgives body _ _ ih =>
    subst hobs
    -- a call that was given the silent observer counts as one that is not observed
    obtain rfl : obs' = Observer.silent := by
      cases observed <;> exact hgives
    obtain ⟨ds', hds'⟩ := ih rfl
    have hplain : (Conduct.orderly : Conduct Stage ω).gives obs false Observer.silent := rfl
    exact ⟨_, .call hplain body hds'⟩

/-- The evaluator of a script is orderly, whether it is told the observer or not. -/
theorem holdsTo_evaluator (bodies : Table Body) (a : Awareness) :
    (evaluator bodies a : Evaluator Stage ω).HoldsTo .orderly := by
  cases a with
  | observed => exact holdsTo_evaluate bodies nestingLimit
  | unobserved =>
    -- the evaluator that is not told the observer runs under the silent one
    intro obs r w
    obtain ⟨ds, hds⟩ := holdsTo_evaluate bodies nestingLimit .silent r w
    exact exists_course_of_silent hds

end Callable.Script
