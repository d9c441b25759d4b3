import Callable.Proofs.Liveness.Evaluation
import Callable.Script.Session

/-!
# Scripts stay in runs

A script is a run: whatever its steps are, and whatever steps the bodies have that run for it, between
any two of its commands it is at a scene that a run comes to. So what is proved of runs is proved of
scripts.

* `stays_monitoredAction` — what is done under a monitor is done in a run, too.
* `Session.reachable_of_foldlM` — after any number of commands a script is where a run comes to.
* `isAlive_answer_iff` — what a script is told of a weak reference: whether something holds its
  function.
-/

namespace Callable.Script

open Run

variable {ω : Type}

theorem evaluatorStays_evaluator (bodies : Table Body) (a : Awareness) :
    EvaluatorStays (evaluator bodies a : Evaluator Stage ω) := by
  cases a with
  | observed => exact evaluatorStays_evaluate bodies nestingLimit
  -- without an observer it is the same evaluator, told of the silent one
  | unobserved => exact fun obs r w h => evaluatorStays_evaluate bodies nestingLimit .silent r w h

/-! ### Operations under a monitor -/

/-- What is done to a monitored world may be done, if it stays in runs. -/
theorem stays_onWorld {α : Type} {before : List Value} {f : Monitored Stage → α × Monitored Stage}
    {after : α → List Value}
    (h : ∀ w, (sceneAt w.store w.host before).Reachable → (f w).2.host = w.host ∧
      (sceneAt (f w).2.store w.host (after (f w).1)).Reachable) :
    Stays before (onWorld f) after := by
  intro w hreach
  obtain ⟨hhost, hreach'⟩ := h w hreach
  -- the monitor takes the place of the watch, which a scene knows nothing of
  change SameCalls w.host (f w).2.host ∧ (sceneAt (f w).2.store (f w).2.host (after (f w).1)).Reachable
  rw [hhost]
  exact ⟨.refl _, hreach'⟩

theorem stays_monitoredMake {code : Code} {globals : DictRef} (qualname : String)
    (cells : Option (List CellRef)) :
    Stays (partsOf (code, globals, cells))
      (onWorld fun w =>
        match cells with
        | some cells => Monitored.makeClosure w code globals qualname cells
        | none => Monitored.makeFunction w code globals qualname)
      fun f => .function f :: partsOf (code, globals, cells) := by
  refine stays_onWorld fun w hreach => ?_
  -- the monitor makes the same function and puts down an event
  have hmade := (stays_makeFunction (ω := Monitor) code globals qualname cells w hreach).2
  cases cells with
  | none => exact ⟨rfl, hmade⟩
  | some cells => exact ⟨rfl, hmade⟩

/-- A value that was answered is at hand. -/
theorem stays_orError (o : Outcome) : Stays (answered o) (orError o : Run ω Value) fun v => [v] := by
  cases o with
  | ok v => exact .pure fun _ hv => hv
  | error e => exact .throw

theorem stays_orError_unit (r : Except RunError Unit) :
    Stays [] (orError r : Run ω Unit) fun _ => [] := by
  cases r with
  | ok u => exact .pure nofun
  | error e => exact .throw

/-- A write under a monitor, which may be refused. -/
theorem stays_monitoredWrite {before : List Value}
    {f : Monitored Stage → Except RunError Unit × Monitored Stage}
    (write : Store → Except Fault Store)
    (hf : ∀ w, (f w).2.host = w.host ∧ ((f w).2.store = w.store ∨ write w.store = .ok (f w).2.store))
    (h : ∀ {s s'} (Has : Value → Prop), (∀ v ∈ before, Has v) → write s = .ok s' →
      s.Work Has [] s') :
    Stays before (onWorld f) fun _ => [] := by
  refine stays_onWorld fun w hreach => ?_
  -- a refused write leaves the store that there was, an accepted one is an operation
  obtain ⟨hhost, hsame | hwrite⟩ := hf w
  · rw [hsame]
    exact ⟨hhost, reachable_hand hreach nofun⟩
  · have hwork := reachable_work hreach (h _ (fun _ hv => has_of_hand hv) hwrite)
    exact ⟨hhost, reachable_hand hwork nofun⟩

theorem stays_monitoredAction {ev : Evaluator Stage Monitor} (hev : EvaluatorStays ev)
    (a : MonitoredAction) : Stays [] (a.perform ev) produced := by
  cases a with
  | make m =>
    refine .bind (stays_evalMaking m) fun parts => ?_
    obtain ⟨code, globals, cells⟩ := parts
    exact .bind (stays_monitoredMake m.qualname cells) fun _ => .give List.mem_cons_self
  | getAttr f name =>
    refine .bind (stays_evalFunction f []) fun r => ?_
    -- an attribute that is missing is an answer of the monitor and no failure yet
    have hget : Stays [.function r] (onWorld fun w => Monitored.getAttr w r name) answered := by
      refine stays_onWorld fun w hreach => ?_
      rw [Monitored.getAttr]
      cases h : w.store.getAttr r name with
      | ok p =>
        have hwork := reachable_work hreach (.getAttr (has_of_hand List.mem_cons_self) h)
        exact ⟨rfl, reachable_hand hwork fun v hv => has_of_hand (List.mem_append_left _ hv)⟩
      | error e => exact ⟨rfl, reachable_hand hreach fun v hv => absurd hv List.not_mem_nil⟩
    exact .bind hget fun o => .bind (stays_orError o) fun v => .give List.mem_cons_self
  | setAttr f name e =>
    refine .bind (stays_evalFunction f []) fun r => .bind (stays_eval e _) fun v =>
      .bind (stays_monitoredWrite (·.setAttr r name v) (fun w => ?_) fun _ h hw =>
        .setAttr (h _ (by simp)) (h v (by simp)) hw) fun u =>
          .bind (stays_orError_unit u) fun _ => .done
    rw [Monitored.setAttr]
    cases w.store.setAttr r name v with
    | ok s => exact ⟨rfl, .inr rfl⟩
    | error e => exact ⟨rfl, .inl rfl⟩
  | delAttr f name =>
    refine .bind (stays_evalFunction f []) fun r =>
      .bind (stays_monitoredWrite (·.delAttr r name) (fun w => ?_) fun _ h hw =>
        .delAttr (h _ (by simp)) hw) fun u => .bind (stays_orError_unit u) fun _ => .done
    rw [Monitored.delAttr]
    cases w.store.delAttr r name with
    | ok s => exact ⟨rfl, .inr rfl⟩
    | error e => exact ⟨rfl, .inl rfl⟩
  | bind f e =>
    refine .bind (stays_evalFunction f []) fun r => .bind (stays_eval e _) fun v => ?_
    -- to bind cannot fail
    have hbind : Stays [v, .function r] (onWorld fun w => Monitored.bind w r v) fun u => [u] := by
      refine stays_onWorld fun w hreach => ?_
      have hwork := reachable_work hreach (.bind (f := r) (has_of_hand (by simp))
        (has_of_hand (v := v) (by simp)))
      exact ⟨rfl, reachable_hand hwork fun u hu => has_of_hand (List.mem_append_left _ hu)⟩
    exact .bind hbind fun _ => .give List.mem_cons_self
  | call callee route args kwargs =>
    exact .bind (stays_eval callee []) fun _ => .bind (stays_evalItems args _) fun _ =>
      .bind (stays_evalEntries kwargs _) fun _ =>
        .bind (stays_evaluatedCall hev Monitor.observer route _ _ _) fun _ =>
          .give List.mem_cons_self

/-! ### Commands -/

namespace Session

/-- The scene between two commands. -/
def scene (s : Session) : Scene := sceneAt s.store s.stage []

variable {s s' : Session} {bodies : Table Body}

/-- Entering a step in the log changes nothing else. -/
theorem scene_record {r : Except Stop Answer} {notes : Array Note} (h : s.record r notes = some s') :
    s'.scene = s.scene := by
  rcases r with (_ | _) | _ <;> cases h <;> rfl

theorem reachable_step (h : s.scene.Reachable) {st : Step} {awareness : Awareness}
    (hs : s.step bodies st awareness = some s') : s'.scene.Reachable := by
  have haction := stays_action (evaluatorStays_evaluator bodies awareness) noteTaker st.action
  -- a step runs in the world that the session keeps, with nothing noted so far
  have hstep := stays_conclude st.keep haction
    ⟨s.store, { s.stage with evaluations := 0 }, #[], s.console⟩
  rw [scene_record hs]
  exact reachable_hand (hstep h).2 nofun

theorem reachable_under (h : s.scene.Reachable) {m m' : MonitorState} {a : MonitoredAction}
    {keep : Option String} (hs : s.under bodies m a keep = (some s', m')) : s'.scene.Reachable := by
  have haction := stays_monitoredAction (evaluatorStays_evaluator bodies m.awareness) a
  -- the same, with the monitor of the session in the place of the notes
  have hstep := stays_conclude keep haction
    ⟨s.store, { s.stage with evaluations := m.evaluations }, m.monitor, s.console⟩
  rw [scene_record (congrArg Prod.fst hs)]
  exact reachable_hand (hstep h).2 nofun

/-- After a command a script is where a run comes to, too. -/
theorem reachable_run (h : s.scene.Reachable) {c : Command} (hs : c.run bodies s = some s') :
    s'.scene.Reachable := by
  cases c with
  | step st awareness => exact reachable_step h hs
  | start tracer awareness =>
    cases hs
    exact h
  | monitored a keep =>
    obtain ⟨m, -, hs⟩ := Option.bind_eq_some_iff.1 hs
    -- the monitor is put back after the command, which is not in the scene
    rcases hunder : s.under bodies m a keep with ⟨after, m'⟩
    rw [hunder] at hs
    obtain ⟨s₁, rfl, hs⟩ := Option.bind_eq_some_iff.1 hs
    cases hs
    have hafter : s₁.scene.Reachable := reachable_under h hunder
    exact hafter
  | apart callee args kwargs keep => exact reachable_under h (Prod.ext hs rfl)
  | state =>
    obtain ⟨m, -, hs⟩ := Option.bind_eq_some_iff.1 hs
    rw [scene_record hs]
    exact h
  | reset tracer =>
    obtain ⟨m, -, hs⟩ := Option.bind_eq_some_iff.1 hs
    rw [scene_record hs]
    exact h
  | finish =>
    obtain ⟨m, -, hs⟩ := Option.bind_eq_some_iff.1 hs
    rw [scene_record hs]
    exact h

/-- **A script is a run.** Whatever its commands are, after any number of them it is where a run
comes to. -/
theorem reachable_of_foldlM {commands : List Command}
    (hs : commands.foldlM (Command.run bodies) start = some s) : s.scene.Reachable := by
  -- from any session on: the first command leads to another one to start from
  have hrun : ∀ s₀ : Session, s₀.scene.Reachable →
      commands.foldlM (Command.run bodies) s₀ = some s → s.scene.Reachable := by
    clear hs
    induction commands with
    | nil =>
      intro s₀ h₀ hs
      cases hs
      exact h₀
    | cons c commands ih =>
      intro s₀ h₀ hs
      rw [List.foldlM_cons] at hs
      obtain ⟨s₁, hs₁, hs⟩ := Option.bind_eq_some_iff.1 hs
      exact ih s₁ (reachable_run h₀ hs₁) hs
  exact hrun start .refl hs

end Session

/-- **What a script is told of a weak reference.** In a run, the function is reported alive exactly
when something holds it. -/
theorem isAlive_answer_iff {w w' : World Stage ω} {name : String} {b : Bool}
    (hreach : (sceneAt w.store w.host []).Reachable)
    (h : (WeakAction.isAlive name).perform w = (.ok ⟨.truth b, none⟩, w')) :
    ∃ x, w.host.weak? name = some x ∧
      (b = true ↔ (sceneAt w.store w.host []).IsHeld (.function x.target)) := by
  rcases heval : evalWeak name w with ⟨e | x, w₁⟩
  · -- without such a reference there is no answer
    rw [WeakAction.perform, run_bind_error heval] at h
    cases h
  · rw [WeakAction.perform, run_bind heval] at h
    obtain ⟨hx, rfl⟩ := eq_of_evalWeak heval
    have hanswer : x.isAlive (settleFor x.target w).store = b := by
      cases h
      rfl
    refine ⟨x, hx, ?_⟩
    -- settling for one function gives the answer that a full release would give
    rw [← hreach.sound.isAlive_iff, settled_sceneAt, ← isAlive_settleFor, ← hanswer]
    rfl

end Callable.Script
