import Callable.Proofs.Liveness.Action
import Callable.Script.Body

/-!
# Evaluations stay in runs

A script has an evaluator that may run bodies of steps, and these may make calls in turn, which the
same evaluator evaluates. From where a call has begun it goes on to where the evaluation ends, and the
steps between are steps of a run.

* `EvaluatorStays` — what is asked of an evaluator: it ends with the same calls under way, in the same
  frames, and with its answer at hand.
* `stays_holding` — for such an evaluator a call begins, its evaluation goes on, and it ends: these
  are steps of a run.
* `stays_bodyStep`, `stays_body` — the steps of bodies, and the bodies.
* `evaluatorStays_evaluate` — the evaluator is one of these, by induction on the depth to which calls
  may be nested.
-/

namespace Callable.Script

open Run

variable {ω : Type}

/-! ### Calls -/

/-- The value that a call answers, if any. -/
def answered : Outcome → List Value
  | .ok v => [v]
  | .error _ => []

/-- **An evaluator stays in runs.** From the scene where it has got a request it goes on to the one
where its answer is at hand, with the same calls under way, in the same frames. -/
def EvaluatorStays (ev : Evaluator Stage ω) : Prop :=
  ∀ obs r w, (sceneAt w.store w.host r.values).Reachable →
    (ev obs r w).2.host.callees = w.host.callees ∧
      (ev obs r w).2.host.running = w.host.running ∧
      (sceneAt (ev obs r w).2.store (ev obs r w).2.host (answered (ev obs r w).1)).Reachable

/-- The stage while a callee is held. -/
def holdingStage (t : Stage) (callee : Value) : Stage := { t with callees := callee :: t.callees }

/-- The stage when the innermost callee is let go. -/
def releasedStage (t : Stage) : Stage := { t with callees := t.callees.tail }

/-- What holding a callee comes to. -/
theorem holding_eq (callee : Value) (call : World Stage ω → Outcome × World Stage ω)
    (w : World Stage ω) :
    holding callee call w =
      let r := call { w with host := holdingStage w.host callee }
      (if r.2.host.broken then .error .malformed else r.1.mapError .error,
        { r.2 with host := releasedStage r.2.host }) := by
  have hheld : Run.modifyStage (fun t : Stage => { t with callees := callee :: t.callees }) w =
      (.ok (), { w with host := holdingStage w.host callee }) := rfl
  rw [holding, run_bind hheld,
    run_bind (m := get) (a := { w with host := holdingStage w.host callee }) rfl]
  rcases call { w with host := holdingStage w.host callee } with
    ⟨outcome, store, ⟨outermost, running, weak, callees, log, evaluations, broken⟩, watch, console⟩
  -- what is left of it looks at the mark of a broken script and at the outcome, and at nothing else
  cases broken <;> cases outcome <;> rfl

section Calls

variable {ev : Evaluator Stage ω}

/-- The innermost call may end. -/
theorem reachable_release {s : Store} {t : Stage} {callee : Value} {callees hand : List Value}
    (h : (sceneAt s t hand).Reachable) (hcallees : t.callees = callee :: callees) :
    (sceneAt s (releasedStage t) hand).Reachable := by
  -- a scene knows more of a call than a stage does: for what a script calls the rest is empty
  have hcalls : (sceneAt s t hand).calls = ⟨callee, []⟩ :: callees.map (⟨·, []⟩) := by
    simp only [sceneAt, hcallees, List.map_cons]
  have hsame : ({ sceneAt s t hand with calls := callees.map (⟨·, []⟩) } : Scene) =
      sceneAt s (releasedStage t) hand := by
    simp only [sceneAt, releasedStage, hcallees, List.tail_cons]
    rfl
  have hleft := h.tail (.leave hcalls fun v hv => absurd hv (Option.not_mem_none v))
  rw [hsame] at hleft
  exact reachable_take hleft

/-- A call, while its callee is held: it begins, it is evaluated, and it ends. -/
theorem reachable_call (hev : EvaluatorStays ev) (obs : Observer ω) {callee : Value}
    {args : List Value} {kwargs : Table Value} {w : World Stage ω}
    (h : (sceneAt w.store w.host (callee :: (args ++ kwargs.values))).Reachable)
    {r : Outcome × World Stage ω}
    (hr : callee.call ev obs args kwargs { w with host := holdingStage w.host callee } = r) :
    r.2.host.callees = callee :: w.host.callees ∧ r.2.host.running = w.host.running ∧
      (sceneAt r.2.store (releasedStage r.2.host) (answered r.1)).Reachable := by
  cases htarget : callee.target? args with
  | none =>
    -- what cannot be called is refused
    have hcall : callee.isCallable = false := by
      rw [← Value.isSome_target? callee args, htarget]
      rfl
    rw [Value.call_of_not_isCallable hcall] at hr
    subst hr
    exact ⟨rfl, rfl, reachable_hand h nofun⟩
  | some target =>
    obtain ⟨f, full⟩ := target
    rw [Value.call_of_target? htarget, FunctionRef.call_eq] at hr
    -- the call begins
    have hhas {v : Value} (hv : v ∈ callee :: (args ++ kwargs.values)) :
        (sceneAt w.store w.host (callee :: (args ++ kwargs.values))).Has v := has_of_hand hv
    have hkwargs : ∀ v ∈ kwargs.values,
        (sceneAt w.store w.host (callee :: (args ++ kwargs.values))).Has v :=
      fun v hv => hhas (by simp [hv])
    have hbegun := h.tail (.enter htarget (hhas (by simp)) (fun v hv => hhas (by simp [hv])) hkwargs)
    -- the evaluator has the request at hand
    have hentered : (sceneAt (w.store.newDict .empty).2 (holdingStage w.host callee)
        ((w.store.function f).request (w.store.newDict .empty).1 full kwargs).values).Reachable := by
      refine Scene.Reachable.keep hbegun rfl rfl (fun v hv => .of_root ?_) fun _ hx => hx
      have hkept : v ∈ ((w.store.function f).request (w.store.newDict .empty).1 full kwargs).values ∨
          v ∈ w.host.frames.flatMap Table.values := by
        simpa [sceneAt, holdingStage, Stage.frames] using hv
      rcases hkept with hrequest | hframe
      · exact List.mem_append_right _ (List.mem_append_left _ (List.mem_cons_of_mem _ hrequest))
      · exact List.mem_append_left _ (List.mem_append_right _ hframe)
    obtain ⟨hcallees, hrunning, hreach⟩ := hev obs
      (World.requestTo { w with host := holdingStage w.host callee } f full kwargs)
      (World.entering { w with host := holdingStage w.host callee } f obs) hentered
    subst hr
    exact ⟨hcallees, hrunning, reachable_release hreach hcallees⟩

/-- The value of a call is what it has answered. -/
theorem mem_answered {broken : Bool} {outcome : Outcome} {v : Value}
    (hv : v ∈ yields (fun v => [v])
      (if broken then .error Stop.malformed else outcome.mapError Stop.error)) :
    v ∈ answered outcome := by
  cases broken <;> cases outcome <;> first | exact hv | cases hv

/-- A call, from the moment when everything for it is at hand. -/
theorem stays_holding (hev : EvaluatorStays ev) (obs : Observer ω) (callee : Value)
    (args : List Value) (kwargs : Table Value) :
    Stays (callee :: (args ++ kwargs.values)) (holding callee (callee.call ev obs args kwargs))
      fun v => [v] := by
  intro w h
  obtain ⟨hcallees, hrunning, hreach⟩ := reachable_call hev obs h rfl
  rw [holding_eq]
  refine ⟨⟨?_, ?_⟩, reachable_hand hreach fun v hv => has_of_hand (mem_answered hv)⟩
  · -- the call has put its callee on top, and `releasedStage` takes it away again
    change (callee.call ev obs args kwargs _).2.host.callees.tail = _
    rw [hcallees]
    rfl
  · change (callee.call ev obs args kwargs _).2.host.running.tail = _
    rw [hrunning]

theorem stays_routeCall (hev : EvaluatorStays ev) (obs : Observer ω) (route : Route) (callee : Value)
    (args : List Value) (kwargs : Table Value) :
    Stays (callee :: (args ++ kwargs.values)) (route.call callee ev obs args kwargs)
      fun v => [v] := by
  have hholding := stays_holding hev obs callee args kwargs
  -- the other two routes come down to the first, for what they can be taken with
  cases route with
  | value => exact hholding
  | function =>
    intro w
    refine .ofRequire fun {f} hf => ?_
    -- with this route anything but a function makes no sense, and the script stops
    obtain rfl : callee = .function f := by cases callee <;> cases hf; rfl
    exact hholding w
  | method =>
    intro w
    refine .ofRequire fun {m} hm => ?_
    obtain rfl : callee = .method m := by cases callee <;> cases hm; rfl
    exact hholding w

/-- A call, once its parts have been evaluated. -/
theorem stays_evaluatedCall (hev : EvaluatorStays ev) (obs : Observer ω) (route : Route)
    (callee : Value) (args : List Value) (kwargs : List (String × Value)) :
    Stays (kwargs.map Prod.snd ++ (args ++ [callee]))
      (route.call callee ev obs args (.ofList kwargs)) fun v => [v] := by
  refine .ofHand (stays_routeCall hev obs route callee args (.ofList kwargs)) fun v hv => ?_
  rcases List.mem_cons.1 hv with rfl | hv
  · simp
  · rcases List.mem_append.1 hv with hv | hv
    · simp [hv]
    · exact List.mem_append_left _ (Table.mem_values_ofList hv)

theorem stays_call (hev : EvaluatorStays ev) (obs : Observer ω) (c : Call) :
    Stays [] (c.perform ev obs) produced :=
  .bind (stays_eval c.callee []) fun _ => .bind (stays_evalItems c.args _) fun _ =>
    .bind (stays_evalEntries c.kwargs _) fun _ =>
      .bind (stays_evaluatedCall hev (if c.observed then obs else .silent) c.route _ _ _) fun _ =>
        .give List.mem_cons_self

theorem stays_action (hev : EvaluatorStays ev) (obs : Observer ω) (a : Action) :
    Stays [] (a.perform ev obs) produced := by
  cases a with
  | value a => exact stays_valueAction a
  | list a => exact stays_listAction a
  | dict a => exact stays_dictAction a
  | cell a => exact stays_cellAction a
  | function a => exact stays_functionAction a
  | method a => exact stays_methodAction a
  | fixed a => exact stays_attributeAction a
  | weak a => exact stays_weakAction a
  | error a => exact .answer _
  | call c => exact stays_call hev obs c
  | drop name => exact .bind .stage fun _ => .bind (stays_drop name) fun _ => .answer _
  | moduleKey => exact .answer _
  | trace tracer events => exact .bind .readConsole fun _ => .answer _

/-! ### Steps and bodies -/

/-- A stage that is changed in no frame, no call and no weak reference. -/
theorem stays_modifyStage {before : List Value} {f : Stage → Stage}
    (hframes : ∀ t, (f t).frames = t.frames) (hcallees : ∀ t, (f t).callees = t.callees)
    (hweak : ∀ t, (f t).weak = t.weak) :
    Stays before (Run.modifyStage f : Run ω Unit) fun _ => before := by
  -- the frames are the outermost one and those that are running, so equal frames settle both
  have hrunning (t : Stage) : (f t).running = t.running := (List.cons.inj (hframes t)).2
  refine fun w => .modifyStage ⟨hcallees _, by rw [hrunning]⟩ (fun v hv => has_of_frame ?_) ?_
  · rw [hframes] at hv
    exact hv
  · rw [hweak]
    exact fun _ hx => hx

theorem stays_record {before : List Value} (r : Except RunError Answer) :
    Stays before (Run.modifyStage (·.record r #[]) : Run ω Unit) fun _ => before :=
  stays_modifyStage (fun _ => rfl) (fun _ => rfl) fun _ => rfl

theorem stays_conclude (keep : Option String) {m : Run ω Result} (hm : Stays [] m produced) :
    Stays [] (conclude keep m) fun _ => [] := by
  refine .bind hm fun r => ?_
  cases keep with
  | none => exact .pure nofun
  | some name =>
    cases hvalue : r.value with
    | none => exact .pure nofun
    | some v =>
      have hv : v ∈ produced r := Option.mem_toList.2 hvalue
      exact .bind (stays_keep name hv) fun _ => .pure nofun

theorem stays_bodyStep (hev : EvaluatorStays ev) (obs : Observer ω) (s : BodyStep) :
    Stays [] (s.run ev obs) fun _ => [] := by
  refine .tryCatch ?_ fun e => ?_
  · exact .bind (stays_conclude s.step.keep (stays_action hev obs s.step.action)) fun _ =>
      stays_record _
  · cases e with
    | malformed => exact .throw
    | error e =>
      -- a step that has failed is recorded, and the body goes on if it catches
      refine .bind (stays_record _) fun _ => ?_
      cases s.catches with
      | true => exact .pure nofun
      | false => exact .throw

theorem stays_bodySteps (hev : EvaluatorStays ev) (obs : Observer ω) (steps : List BodyStep) :
    Stays [] (steps.forM fun s => s.run ev obs) fun _ => [] := by
  induction steps with
  | nil => exact .pure nofun
  | cons s steps ih => exact .bind (stays_bodyStep hev obs s) fun _ => ih

theorem stays_ending (e : Ending) : Stays [] (e.run : Run ω Value) fun v => [v] := by
  cases e with
  | result e => exact stays_eval e []
  | failure e => exact .throw

theorem stays_body (hev : EvaluatorStays ev) (obs : Observer ω) (b : Body) :
    Stays [] (b.run ev obs) fun v => [v] := by
  have hsteps : Stays [] (do b.steps.forM fun s => s.run ev obs; b.ending.run : Run ω Value)
      fun v => [v] := .bind (stays_bodySteps hev obs b.steps) fun _ => stays_ending b.ending
  rw [Body.run]
  cases b.early with
  | none => exact hsteps
  | some e =>
    have happlies : Stays [] (e.applies : Run ω Bool) fun _ => [] :=
      .bind (stays_eval e.a []) fun _ => .bind (stays_eval e.b _) fun _ =>
        .bind .store fun _ => .pure nofun
    refine .bind happlies fun stop => ?_
    -- a body that stops early does none of its steps
    cases stop with
    | true => exact stays_eval e.result []
    | false => exact hsteps

/-! ### Evaluating requests -/

theorem stays_requestParts (r : Request) :
    Stays r.values (requestParts r : Run ω (List (String × Value))) fun parts =>
      parts.map Prod.snd := by
  have hargs {v : Value} (hv : v ∈ r.args) : v ∈ r.values := by simp [Request.values, hv]
  have hkwargs {v : Value} (hv : v ∈ r.kwargs.values) : v ∈ r.values := by
    simp [Request.values, hv]
  refine .bind (.make (fun t => [.tuple t]) fun s _ h => .newTuple fun v hv => h v (hargs hv))
    fun args => .bind (.make (fun d => [.dict d]) fun s _ h =>
      .newDict fun v hv => h v (List.mem_append_right _ (hkwargs hv))) fun kwargs => ?_
  -- a missing closure is shown as `None`, a closure as one more tuple
  cases hclosure : r.closure with
  | none => exact .bind (.scalar rfl) fun _ => .pure (by simp [Request.values])
  | some cells =>
    have hcells {v : Value} (hv : v ∈ cells.map Value.cell) : v ∈ r.values := by
      rw [Request.values, hclosure]
      exact List.mem_append_right _ hv
    refine .bind (.make (fun t => [.tuple t]) fun s _ h => .newTuple fun v hv =>
      h v (List.mem_append_right _ (List.mem_append_right _ (hcells hv)))) fun t => ?_
    have htuple : Stays (.tuple t :: .dict kwargs :: .tuple args :: r.values)
        (pure (.tuple t) : Run ω Value) fun v => v :: .dict kwargs :: .tuple args :: r.values :=
      .pure fun _ hv => hv
    exact .bind htuple fun _ => .pure (by simp [Request.values])

/-- The parts of a request are made without a failure, and the stage is left alone. -/
theorem exists_requestParts (r : Request) (w : World Stage ω) :
    ∃ parts store, requestParts r w = (.ok parts, { w with store }) := by
  unfold requestParts
  cases r.closure with
  | none => exact ⟨_, _, rfl⟩
  | some cells => exact ⟨_, _, rfl⟩

/-- Where a request has come to: with the same calls under way, and no frame gone but that of the
request. -/
theorem reachable_runRequest (hev : EvaluatorStays ev) (bodies : Table Body) (obs : Observer ω)
    (r : Request) {w : World Stage ω} (h : (sceneAt w.store w.host r.values).Reachable)
    {after : Except Stop Value × World Stage ω} (hafter : runRequest bodies ev obs r w = after) :
    after.2.host.callees = w.host.callees ∧
      (∀ frame ∈ w.host.running, frame ∈ after.2.host.running) ∧
      (sceneAt after.2.store after.2.host (yields (fun v => [v]) after.1)).Reachable := by
  -- the number of requests is in the stage, but it is no root
  let counted : World Stage ω :=
    { w with host := { w.host with evaluations := w.host.evaluations + 1 } }
  have hcounted : (sceneAt counted.store counted.host r.values).Reachable :=
    reachable_keep h rfl (fun _ hv => has_of_hand hv) (fun _ hv => has_of_frame hv) fun _ hx => hx
  obtain ⟨parts, store, hparts⟩ := exists_requestParts r counted
  have hmade := (stays_requestParts r counted hcounted).2
  rw [hparts] at hmade
  rw [runRequest, run_bind (m := Run.modifyStage _) rfl, run_bind hparts] at hafter
  subst hafter
  cases bodies.get? r.code.name with
  | none =>
    -- with no body of its own a code object answers the parts, in a dict
    have hdict : Stays (parts.map Prod.snd)
        (do return .dict (← Run.make (·.newDict (.ofList parts))) : Run ω Value) fun v => [v] :=
      .bind (.make (fun d => [.dict d]) fun s _ h =>
        .newDict fun v hv => h v (Table.mem_values_ofList hv)) fun _ => .pure (by simp)
    exact ⟨rfl, fun _ hframe => hframe, (hdict { counted with store } hmade).2⟩
  | some b =>
    -- the body has the parts in a frame of its own
    let framed : World Stage ω := { counted with
      store
      host := { counted.host with running := .ofList parts :: counted.host.running } }
    have hframed : (sceneAt framed.store framed.host []).Reachable := by
      refine reachable_keep hmade rfl nofun (fun v hv => ?_) fun _ hx => hx
      simp only [Stage.frames, framed, counted, List.flatMap_cons, List.mem_append] at hv
      rcases hv with hv | hv | hv
      · exact has_of_frame (List.mem_append_left _ hv)
      · exact has_of_hand (Table.mem_values_ofList hv)
      · exact has_of_frame (List.mem_append_right _ hv)
    obtain ⟨hcalls, hreach⟩ := stays_body hev obs b framed hframed
    refine ⟨hcalls.callees, fun frame hframe => ?_, hreach⟩
    have houter : frame ∈ ((b.run ev obs framed).2).host.running.tail := by
      rw [hcalls.outer]
      exact hframe
    exact List.mem_of_mem_tail houter

/-- At the end of an evaluation the frames are those that there were. -/
theorem reachable_toOutcome {m : Run ω Value} {w : World Stage ω}
    (hcallees : (m w).2.host.callees = w.host.callees)
    (hrunning : ∀ frame ∈ w.host.running, frame ∈ (m w).2.host.running)
    (hreach : (sceneAt (m w).2.store (m w).2.host (yields (fun v => [v]) (m w).1)).Reachable) :
    (toOutcome m w).2.host.callees = w.host.callees ∧
      (toOutcome m w).2.host.running = w.host.running ∧
      (sceneAt (toOutcome m w).2.store (toOutcome m w).2.host
        (answered (toOutcome m w).1)).Reachable := by
  rw [toOutcome]
  rcases hr : m w with ⟨r, after⟩
  rw [hr] at hcallees hrunning hreach
  -- the frames of this evaluation go away, so the roots can only become fewer
  have hframes : ∀ v ∈ (after.host.outermost :: w.host.running).flatMap Table.values,
      v ∈ after.host.frames.flatMap Table.values := by
    intro v hv
    obtain ⟨frame, hframe, hv⟩ := List.mem_flatMap.1 hv
    refine List.mem_flatMap.2 ⟨frame, ?_, hv⟩
    rcases List.mem_cons.1 hframe with rfl | hframe
    · exact List.mem_cons_self
    · exact List.mem_cons_of_mem _ (hrunning frame hframe)
  -- the answer is at hand, if there is one
  cases r with
  | ok v =>
    exact ⟨hcallees, rfl, reachable_keep hreach rfl (fun _ hu => has_of_hand hu)
      (fun u hu => has_of_frame (hframes u hu)) fun _ hx => hx⟩
  | error e =>
    cases e with
    | error e =>
      exact ⟨hcallees, rfl, reachable_keep hreach rfl nofun
        (fun u hu => has_of_frame (hframes u hu)) fun _ hx => hx⟩
    | malformed =>
      exact ⟨hcallees, rfl, reachable_keep hreach rfl nofun
        (fun u hu => has_of_frame (hframes u hu)) fun _ hx => hx⟩

end Calls

/-- **The evaluator of a script stays in runs**, however deep its calls are nested. -/
theorem evaluatorStays_evaluate (bodies : Table Body) (n : Nat) :
    EvaluatorStays (evaluate bodies n : Evaluator Stage ω) := by
  -- the calls of a body are run by the evaluator for one level less
  induction n with
  | zero => exact fun obs r w h => reachable_toOutcome rfl (fun _ hf => hf) (reachable_hand h nofun)
  | succ n ih =>
    intro obs r w h
    obtain ⟨hcallees, hrunning, hreach⟩ := reachable_runRequest ih bodies obs r h rfl
    exact reachable_toOutcome hcallees hrunning hreach

end Callable.Script
