import Callable.Proofs.Liveness.Scene
import Callable.Script.Perform

/-!
# Scripts as runs

A script between two of its steps is at a scene: its store, what is in its registers, those of the
bodies that are running included, and the callees of the calls under way. While a step is performed
there are some values at hand besides, which are in no register yet.

* `Script.sceneAt` — the scene of a script, with some values at hand. `Script.settled_sceneAt` — what
  a script settles is the store of its scene when that is settled.
* `Run.Stays` — a computation goes from scenes that runs come to to such scenes. It starts with some
  values at hand, and ends with others. It is closed under the ways to put computations together
  (`Stays.bind`, `Stays.tryCatch`).
-/

namespace Callable

namespace Table

variable {V : Type}

theorem mem_values_ofList {l : List (String × V)} {v : V} (h : v ∈ (ofList l).values) :
    v ∈ l.map Prod.snd := by
  -- the entries are written one after the other, to the table that there is then
  have hfold : ∀ t : Table V, v ∈ (l.foldl (fun t e => t.insert e.1 e.2) t).values →
      v ∈ t.values ∨ v ∈ l.map Prod.snd := by
    clear h
    induction l with
    | nil => exact fun _ h => .inl h
    | cons e l ih =>
      intro t h
      rcases ih (t.insert e.1 e.2) h with ht | hl
      · rcases mem_values_insert ht with rfl | ht
        · exact .inr List.mem_cons_self
        · exact .inl ht
      · exact .inr (List.mem_cons_of_mem _ hl)
  rcases hfold empty h with hempty | hl
  · cases hempty
  · exact hl

end Table

namespace Script

variable {ω α β : Type}

/-! ### The scene of a script -/

/-- The scene at which a script is. What is at hand, and the frames of the bodies, are kept like
registers. -/
def sceneAt (s : Store) (t : Stage) (hand : List Value) : Scene where
  store := s
  registers := hand ++ t.frames.flatMap Table.values
  calls := t.callees.map fun callee => ⟨callee, []⟩
  weak := t.weak.values

theorem roots_sceneAt (s : Store) (t : Stage) (hand : List Value) :
    (sceneAt s t hand).roots = hand ++ t.roots := by
  simp only [Scene.roots, sceneAt, Stage.roots, List.flatMap_map, List.append_assoc]
  rw [List.flatMap_singleton']

/-- What a script settles is the store of its scene when that is settled. -/
theorem settled_sceneAt (w : World Stage ω) :
    (sceneAt w.store w.host []).settled = (settle w).store := by
  -- the roots of the stage are the roots of the scene, so both release the same
  rw [Scene.settled, roots_sceneAt]
  rfl

section Has

variable {s : Store} {t : Stage} {hand : List Value} {v : Value}

theorem has_of_hand (hv : v ∈ hand) : (sceneAt s t hand).Has v :=
  .of_root (List.mem_append_left _ (List.mem_append_left _ hv))

theorem has_of_frame (hv : v ∈ t.frames.flatMap Table.values) : (sceneAt s t hand).Has v :=
  .of_root (List.mem_append_left _ (List.mem_append_right _ hv))

/-- What is in a register is in a frame. -/
theorem mem_frames_of_register? {name : String} (h : t.register? name = some v) :
    v ∈ t.frames.flatMap Table.values := by
  -- the frame is the outermost one or the innermost of those that are running
  have hframe : t.frame name ∈ t.frames := by
    rw [Stage.frame]
    split
    · exact List.mem_cons_self
    · rw [Stage.innermost]
      cases hrunning : t.running with
      | nil => exact List.mem_cons_self
      | cons frame rest =>
        rw [Stage.frames, hrunning]
        exact List.mem_cons_of_mem _ List.mem_cons_self
  exact List.mem_flatMap.2 ⟨_, hframe, Table.mem_values_iff.2 ⟨name, h⟩⟩

end Has

/-! ### Rearranging -/

section Scenes

variable {s s' : Store} {t t' : Stage} {hand hand' : List Value}

/-- Stages with the same calls under way, and the same frames of the bodies around the innermost
one. -/
structure SameCalls (t t' : Stage) : Prop where
  callees : t'.callees = t.callees
  outer : t'.running.tail = t.running.tail

theorem SameCalls.refl (t : Stage) : SameCalls t t := ⟨rfl, rfl⟩

theorem SameCalls.trans {t'' : Stage} (h : SameCalls t t') (h' : SameCalls t' t'') :
    SameCalls t t'' :=
  ⟨h'.callees.trans h.callees, h'.outer.trans h.outer⟩

/-- A script may keep other values, of those that it can get at. -/
theorem reachable_keep (h : (sceneAt s t hand).Reachable) (hcallees : t'.callees = t.callees)
    (hhand : ∀ v ∈ hand', (sceneAt s t hand).Has v)
    (hframes : ∀ v ∈ t'.frames.flatMap Table.values, (sceneAt s t hand).Has v)
    (hweak : ∀ w ∈ t'.weak.values, w ∈ t.weak.values) : (sceneAt s t' hand').Reachable := by
  refine h.keep rfl ?_ (fun v hv => ?_) hweak
  · simp only [sceneAt, hcallees]
  · have hkept : v ∈ hand' ++ t'.frames.flatMap Table.values := by
      simpa [sceneAt] using hv
    exact (List.mem_append.1 hkept).elim (hhand v) (hframes v)

/-- What is at hand may change. -/
theorem reachable_hand (h : (sceneAt s t hand).Reachable)
    (hhand : ∀ v ∈ hand', (sceneAt s t hand).Has v) : (sceneAt s t hand').Reachable :=
  reachable_keep h rfl hhand (fun _ hv => has_of_frame hv) fun _ hw => hw

/-- A script that has taken some values has them at hand. -/
theorem reachable_take {vs : List Value} (h : ((sceneAt s t hand).take vs).Reachable) :
    (sceneAt s t (vs ++ hand)).Reachable := by
  -- in the scene the values went to the innermost call if there is one; a stage has them at hand
  have hcallees : ((sceneAt s t hand).take vs).calls.map InFlight.callee = t.callees := by
    rw [Scene.take]
    cases hcalls : t.callees with
    | nil => simp [sceneAt, hcalls]
    | cons c rest => simp [sceneAt, hcalls, Function.comp_def]
  have hweak : ((sceneAt s t hand).take vs).weak = t.weak.values := by
    rw [Scene.take]
    split <;> rfl
  refine h.keep (Scene.store_take (sceneAt s t hand) vs).symm ?_ (fun v hv => .of_root ?_) ?_
  · rw [hcallees]
    simp [sceneAt, Function.comp_def]
  · -- so they are moved, and nothing comes to be kept that was not a root
    have hkept : v ∈ (vs ++ hand) ++ t.frames.flatMap Table.values := by
      simpa [sceneAt] using hv
    rw [Scene.mem_roots_take, roots_sceneAt, Stage.roots]
    simp only [List.mem_append] at hkept ⊢
    tauto
  · rw [hweak]
    exact fun _ hw => hw

/-- After an operation its results are at hand. -/
theorem reachable_work (h : (sceneAt s t hand).Reachable) {results : List Value}
    (hwork : s.Work (sceneAt s t hand).Has results s') :
    (sceneAt s' t (results ++ hand)).Reachable :=
  reachable_take (h.work hwork)

end Scenes

/-! ### Computations -/

namespace Run

/-- A computation goes on from where the one before it has ended. -/
theorem run_bind {m : Run ω α} {w w' : World Stage ω} {a : α} (h : m w = (.ok a, w'))
    (k : α → Run ω β) : (m >>= k) w = k a w' := by
  change (match m w with | (r, w') => ExceptT.bindCont k r w') = _
  rw [h]
  rfl

/-- After a failure it does not go on. -/
theorem run_bind_error {m : Run ω α} {w w' : World Stage ω} {e : Stop} (h : m w = (.error e, w'))
    (k : α → Run ω β) : (m >>= k) w = (.error e, w') := by
  change (match m w with | (r, w') => ExceptT.bindCont k r w') = _
  rw [h]
  rfl

/-- What is at hand when a computation has come to its end, and nothing if it has stopped. -/
def yields (after : α → List Value) : Except Stop α → List Value
  | .ok a => after a
  | .error _ => []

/-- From this world, with these values at hand, the computation stays in runs. -/
def StaysAt (w : World Stage ω) (before : List Value) (m : Run ω α) (after : α → List Value) :
    Prop :=
  (sceneAt w.store w.host before).Reachable →
    SameCalls w.host (m w).2.host ∧
      (sceneAt (m w).2.store (m w).2.host (yields after (m w).1)).Reachable

/-- **A computation stays in runs.** Wherever a run comes to with the first values at hand, it goes
on to where the computation ends, with the other values at hand. -/
def Stays (before : List Value) (m : Run ω α) (after : α → List Value) : Prop :=
  ∀ w, StaysAt w before m after

namespace StaysAt

variable {w : World Stage ω} {before before' : List Value} {m : Run ω α} {after after' : α → List Value}

/-- One computation after the other. -/
theorem bind {k : α → Run ω β} {final : β → List Value} (hm : StaysAt w before m after)
    (hk : ∀ {a w'}, m w = (.ok a, w') → StaysAt w' (after a) (k a) final) :
    StaysAt w before (m >>= k) final := by
  intro h
  obtain ⟨hcalls, hreach⟩ := hm h
  -- a failure ends the whole computation, in the scene where the first part has ended
  rcases hr : m w with ⟨e | a, w'⟩
  · rw [hr] at hcalls hreach
    rw [run_bind_error hr]
    exact ⟨hcalls, hreach⟩
  · rw [hr] at hcalls hreach
    rw [run_bind hr]
    obtain ⟨hcalls', hreach'⟩ := hk hr hreach
    exact ⟨hcalls.trans hcalls', hreach'⟩

theorem pure {a : α} (h : ∀ v ∈ after a, (sceneAt w.store w.host before).Has v) :
    StaysAt w before (Pure.pure a) after :=
  fun hreach => ⟨.refl _, reachable_hand hreach h⟩

theorem throw {e : Stop} : StaysAt w before (MonadExcept.throw e) after :=
  fun hreach => ⟨.refl _, reachable_hand hreach nofun⟩

/-- What goes on from the store goes on from this one. -/
theorem ofStore {k : Store → Run ω α} (hk : StaysAt w before (k w.store) after) :
    StaysAt w before (Run.store >>= k) after := hk

/-- What goes on from the stage goes on from this one. -/
theorem ofStage {k : Stage → Run ω α} (hk : StaysAt w before (k w.host) after) :
    StaysAt w before (Run.stage >>= k) after := hk

theorem require {o : Option α}
    (h : ∀ a, o = some a → ∀ v ∈ after a, (sceneAt w.store w.host before).Has v) :
    StaysAt w before (Run.require o) after := by
  cases o with
  | none => exact throw
  | some a => exact pure (h a rfl)

theorem orFault {r : Except Fault α}
    (h : ∀ a, r = .ok a → ∀ v ∈ after a, (sceneAt w.store w.host before).Has v) :
    StaysAt w before (Run.orFault r) after := by
  cases r with
  | error e => exact throw
  | ok a => exact pure (h a rfl)

theorem ofOrFault {r : Except Fault α} {k : α → Run ω β} {final : β → List Value}
    (hk : ∀ {a}, r = .ok a → StaysAt w before (k a) final) :
    StaysAt w before (Run.orFault r >>= k) final := by
  cases r with
  | error e => exact throw
  | ok a => exact hk rfl

theorem ofRequire {o : Option α} {k : α → Run ω β} {final : β → List Value}
    (hk : ∀ {a}, o = some a → StaysAt w before (k a) final) :
    StaysAt w before (Run.require o >>= k) final := by
  cases o with
  | none => exact throw
  | some a => exact hk rfl

/-- Something is made in the store. -/
theorem make {f : Store → α × Store} (results : α → List Value)
    (h : w.store.Work (sceneAt w.store w.host before).Has (results (f w.store).1) (f w.store).2) :
    StaysAt w before (Run.make f) fun a => results a ++ before :=
  fun hreach => ⟨.refl _, reachable_work hreach h⟩

theorem modifyStore {f : Store → Store} {results : List Value}
    (h : w.store.Work (sceneAt w.store w.host before).Has results (f w.store)) :
    StaysAt w before (Run.modifyStore f) fun _ => results ++ before :=
  fun hreach => ⟨.refl _, reachable_work hreach h⟩

/-- Something is done in the store that may fail. -/
theorem attempt {f : Store → Except Fault (α × Store)} (results : α → List Value)
    (h : ∀ {a s'}, f w.store = .ok (a, s') →
      w.store.Work (sceneAt w.store w.host before).Has (results a) s') :
    StaysAt w before (Run.attempt f) fun a => results a ++ before :=
  .ofStore (.ofOrFault fun hf => (modifyStore (h hf)).bind fun _ => pure fun _ hv => has_of_hand hv)

theorem attemptWrite {f : Store → Except Fault Store}
    (h : ∀ {s'}, f w.store = .ok s' →
      w.store.Work (sceneAt w.store w.host before).Has [] s') :
    StaysAt w before (Run.attemptWrite f) fun _ => before :=
  .ofStore (.ofOrFault fun hf => modifyStore (h hf))

/-- The stage may change, if the frames keep what can be got at. -/
theorem modifyStage {f : Stage → Stage} (hcalls : SameCalls w.host (f w.host))
    (hframes : ∀ v ∈ (f w.host).frames.flatMap Table.values,
      (sceneAt w.store w.host before).Has v)
    (hweak : ∀ x ∈ (f w.host).weak.values, x ∈ w.host.weak.values) :
    StaysAt w before (Run.modifyStage f) fun _ => before :=
  fun hreach => ⟨hcalls, reachable_keep hreach hcalls.callees (fun _ hv => has_of_hand hv) hframes
    hweak⟩

/-- What is not needed any more need not be at hand. -/
theorem mono (h : StaysAt w before m after) (hafter : ∀ a, ∀ v ∈ after' a, v ∈ after a) :
    StaysAt w before m after' := by
  intro hreach
  obtain ⟨hcalls, hreach'⟩ := h hreach
  refine ⟨hcalls, reachable_hand hreach' fun v hv => has_of_hand ?_⟩
  -- where it has stopped nothing is at hand, whatever `after'` says
  cases hr : (m w).1 with
  | error e =>
    rw [hr] at hv
    cases hv
  | ok a =>
    rw [hr] at hv
    exact hafter a v hv

end StaysAt

namespace Stays

variable {before : List Value} {m : Run ω α} {after : α → List Value}

theorem bind {k : α → Run ω β} {final : β → List Value} (hm : Stays before m after)
    (hk : ∀ a, Stays (after a) (k a) final) : Stays before (m >>= k) final :=
  fun w => (hm w).bind fun {a w'} _ => hk a w'

theorem pure {a : α} (h : ∀ v ∈ after a, v ∈ before) : Stays before (Pure.pure a : Run ω α) after :=
  fun _ => .pure fun v hv => has_of_hand (h v hv)

theorem throw {e : Stop} : Stays before (MonadExcept.throw e : Run ω α) after := fun _ => .throw

/-- A value without handles can always be got at. -/
theorem scalar {v : Value} (hv : v.handles = []) :
    Stays before (Pure.pure v : Run ω Value) fun u => u :: before :=
  fun _ => .pure (List.forall_mem_cons.2 ⟨.of_handles_eq_nil hv, fun _ hu => has_of_hand hu⟩)

theorem mono {after' : α → List Value} (h : Stays before m after)
    (hafter : ∀ a, ∀ v ∈ after' a, v ∈ after a) : Stays before m after' :=
  fun w => (h w).mono hafter

/-- More may be at hand than is needed. -/
theorem ofHand {before' : List Value} (h : Stays before' m after)
    (hbefore : ∀ v ∈ before', v ∈ before) : Stays before m after :=
  fun w hreach => h w (reachable_hand hreach fun v hv => has_of_hand (hbefore v hv))

/-- After a failure the handler starts with nothing at hand. -/
theorem tryCatch {h : Stop → Run ω α} (hm : Stays before m after) (hh : ∀ e, Stays [] (h e) after) :
    Stays before (MonadExcept.tryCatch m h) after := by
  intro w hreach
  obtain ⟨hcalls, hreach'⟩ := hm w hreach
  -- the store is not rolled back: the handler starts in the world that the failure has left
  have hrun : MonadExcept.tryCatch m h w =
      match m w with
      | (.ok a, w') => (.ok a, w')
      | (.error e, w') => h e w' := by
    change ExceptT.tryCatch m h w = _
    rw [ExceptT.tryCatch, ExceptT.mk]
    change StateT.bind m _ w = _
    rw [StateT.bind]
    rcases m w with ⟨r | r, w'⟩ <;> rfl
  rw [hrun]
  rcases hr : m w with ⟨e | a, w'⟩
  · rw [hr] at hcalls hreach'
    obtain ⟨hcalls', hreach''⟩ := hh e w' hreach'
    exact ⟨hcalls.trans hcalls', hreach''⟩
  · rw [hr] at hcalls hreach'
    exact ⟨hcalls, hreach'⟩

/-- What is read is not needed. -/
theorem store : Stays before (Run.store : Run ω Store) fun _ => before :=
  fun _ hreach => ⟨.refl _, hreach⟩

theorem stage : Stays before (Run.stage : Run ω Stage) fun _ => before :=
  fun _ hreach => ⟨.refl _, hreach⟩

theorem readConsole : Stays before (Run.readConsole : Run ω String) fun _ => before :=
  fun _ hreach => ⟨.refl _, hreach⟩

theorem require {o : Option α} (h : ∀ a, o = some a → ∀ v ∈ after a, v ∈ before) :
    Stays before (Run.require o : Run ω α) after :=
  fun _ => .require fun a ha v hv => has_of_hand (h a ha v hv)

/-- What has to be there is not needed itself. -/
theorem check {o : Option α} : Stays before (Run.require o : Run ω α) fun _ => before :=
  .require fun _ _ _ hv => hv

theorem orFault {r : Except Fault α} (h : ∀ a, r = .ok a → ∀ v ∈ after a, v ∈ before) :
    Stays before (Run.orFault r : Run ω α) after :=
  fun _ => .orFault fun a ha v hv => has_of_hand (h a ha v hv)

/-- Values are read that can be got at. -/
theorem read (values : Store → List Value)
    (h : ∀ (s : Store) (t : Stage), ∀ v ∈ values s, (sceneAt s t before).Has v) :
    Stays before (Run.store : Run ω Store) fun s => values s ++ before :=
  fun w hreach => ⟨.refl _, reachable_hand hreach fun v hv =>
    (List.mem_append.1 hv).elim (h w.store w.host v) has_of_hand⟩

theorem readList {r : ListRef} (hr : .list r ∈ before) :
    Stays before (Run.store : Run ω Store) fun s => s.list r ++ before :=
  .read (·.list r) fun _ _ _ hv => .of_list (has_of_hand hr) hv

theorem readDict {r : DictRef} (hr : .dict r ∈ before) :
    Stays before (Run.store : Run ω Store) fun s => (s.dict r).values ++ before :=
  .read (fun s => (s.dict r).values) fun _ _ _ hv => .of_dict (has_of_hand hr) hv

theorem readCell {r : CellRef} (hr : .cell r ∈ before) :
    Stays before (Run.store : Run ω Store) fun s => (s.cell r).toList ++ before :=
  .read (fun s => (s.cell r).toList) fun _ _ _ hv =>
    .of_cell (has_of_hand hr) (Option.mem_toList.1 hv)

/-- Something is made of what is at hand. -/
theorem make {f : Store → α × Store} (results : α → List Value)
    (h : ∀ (s : Store) (Has : Value → Prop), (∀ v ∈ before, Has v) →
      s.Work Has (results (f s).1) (f s).2) :
    Stays before (Run.make f : Run ω α) fun a => results a ++ before :=
  fun w => .make results (h w.store _ fun _ hv => has_of_hand hv)

theorem modifyStore {f : Store → Store}
    (h : ∀ (s : Store) (Has : Value → Prop), (∀ v ∈ before, Has v) → s.Work Has [] (f s)) :
    Stays before (Run.modifyStore f : Run ω Unit) fun _ => before :=
  fun w => .modifyStore (h w.store _ fun _ hv => has_of_hand hv)

theorem attempt {f : Store → Except Fault (α × Store)} (results : α → List Value)
    (h : ∀ {s a s'} (Has : Value → Prop), (∀ v ∈ before, Has v) → f s = .ok (a, s') →
      s.Work Has (results a) s') :
    Stays before (Run.attempt f : Run ω α) fun a => results a ++ before :=
  fun _ => .attempt results fun hf => h _ (fun _ hv => has_of_hand hv) hf

theorem attemptWrite {f : Store → Except Fault Store}
    (h : ∀ {s s'} (Has : Value → Prop), (∀ v ∈ before, Has v) → f s = .ok s' →
      s.Work Has [] s') : Stays before (Run.attemptWrite f : Run ω Unit) fun _ => before :=
  fun _ => .attemptWrite fun hf => h _ (fun _ hv => has_of_hand hv) hf

end Stays

/-! ### Results -/

/-- The value that a step produces, if any. -/
def produced (r : Result) : List Value := r.value.toList

namespace Stays

variable {before : List Value}

theorem answer (a : Answer) : Stays before (Run.answer a : Run ω Result) produced :=
  .pure nofun

theorem done : Stays before (Run.done : Run ω Result) produced := .answer .done

theorem giveText (cs : List Char) : Stays before (Run.giveText cs : Run ω Result) produced :=
  .answer _

theorem give {v : Value} (hv : v ∈ before) : Stays before (Run.give v : Run ω Result) produced :=
  .bind .store fun _ => .pure fun _ hu => (List.mem_singleton.1 hu).symm ▸ hv

theorem giveOptional {v : Option Value} (hv : ∀ u ∈ v, u ∈ before) :
    Stays before (Run.giveOptional v : Run ω Result) produced :=
  .bind .store fun _ => .pure fun u hu => hv u (Option.mem_toList.1 hu)

theorem showOptional (v : Option Value) :
    Stays before (Run.showOptional v : Run ω Result) produced := by
  -- the value is shown and then forgotten
  have hgive : Stays before (Run.giveOptional v : Run ω Result) fun _ => [] :=
    .bind .store fun _ => .pure nofun
  exact .bind hgive fun _ => .pure nofun

end Stays

end Run

end Script

end Callable
