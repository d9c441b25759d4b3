import Callable.Proofs.Liveness.Finality
import Callable.Proofs.Liveness.Script

/-!
# Weak references

Weak references to a function are made by downgrading it and by cloning others, and they are dropped.
Nothing else makes or takes away one, least of all what is done with the function itself. And however
they came about, there is nothing to them but the function, so they agree on it at every point of a
run: it is alive and they give it back, or it is gone for good.

* `WeakRef.ShowsAlive`, `WeakRef.ShowsDead` — all that a weak reference says of its function.
* `Scene.Act`, `Scene.Does` — what a program does, in steps of which each makes or takes away one weak
  reference at most. `Step.exists_doesAll` — every step is done in this way.
* `Scene.DoesAll.weakCount` — how many weak references there are after some acts.
* `Script.weakCount_keepWeak`, `Script.weakCount_dropWeak` — the same of the registers of a script.
* `Scene.Reachable.weak_references` — the result.
-/

namespace Callable

open Relation

/-- One element more counts if it has the property. -/
theorem countP_cons_toNat {α : Type} (p : α → Bool) (a : α) (l : List α) :
    (a :: l).countP p = l.countP p + (p a).toNat := by
  rw [List.countP_cons]
  cases p a <;> rfl

namespace WeakRef

variable {w : WeakRef} {s : Store}

/-- **A weak reference shows its function to be alive**, in every way in which it can be asked. -/
structure ShowsAlive (w : WeakRef) (s : Store) : Prop where
  isAlive : w.isAlive s = true
  upgrade? : w.upgrade? s = some w.target
  render : w.render s = "<weakref".toList ++ Rendering.address w.target.index ++
    ("; to '".toList ++ Kind.function.name.toList ++ "'>".toList)

/-- **A weak reference shows its function to be dead**, in every way in which it can be asked. -/
structure ShowsDead (w : WeakRef) (s : Store) : Prop where
  isAlive : w.isAlive s = false
  upgrade? : w.upgrade? s = none
  render : w.render s = "<weakref".toList ++ Rendering.address w.target.index ++ "; dead>".toList

theorem showsAlive_of_isAlive (h : w.isAlive s = true) : w.ShowsAlive s := by
  refine ⟨h, ?_, ?_⟩
  · rw [WeakRef.upgrade?, if_pos h]
  · unfold WeakRef.render
    rw [if_pos h]

theorem showsDead_of_not_isAlive (h : w.isAlive s = false) : w.ShowsDead s := by
  have hnot : ¬ w.isAlive s = true := ne_true_of_eq_false h
  refine ⟨h, ?_, ?_⟩
  · rw [WeakRef.upgrade?, if_neg hnot]
  · unfold WeakRef.render
    rw [if_neg hnot]

end WeakRef

namespace Scene

variable {S S' : Scene} {f : FunctionRef}

/-- The number of weak references to a function that there are. -/
def weakCount (S : Scene) (f : FunctionRef) : Nat := S.weak.countP fun w => w.target == f

/-! ### Acts -/

/-- What a program does. -/
inductive Act where
  | operation
  | rearrange
  | enter
  | leave
  | upgrade
  | settle
  | downgrade (f : FunctionRef)
  | clone (w : WeakRef)
  | drop (w : WeakRef)

namespace Act

/-- Does it make a weak reference to the function? -/
def makes (f : FunctionRef) : Act → Bool
  | downgrade g => g == f
  | clone w => w.target == f
  | _ => false

/-- Does it take away a weak reference to the function? -/
def takes (f : FunctionRef) : Act → Bool
  | drop w => w.target == f
  | _ => false

end Act

/-- **A program does something.** The operations of the library are all one act here, and so are the
ways in which registers and frames are rearranged. -/
inductive Does (S : Scene) : Act → Scene → Prop
  | operation {results : List Value} {store : Store} (h : S.store.Work S.Has results store) :
      Does S .operation (take { S with store } results)
  | rearrange {registers : List Value} {calls : List InFlight}
      (hcallees : calls.map InFlight.callee = S.calls.map InFlight.callee)
      (hkept : ∀ v ∈ registers ++ calls.flatMap InFlight.kept, S.Has v) :
      Does S .rearrange { S with registers, calls }
  | enter {callee : Value} {args full : List Value} {kwargs : Table Value} {f : FunctionRef}
      (htarget : callee.target? args = some (f, full)) (hcallee : S.Has callee)
      (hargs : ∀ v ∈ args, S.Has v) (hkwargs : ∀ v ∈ kwargs.values, S.Has v) :
      Does S .enter { S with
        store := (S.store.newDict .empty).2
        calls := ⟨callee, ((S.store.function f).request (S.store.newDict .empty).1 full
          kwargs).values⟩ :: S.calls }
  | leave {c : InFlight} {calls : List InFlight} {result : Option Value}
      (hcalls : S.calls = c :: calls) (hresult : ∀ v ∈ result, S.Has v) :
      Does S .leave (take { S with calls } result.toList)
  | upgrade {w : WeakRef} {f : FunctionRef} (hw : w ∈ S.weak)
      (h : w.upgrade? S.settled = some f) : Does S .upgrade (S.take [.function f])
  | settle : Does S .settle { S with store := S.settled }
  | downgrade {f : FunctionRef} (hf : S.Has (.function f)) :
      Does S (.downgrade f) { S with weak := ⟨f⟩ :: S.weak }
  | clone {w : WeakRef} (hw : w ∈ S.weak) : Does S (.clone w) { S with weak := w :: S.weak }
  | drop {w : WeakRef} {before after : List WeakRef} (hw : S.weak = before ++ w :: after) :
      Does S (.drop w) { S with weak := before ++ after }

/-- One act after the other. -/
inductive DoesAll : Scene → List Act → Scene → Prop
  | nil (S : Scene) : DoesAll S [] S
  | cons {S S₁ S₂ : Scene} {a : Act} {acts : List Act} (h : S.Does a S₁)
      (rest : DoesAll S₁ acts S₂) : DoesAll S (a :: acts) S₂

theorem DoesAll.append {S₁ : Scene} {acts acts' : List Act} (h : S.DoesAll acts S₁)
    (h' : S₁.DoesAll acts' S') : S.DoesAll (acts ++ acts') S' := by
  induction h with
  | nil => exact h'
  | cons h _ ih => exact .cons h (ih h')

/-- What a program does is a step of a run. -/
theorem Does.step {a : Act} (h : S.Does a S') : S.Step S' := by
  -- references may be copied and dropped while everything else stays as it is
  have weak {weak : List WeakRef} (hweak : ∀ w ∈ weak, w ∈ S.weak) : S.Step { S with weak } :=
    .keep rfl (fun v hv => .of_root (mem_roots_of_kept hv)) hweak
  cases h with
  | operation h => exact .work h
  | rearrange hcallees hkept => exact .keep hcallees hkept fun w hw => hw
  | enter htarget hcallee hargs hkwargs => exact .enter htarget hcallee hargs hkwargs
  | leave hcalls hresult => exact .leave hcalls hresult
  | upgrade hw h => exact .upgrade hw h
  | settle => exact .settle
  | downgrade hf => exact .downgrade hf
  | clone hw =>
    refine weak fun w' hw' => ?_
    rcases List.mem_cons.1 hw' with rfl | hold
    · exact hw
    · exact hold
  | @drop w before after hw =>
    -- what is left was there, on either side of the reference that has gone
    refine weak fun w' hw' => ?_
    rw [hw]
    rcases List.mem_append.1 hw' with hbefore | hafter
    · exact List.mem_append_left _ hbefore
    · exact List.mem_append_right _ (List.mem_cons_of_mem _ hafter)

theorem DoesAll.run {acts : List Act} (h : S.DoesAll acts S') : ReflTransGen Step S S' := by
  induction h with
  | nil => exact .refl
  | cons h _ ih => exact .head h.step ih

/-! ### Every step is done by acts -/

/-- References that there are may be cloned, one after the other. -/
theorem exists_clones (S : Scene) {ws : List WeakRef} (hws : ∀ w ∈ ws, w ∈ S.weak) :
    ∃ acts, S.DoesAll acts { S with weak := ws ++ S.weak } := by
  -- the last ones first, so each clone comes in front of those that were made
  induction ws with
  | nil => exact ⟨[], .nil S⟩
  | cons w ws ih =>
    obtain ⟨hw, hrest⟩ := List.forall_mem_cons.1 hws
    obtain ⟨acts, hacts⟩ := ih hrest
    exact ⟨_, hacts.append (.cons (.clone (List.mem_append_right ws hw)) (.nil _))⟩

/-- References may be dropped, one after the other. -/
theorem exists_drops (S : Scene) (kept : List WeakRef) {dropped : List WeakRef}
    (hweak : S.weak = kept ++ dropped) : ∃ acts, S.DoesAll acts { S with weak := kept } := by
  -- `S` is general, as with each reference that goes the scene is another one
  induction dropped generalizing S with
  | nil =>
    rw [List.append_nil] at hweak
    subst hweak
    exact ⟨[], .nil S⟩
  | cons w dropped ih =>
    obtain ⟨acts, hacts⟩ := ih { S with weak := kept ++ dropped } rfl
    exact ⟨_, .cons (.drop hweak) hacts⟩

/-- **Every step is done by acts.** Where references are copied and dropped together, those that are
to stay are cloned, and then the old ones are dropped. -/
theorem Step.exists_doesAll (h : S.Step S') : ∃ acts, S.DoesAll acts S' := by
  cases h with
  | work h => exact ⟨_, .cons (.operation h) (.nil _)⟩
  | enter htarget hcallee hargs hkwargs =>
    exact ⟨_, .cons (.enter htarget hcallee hargs hkwargs) (.nil _)⟩
  | leave hcalls hresult => exact ⟨_, .cons (.leave hcalls hresult) (.nil _)⟩
  | downgrade hf => exact ⟨_, .cons (.downgrade hf) (.nil _)⟩
  | upgrade hw h => exact ⟨_, .cons (.upgrade hw h) (.nil _)⟩
  | settle => exact ⟨_, .cons .settle (.nil _)⟩
  | @keep registers calls weak hcallees hkept hweak =>
    -- clones first: a reference that stays may be a copy of one that goes
    let rearranged : Scene := { S with registers, calls }
    obtain ⟨clones, hclones⟩ := exists_clones rearranged hweak
    obtain ⟨drops, hdrops⟩ :=
      exists_drops { rearranged with weak := weak ++ S.weak } weak rfl
    exact ⟨_, .cons (.rearrange hcallees hkept) (hclones.append hdrops)⟩

theorem exists_doesAll_of_run (h : ReflTransGen Step S S') : ∃ acts, S.DoesAll acts S' := by
  induction h with
  | refl => exact ⟨[], .nil S⟩
  | tail _ hstep ih =>
    obtain ⟨acts, hacts⟩ := ih
    obtain ⟨acts', hacts'⟩ := hstep.exists_doesAll
    exact ⟨_, hacts.append hacts'⟩

/-! ### How many there are -/

/-- An act changes the number of weak references to a function if it makes or takes away one. -/
theorem Does.weakCount {a : Act} (h : S.Does a S') (f : FunctionRef) :
    S'.weakCount f + (a.takes f).toNat = S.weakCount f + (a.makes f).toNat := by
  -- most acts have nothing to do with weak references
  have same {T : Scene} (hweak : T.weak = S.weak) : T.weakCount f + 0 = S.weakCount f + 0 := by
    rw [Scene.weakCount, Scene.weakCount, hweak]
  cases h with
  | operation | leave | upgrade => exact same (weak_take ..)
  | rearrange | enter | settle => exact same rfl
  | @downgrade g hf => exact countP_cons_toNat (fun w => w.target == f) ⟨g⟩ S.weak
  | @clone w hw => exact countP_cons_toNat (fun w => w.target == f) w S.weak
  | @drop w before after hw =>
    -- both sides count the same list, with the reference that goes in different places
    change ((before ++ after).countP fun w => w.target == f) + (w.target == f).toNat =
      S.weak.countP fun w => w.target == f
    rw [hw, List.countP_append, List.countP_append, countP_cons_toNat, Nat.add_assoc]

/-- **How many weak references there are** after some acts: as many as before, more those that were
made, less those that were taken away. -/
theorem DoesAll.weakCount {acts : List Act} (h : S.DoesAll acts S') (f : FunctionRef) :
    S'.weakCount f + acts.countP (·.takes f) = S.weakCount f + acts.countP (·.makes f) := by
  -- what is taken stands on the left, so that no subtraction can fall below zero
  induction h with
  | nil => rfl
  | @cons S S₁ S₂ a acts hact _ ih =>
    have hone : S₁.weakCount f + (a.takes f).toNat = S.weakCount f + (a.makes f).toNat :=
      hact.weakCount f
    rw [countP_cons_toNat, countP_cons_toNat]
    omega

end Scene

/-! ### The registers of a script -/

namespace Table

variable {V : Type} {t : Table V} {k : String} {v : V} {p : V → Bool}

/-- A value that is written comes in the place of the one that was there. -/
theorem countP_put (l : List (String × V)) :
    ((put k v l).map Prod.snd).countP p + ((find k l).any p).toNat =
      (l.map Prod.snd).countP p + (p v).toNat := by
  induction l with
  | nil => cases hp : p v <;> simp [put, find, hp]
  | cons e rest ih =>
    obtain ⟨k', v'⟩ := e
    by_cases hk : k' = k
    · -- the name is found here: the old value is counted out and the new one in
      simp only [put, find, if_pos hk, List.map_cons, countP_cons_toNat, Option.any_some]
      omega
    · simp only [put, find, if_neg hk, List.map_cons, countP_cons_toNat]
      omega

theorem countP_values_insert :
    (t.insert k v).values.countP p + ((t.get? k).any p).toNat = t.values.countP p + (p v).toNat :=
  countP_put t.entries

/-- A value that is removed is one less. -/
theorem countP_values_erase :
    (t.erase k).values.countP p + ((t.get? k).any p).toNat = t.values.countP p := by
  obtain ⟨l, hl⟩ := t
  change ((without k l).map Prod.snd).countP p + ((find k l).any p).toNat =
    (l.map Prod.snd).countP p
  induction l with
  | nil => rfl
  | cons e rest ih =>
    obtain ⟨k', v'⟩ := e
    obtain ⟨hnot, hrest⟩ := List.nodup_cons.1 hl
    by_cases hk : k' = k
    · -- the name is there once, so the rest is as it was
      subst hk
      have hwithout : without k' rest = rest := by
        refine List.filter_eq_self.2 fun e he => bne_iff_ne.2 fun hek => hnot ?_
        rw [← hek]
        exact List.mem_map.2 ⟨e, he, rfl⟩
      simp only [without, find, if_pos, List.filter_cons, bne_self_eq_false, List.map_cons,
        countP_cons_toNat, Option.any_some, Bool.false_eq_true, if_false] at hwithout ⊢
      rw [hwithout]
    · have hkeep : without k ((k', v') :: rest) = (k', v') :: without k rest := by
        rw [without, List.filter_cons, if_pos (bne_iff_ne.2 hk)]
        rfl
      rw [hkeep]
      have hrest' := ih hrest
      simp only [find, if_neg hk, List.map_cons, countP_cons_toNat]
      omega

end Table

namespace Script

variable {ω : Type} {t : Stage} {f : FunctionRef}

/-- A script that keeps a weak reference in a register has one more, and one less if there was one in
the register. -/
theorem weakCount_keepWeak (t : Stage) (name : String) (w : WeakRef) (f : FunctionRef) :
    (t.keepWeak name w).weakCount f + ((t.weak? name).any (·.target == f)).toNat =
      t.weakCount f + (w.target == f).toNat :=
  Table.countP_values_insert

theorem weakCount_dropWeak (t : Stage) (name : String) (f : FunctionRef) :
    (t.dropWeak name).weakCount f + ((t.weak? name).any (·.target == f)).toNat = t.weakCount f :=
  Table.countP_values_erase

/-- **How a script is told how many there are**: those in its registers. -/
theorem count_answer {w w' : World Stage ω} {e : Expr} {n : Nat}
    (h : (WeakAction.count e).perform w = (.ok ⟨.count n, none⟩, w')) :
    ∃ f, e.evalFunction w = (.ok f, w') ∧ n = w'.host.weakCount f := by
  rcases heval : (e.evalFunction : Run ω FunctionRef) w with ⟨stop | f, w₁⟩
  · -- without a function there is no answer
    rw [WeakAction.perform, Run.run_bind_error heval] at h
    cases h
  · rw [WeakAction.perform, Run.run_bind heval] at h
    cases h
    exact ⟨f, rfl, rfl⟩

/-- **What a script is told of a weak reference** is what holds when everything is let go that
nothing holds. -/
theorem eq_settled_of_evalWeak {w w' : World Stage ω} {name : String} {x : WeakRef}
    (h : evalWeak name w = (.ok x, w')) :
    x ∈ w.host.weak.values ∧
      x.isAlive w'.store = x.isAlive (sceneAt w.store w.host []).settled ∧
      x.upgrade? w'.store = x.upgrade? (sceneAt w.store w.host []).settled ∧
      x.render w'.store = x.render (sceneAt w.store w.host []).settled := by
  obtain ⟨hx, rfl⟩ := eq_of_evalWeak h
  -- the script has settled for this one function only, which decides all three answers
  have halive : x.isAlive (settleFor x.target w).store =
      x.isAlive (sceneAt w.store w.host []).settled := by
    rw [settled_sceneAt]
    exact isAlive_settleFor x.target w
  refine ⟨Table.mem_values_iff.2 ⟨name, hx⟩, halive, ?_, ?_⟩
  · rw [WeakRef.upgrade?, WeakRef.upgrade?, halive]
  · unfold WeakRef.render
    rw [halive]

end Script

/-! ### The result -/

namespace Scene

open Script

variable {S : Scene}

namespace Sound

/-- The weak references to a function agree with each other, and with what holds it. -/
theorem showsAlive_or_showsDead (h : S.Sound) (f : FunctionRef) :
    (S.IsHeld (.function f) ∧ ∀ w ∈ S.weak, w.target = f → w.ShowsAlive S.settled) ∨
      (¬ S.IsHeld (.function f) ∧ ∀ w ∈ S.weak, w.target = f → w.ShowsDead S.settled) := by
  by_cases hheld : S.IsHeld (.function f)
  · refine .inl ⟨hheld, fun w _ hw => WeakRef.showsAlive_of_isAlive ?_⟩
    subst hw
    exact h.isAlive_iff.2 hheld
  · refine .inr ⟨hheld, fun w _ hw => WeakRef.showsDead_of_not_isAlive ?_⟩
    subst hw
    exact Bool.eq_false_iff.2 fun halive => hheld (h.isAlive_iff.1 halive)

end Sound

/-- A function that a weak reference names is not made again. -/
theorem Reachable.ne_of_newFunction (h : S.Reachable) {w : WeakRef} (hw : w ∈ S.weak) {S' : Scene}
    (hrun : ReflTransGen Step S S') (fn : FunctionObject) :
    (S'.store.newFunction fn).1 ≠ w.target := by
  -- the target was made before, so its number is below the size of the heap
  have hmade : w.target.index < S'.store.functions.size :=
    Nat.lt_of_lt_of_le (h.made_of_weak w hw) (size_le_of_run hrun)
  intro heq
  -- the number of the new function is the first one that was not given out
  rw [← heq] at hmade
  exact Nat.lt_irrefl _ hmade

/-- **Weak references agree, and death is final.** At every point of every run, steps of bodies
included:

* all weak references to a function show it to be alive, and give back the function itself, if it is
  held, and all show it to be dead if it is not;
* if one of them shows it to be dead, all of them do so at every later point;
* no function that is made later is the one that a weak reference names, be it dead or alive;
* whatever is done, it is done by acts of which each makes or takes away one weak reference at most,
  and after any acts there are as many to a function as before, more those that were made by
  downgrading it or by cloning, less those that were dropped;
* a script is told just this, of each of the weak references in its registers and of their number,
  where one that is kept in a register takes the place of the one that was there. -/
theorem Reachable.weak_references (h : S.Reachable) :
    (∀ f, (S.IsHeld (.function f) ∧ ∀ w ∈ S.weak, w.target = f → w.ShowsAlive S.settled) ∨
      (¬ S.IsHeld (.function f) ∧ ∀ w ∈ S.weak, w.target = f → w.ShowsDead S.settled)) ∧
    (∀ w ∈ S.weak, w.isAlive S.settled = false → ∀ S', ReflTransGen Step S S' →
      ∀ w' : WeakRef, w'.target = w.target → w'.ShowsDead S'.settled) ∧
    (∀ w ∈ S.weak, ∀ S', ReflTransGen Step S S' → ∀ fn, (S'.store.newFunction fn).1 ≠ w.target) ∧
    (∀ S', ReflTransGen Step S S' → ∃ acts, S.DoesAll acts S') ∧
    (∀ acts S', S.DoesAll acts S' → S'.Reachable ∧ ∀ f,
      S'.weakCount f + acts.countP (·.takes f) = S.weakCount f + acts.countP (·.makes f)) ∧
    ∀ {ω : Type} (w : World Stage ω), sceneAt w.store w.host [] = S →
      (∀ name x w', evalWeak name w = (.ok x, w') → x ∈ S.weak ∧
        x.isAlive w'.store = x.isAlive S.settled ∧ x.upgrade? w'.store = x.upgrade? S.settled ∧
        x.render w'.store = x.render S.settled) ∧
      (∀ e n w', (WeakAction.count e).perform w = (.ok ⟨.count n, none⟩, w') →
        ∃ f, e.evalFunction w = (.ok f, w') ∧ n = (sceneAt w'.store w'.host []).weakCount f) ∧
      ∀ name f, (∀ x, (w.host.keepWeak name x).weakCount f +
          ((w.host.weak? name).any (·.target == f)).toNat =
            S.weakCount f + (x.target == f).toNat) ∧
        (w.host.dropWeak name).weakCount f +
          ((w.host.weak? name).any (·.target == f)).toNat = S.weakCount f := by
  have hS : S.Sound := h.sound
  refine ⟨hS.showsAlive_or_showsDead, ?_, fun w hw S' hrun => h.ne_of_newFunction hw hrun,
    fun S' => exists_doesAll_of_run, fun acts S' hacts => ⟨h.trans hacts.run, hacts.weakCount⟩, ?_⟩
  · -- `w'` need not be a reference that there was: it has the same target, and that is gone
    intro w hw hdead S' hrun w' hw'
    refine WeakRef.showsDead_of_not_isAlive ?_
    change S'.settled.isAlive (.function w'.target) = false
    rw [hw']
    exact hS.gone_of_run (h.made_of_weak w hw) hdead hrun
  · rintro ω w rfl
    exact ⟨fun name x w' => eq_settled_of_evalWeak, fun e n w' => count_answer,
      fun name f => ⟨fun x => weakCount_keepWeak w.host name x f, weakCount_dropWeak w.host name f⟩⟩

/-! ### A function that is made later -/

section Later

/-- The code of another function. -/
def laterCode : Code := ⟨⟨1⟩, "g", [], []⟩

/-- Where a function was dropped, another one is made, with the code and the globals that it needs. -/
def laterScene : Scene where
  store := ((onlyStore.newCode "g" [] []).2.newDict .empty).2.makeFunction laterCode ⟨1⟩ "" |>.2
  registers := [.function ⟨1⟩, .dict ⟨1⟩, .code laterCode]
  calls := []
  weak := [⟨⟨0⟩⟩]

/-- The other function is made by three operations. -/
theorem doesAll_laterScene :
    droppedScene.DoesAll [.operation, .operation, .operation] laterScene := by
  refine .cons (.operation (.newCode "g" [] (List.forall_mem_nil _))) ?_
  refine .cons (.operation (.newDict (t := .empty) nofun)) ?_
  refine .cons (.operation (.makeFunction ""
    (Has.of_root (v := .code laterCode) (List.mem_cons_of_mem _ List.mem_cons_self))
    (Has.of_root (v := .dict ⟨1⟩) List.mem_cons_self))) ?_
  exact .nil _

/-- The function that is kept is shown to be alive. As soon as the register is empty it is shown to be
dead, and it still is when another function was made. There was one weak reference to it all the time,
and if that is cloned there are two. -/
theorem weak_references_later :
    keptScene.Reachable ∧ droppedScene.Reachable ∧
      (WeakRef.mk ⟨0⟩).ShowsAlive keptScene.settled ∧
      (WeakRef.mk ⟨0⟩).ShowsDead droppedScene.settled ∧
      (WeakRef.mk ⟨0⟩).ShowsDead laterScene.settled ∧
      laterScene.weakCount ⟨0⟩ = 1 ∧
      ∀ S, laterScene.DoesAll [.clone ⟨⟨0⟩⟩] S → S.weakCount ⟨0⟩ = 2 := by
  have hkept : keptScene.Reachable := reachable_keptScene
  have hdropped : droppedScene.Reachable := by
    have hstep : keptScene.Step droppedScene := .keep rfl nofun fun w hw => hw
    exact hkept.tail hstep
  have hheld : keptScene.IsHeld (.function ⟨0⟩) := .inl ⟨_, List.mem_cons_self, .function ⟨0⟩⟩
  have hfree : ¬ droppedScene.IsHeld (.function ⟨0⟩) := by
    rw [isHeld_iff]
    rintro (⟨v, hv, -⟩ | ⟨o, ho⟩)
    · cases hv
    · -- what an object holds after the release it held before, and nothing held the function
      have hmem : Object.function ⟨0⟩ ∈ droppedScene.settled.handles o := Store.holds_iff.1 ho
      rw [settled, Store.handles_release ho.isAlive] at hmem
      have hdict := (holds_onlyStore (Store.holds_iff.2 hmem)).2
      cases hdict
  obtain ⟨hagree, -⟩ := Reachable.weak_references hkept
  obtain ⟨hagree', hfinal, -, -, hcount, -⟩ := Reachable.weak_references hdropped
  have halive : (WeakRef.mk ⟨0⟩).ShowsAlive keptScene.settled := by
    rcases hagree ⟨0⟩ with ⟨-, hall⟩ | ⟨hnot, -⟩
    · exact hall _ List.mem_cons_self rfl
    · exact absurd hheld hnot
  have hdead : (WeakRef.mk ⟨0⟩).ShowsDead droppedScene.settled := by
    rcases hagree' ⟨0⟩ with ⟨hyes, -⟩ | ⟨-, hall⟩
    · exact absurd hyes hfree
    · exact hall _ List.mem_cons_self rfl
  have hlater := doesAll_laterScene
  refine ⟨hkept, hdropped, halive, hdead, ?_, (hcount _ _ hlater).2 ⟨0⟩, fun S hS => ?_⟩
  · exact hfinal _ List.mem_cons_self hdead.isAlive _ hlater.run _ rfl
  · exact (hcount _ _ (hlater.append hS)).2 ⟨0⟩

end Later

end Scene

end Callable
