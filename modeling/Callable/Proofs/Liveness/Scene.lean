import Callable.Function.Weak
import Callable.Proofs.Liveness.Work
import Callable.Proofs.Run.Course

/-!
# When functions are alive

A program keeps values in registers, and it makes calls. A call in flight keeps its callee, and
whoever evaluates it has the parts of the request and the frame of the body. Everything else is done
through the operations of the library, on values that can be got at from there. `Scene.Step` is one
step of such a program, in a body or outside of any, and a run is any number of them.

Objects that nothing holds any more are let go. When a program does that makes no difference as long
as nobody asks whether a function is alive, so it may do it at any time, and `Scene.settled` is the
store in which the question is answered.

* `Scene` — a point between two steps of a run; `Scene.Step`, `Scene.Reachable` — the steps, and the
  points that runs come to.
* `Scene.IsHeld` — an object is held by a register, by a call in flight, or by an object that is
  alive.
* `Scene.Sound` — there are no dangling handles. Every step keeps it so (`Sound.step`), hence it holds
  of all points of a run (`Reachable.sound`).
* `Scene.Reachable.liveness` — a function is alive exactly as long as it is held.
-/

namespace Callable

open Relation

/-- The values in a request. -/
def Request.values (r : Request) : List Value :=
  [.code r.code, .dict r.globals, .dict r.locals, .ofTuple? r.defaults, .ofDict? r.kwDefaults] ++
    r.args ++ r.kwargs.values ++ (r.closure.getD []).map .cell

/-- A call in flight: the callee, and what the evaluator keeps, which is the request at first and then
whatever is in the frame of the body. -/
structure InFlight where
  callee : Value
  kept : List Value

/-- **A point between two steps of a run.** -/
structure Scene where
  store : Store
  registers : List Value
  /-- The calls in flight, the innermost first. -/
  calls : List InFlight
  /-- The weak references that the program has. -/
  weak : List WeakRef

namespace Scene

/-- Before the first step. -/
def start : Scene := ⟨.empty, [], [], []⟩

/-- The values that the program holds. -/
def roots (S : Scene) : List Value :=
  S.registers ++ S.calls.flatMap fun c => c.callee :: c.kept

/-- The store when everything is let go that nothing holds. -/
def settled (S : Scene) : Store := S.store.release S.roots

/-- The program can get at the value: at every object that it holds. -/
def Has (S : Scene) (v : Value) : Prop := ∀ o, v.Holds o → S.store.Reaches S.roots o

/-- Keep some values more, in the innermost frame, or in registers if no call is in flight. -/
def take (S : Scene) (vs : List Value) : Scene :=
  match S.calls with
  | [] => { S with registers := vs ++ S.registers }
  | c :: calls => { S with calls := { c with kept := vs ++ c.kept } :: calls }

/-- **A step of a run**, in a body or outside of any. -/
inductive Step (S : Scene) : Scene → Prop
  /-- An operation of the library. What comes of it is kept. -/
  | work {results : List Value} {store : Store} (h : S.store.Work S.Has results store) :
      Step S (take { S with store } results)
  /-- Registers and frames change: handles are copied, overwritten and dropped, whatever the program
  can get at may be put there, and weak references are copied and dropped. -/
  | keep {registers : List Value} {calls : List InFlight} {weak : List WeakRef}
      (hcallees : calls.map InFlight.callee = S.calls.map InFlight.callee)
      (hkept : ∀ v ∈ registers ++ calls.flatMap InFlight.kept, S.Has v)
      (hweak : ∀ w ∈ weak, w ∈ S.weak) : Step S { S with registers, calls, weak }
  /-- A call begins: the evaluator has the request. -/
  | enter {callee : Value} {args full : List Value} {kwargs : Table Value} {f : FunctionRef}
      (htarget : callee.target? args = some (f, full)) (hcallee : S.Has callee)
      (hargs : ∀ v ∈ args, S.Has v) (hkwargs : ∀ v ∈ kwargs.values, S.Has v) :
      Step S { S with
        store := (S.store.newDict .empty).2
        calls := ⟨callee, ((S.store.function f).request (S.store.newDict .empty).1 full
          kwargs).values⟩ :: S.calls }
  /-- The innermost call ends, with a result if it does not fail. -/
  | leave {c : InFlight} {calls : List InFlight} {result : Option Value}
      (hcalls : S.calls = c :: calls) (hresult : ∀ v ∈ result, S.Has v) :
      Step S (take { S with calls } result.toList)
  /-- A weak reference to a function is made. -/
  | downgrade {f : FunctionRef} (hf : S.Has (.function f)) : Step S { S with weak := ⟨f⟩ :: S.weak }
  /-- A weak reference is turned into the function, which is alive. -/
  | upgrade {w : WeakRef} {f : FunctionRef} (hw : w ∈ S.weak)
      (h : w.upgrade? S.settled = some f) : Step S (S.take [.function f])
  /-- Everything is let go that nothing holds. -/
  | settle : Step S { S with store := S.settled }

/-- **A point that a run comes to.** -/
def Reachable (S : Scene) : Prop := ReflTransGen Step start S

/-- **Something holds the object**: a register, a call in flight, or an object that is alive. -/
def IsHeld (S : Scene) (o : Object) : Prop :=
  (∃ v ∈ S.registers, v.Holds o) ∨
    (∃ c ∈ S.calls, c.callee.Holds o ∨ ∃ v ∈ c.kept, v.Holds o) ∨
    ∃ o', S.settled.isAlive o' = true ∧ S.settled.Holds o' o

/-- **No handle dangles**, neither in the store nor with the program. -/
structure Sound (S : Scene) : Prop where
  store : S.store.Sound
  roots : ∀ v ∈ S.roots, v.Live S.store

variable {S S' : Scene} {o : Object}

/-! ### Every step keeps a scene sound -/

theorem mem_roots_take {vs : List Value} {v : Value} :
    v ∈ (S.take vs).roots ↔ v ∈ vs ∨ v ∈ S.roots := by
  rw [take]
  split
  · -- no call is in flight: the values go to the registers
    simp only [roots, List.mem_append, or_assoc]
  · rename_i c calls hcalls
    simp only [roots, hcalls, List.flatMap_cons, List.mem_append, List.mem_cons]
    tauto

/-- What is kept is held. -/
theorem mem_roots_of_kept {v : Value}
    (hv : v ∈ S.registers ++ S.calls.flatMap InFlight.kept) : v ∈ S.roots := by
  rcases List.mem_append.1 hv with hv | hv
  · exact List.mem_append_left _ hv
  · obtain ⟨c, hc, hv⟩ := List.mem_flatMap.1 hv
    exact List.mem_append_right _ (List.mem_flatMap.2 ⟨c, hc, List.mem_cons_of_mem _ hv⟩)

theorem store_take (S : Scene) (vs : List Value) : (S.take vs).store = S.store := by
  rw [take]
  split <;> rfl

namespace Sound

/-- What a program can get at is live. -/
theorem live_of_has (h : S.Sound) {v : Value} (hv : S.Has v) : v.Live S.store :=
  fun o ho => h.store.isAlive_of_reaches h.roots (hv o (Value.holds_iff.2 ho))

/-- Live values may be kept. -/
theorem take (h : S.Sound) {vs : List Value} (hvs : ∀ v ∈ vs, v.Live S.store) :
    (S.take vs).Sound := by
  refine ⟨?_, fun v hv => ?_⟩
  · rw [store_take]
    exact h.store
  · rw [store_take]
    rcases mem_roots_take.1 hv with hnew | hold
    · exact hvs v hnew
    · exact h.roots v hold

/-- The store may grow. -/
theorem grow (h : S.Sound) {store : Store} {results : List Value}
    (hgrown : S.store.Grown store results) : Scene.Sound { S with store } :=
  ⟨hgrown.sound, fun v hv => (h.roots v hv).mono hgrown.keeps⟩

/-- With fewer roots, or with others that are live, the scene is as sound. -/
theorem of_roots (h : S.Sound) (hstore : S'.store = S.store)
    (hroots : ∀ v ∈ S'.roots, v ∈ S.roots ∨ v.Live S.store) : S'.Sound := by
  refine ⟨hstore ▸ h.store, fun v hv => ?_⟩
  rw [hstore]
  exact (hroots v hv).elim (h.roots v) id

/-- The values of a request are live: they are those of the function, the arguments and the new
dict. -/
theorem live_request {s s' : Store} (hs : s.Sound) {f : FunctionRef} {locals : DictRef}
    {args : List Value} {kwargs : Table Value} (hf : (Value.function f).Live s)
    (hargs : ∀ v ∈ args, v.Live s) (hkwargs : ∀ v ∈ kwargs.values, v.Live s)
    (hgrown : s.Grown s' [.dict locals]) :
    ∀ v ∈ ((s.function f).request locals args kwargs).values, v.Live s' := by
  intro v hv
  simp only [Request.values, FunctionObject.request, List.mem_append, List.mem_cons,
    List.not_mem_nil, or_false, List.mem_map] at hv
  -- the function is of the store before, and what was live in that is live after it
  have hfield {w : Value} (hw : w ∈ (s.function f).contents) : w.Live s' :=
    (hs.live_field hf hw).mono hgrown.keeps
  rcases hv with (((rfl | rfl | rfl | rfl | rfl) | hv) | hv) | ⟨r, hr, rfl⟩
  · exact hfield (FunctionObject.mem_contents.2 (by simp))
  · exact hfield (FunctionObject.mem_contents.2 (by simp))
  · exact hgrown.live _ List.mem_cons_self
  · exact hfield (FunctionObject.mem_contents.2 (by simp))
  · exact hfield (FunctionObject.mem_contents.2 (by simp))
  · exact (hargs v hv).mono hgrown.keeps
  · exact (hkwargs v hv).mono hgrown.keeps
  · exact hfield (List.mem_append_right _ (List.mem_map_of_mem hr))

/-- What a call passes on is live: the function, and the arguments with the receiver. -/
theorem live_target {s : Store} {callee : Value} {args full : List Value} {f : FunctionRef}
    (htarget : callee.target? args = some (f, full)) (hcallee : callee.Live s)
    (hargs : ∀ v ∈ args, v.Live s) : (Value.function f).Live s ∧ ∀ v ∈ full, v.Live s := by
  cases callee with
  | function r =>
    cases htarget
    exact ⟨hcallee, hargs⟩
  | method m =>
    cases htarget
    -- a bound method holds its function and all that its receiver holds
    have hm : ∀ o ∈ Object.function m.function :: m.receiver.handles, s.isAlive o = true := hcallee
    refine ⟨fun o ho => ?_, fun v hv => ?_⟩
    · exact hm o (List.mem_cons.2 (.inl (List.mem_singleton.1 ho)))
    · rcases List.mem_cons.1 hv with rfl | hv
      · exact fun o ho => hm o (List.mem_cons_of_mem _ ho)
      · exact hargs v hv
  | _ => cases htarget

/-- **Every step keeps a scene sound.** -/
theorem step (h : S.Sound) (hstep : S.Step S') : S'.Sound := by
  cases hstep with
  | work hwork =>
    -- the store grows first, and then what came of the operation is kept
    have hgrown := hwork.grown h.store fun v hv => h.live_of_has hv
    exact (h.grow hgrown).take hgrown.live
  | @keep registers calls weak hcallees hkept hweak =>
    refine h.of_roots rfl fun v hv => ?_
    rcases List.mem_append.1 hv with hv | hv
    · exact .inr (h.live_of_has (hkept v (List.mem_append_left _ hv)))
    · obtain ⟨c, hc, hv⟩ := List.mem_flatMap.1 hv
      rcases List.mem_cons.1 hv with rfl | hv
      · -- the calls in flight are the same, so the callee is held already
        have hcallee : c.callee ∈ S.calls.map InFlight.callee := hcallees ▸ List.mem_map_of_mem hc
        obtain ⟨c', hc', heq⟩ := List.mem_map.1 hcallee
        rw [← heq]
        exact .inl (List.mem_append_right _ (List.mem_flatMap.2 ⟨c', hc', List.mem_cons_self⟩))
      · exact .inr (h.live_of_has
          (hkept v (List.mem_append_right _ (List.mem_flatMap.2 ⟨c, hc, hv⟩))))
  | @enter callee args full kwargs f htarget hcallee hargs hkwargs =>
    -- a call makes one object, the dict for the locals, and it is a root by the request
    have hgrown : S.store.Grown (S.store.newDict .empty).2 [.dict (S.store.newDict .empty).1] :=
      h.store.grown_newDict nofun
    obtain ⟨hf, hfull⟩ := live_target htarget (h.live_of_has hcallee)
      fun v hv => h.live_of_has (hargs v hv)
    have hrequest := live_request h.store hf hfull (fun v hv => h.live_of_has (hkwargs v hv)) hgrown
    refine ⟨hgrown.sound, fun v hv => ?_⟩
    simp only [Scene.roots, List.flatMap_cons, List.mem_append, List.mem_cons] at hv
    rcases hv with hv | (rfl | hv) | hv
    · exact (h.roots v (List.mem_append_left _ hv)).mono hgrown.keeps
    · exact (h.live_of_has hcallee).mono hgrown.keeps
    · exact hrequest v hv
    · exact (h.roots v (List.mem_append_right _ hv)).mono hgrown.keeps
  | @leave c calls result hcalls hresult =>
    -- without the innermost call there are fewer roots; the result is one more
    have hpopped : Scene.Sound { S with calls } := by
      refine h.of_roots rfl fun v hv => .inl ?_
      rcases List.mem_append.1 hv with hv | hv
      · exact List.mem_append_left _ hv
      · refine List.mem_append_right _ ?_
        rw [hcalls, List.flatMap_cons]
        exact List.mem_append_right _ hv
    exact hpopped.take fun v hv => h.live_of_has (hresult v (Option.mem_toList.1 hv))
  | downgrade hf => exact h.of_roots rfl fun v hv => .inl hv
  | @upgrade w f hw hup =>
    refine h.take (List.forall_mem_singleton.2 (Value.live_function_iff.2 ?_))
    -- the function that comes back was alive even after a release
    have halive : w.isAlive S.settled = true := by
      rw [← WeakRef.upgrade?_isSome, hup]
      rfl
    rw [WeakRef.eq_target_of_upgrade? hup]
    exact Store.isAlive_of_isAlive_release halive
  | settle => exact ⟨h.store.release S.roots, Store.live_release h.roots⟩

/-- In the beginning there are no handles. -/
theorem start : Scene.start.Sound := by
  refine ⟨fun o v hv => ?_, nofun⟩
  cases o <;> cases hv

end Sound

/-- **No handle dangles at any point of a run.** -/
theorem Reachable.sound (h : S.Reachable) : S.Sound := by
  induction h with
  | refl => exact .start
  | tail _ hstep ih => exact ih.step hstep

/-! ### What a program can get at -/

namespace Has

/-- What the program holds it can get at. -/
theorem of_root {v : Value} (hv : v ∈ S.roots) : S.Has v :=
  fun _ ho => .of_root hv ho

theorem of_handles_eq_nil {v : Value} (h : v.handles = []) : S.Has v := by
  intro o ho
  have hmem := ho.mem_handles
  rw [h] at hmem
  cases hmem

/-- From an object the program gets at the values in it. -/
theorem of_contents {u v : Value} (hu : S.Has u) (ho : u.Holds o) (hv : v ∈ S.store.contents o) :
    S.Has v := by
  intro o' ho'
  -- one step further on the path to `u`
  have hholds : S.store.Holds o o' :=
    Store.holds_iff.2 (Store.mem_handles.2 ⟨v, hv, ho'.mem_handles⟩)
  exact (hu o ho).tail hholds

theorem of_list {r : ListRef} {v : Value} (hr : S.Has (.list r)) (hv : v ∈ S.store.list r) :
    S.Has v := by
  rw [← Store.contents_list] at hv
  exact of_contents hr (.list r) hv

theorem of_dict {r : DictRef} {v : Value} (hr : S.Has (.dict r))
    (hv : v ∈ (S.store.dict r).values) : S.Has v := by
  rw [← Store.contents_dict] at hv
  exact of_contents hr (.dict r) hv

theorem of_cell {r : CellRef} {v : Value} (hr : S.Has (.cell r)) (hv : S.store.cell r = some v) :
    S.Has v := by
  have hmem : v ∈ S.store.contents (.cell r) := by
    rw [Store.contents_cell, hv]
    exact List.mem_singleton_self v
  exact of_contents hr (.cell r) hmem

theorem of_tuple {t : Tuple} {v : Value} (ht : S.Has (.tuple t)) (hv : v ∈ t.items) : S.Has v :=
  fun o ho => ht o (.item hv ho)

end Has

/-! ### Runs -/

namespace Reachable

theorem work (h : S.Reachable) {results : List Value} {store : Store}
    (hwork : S.store.Work S.Has results store) : Reachable (take { S with store } results) :=
  h.tail (.work hwork)

/-- A program may rearrange what it can get at, as long as the calls in flight are the same. -/
theorem keep (h : S.Reachable) (hstore : S'.store = S.store)
    (hcallees : S'.calls.map InFlight.callee = S.calls.map InFlight.callee)
    (hkept : ∀ v ∈ S'.registers ++ S'.calls.flatMap InFlight.kept, S.Has v)
    (hweak : ∀ w ∈ S'.weak, w ∈ S.weak) : S'.Reachable := by
  -- `Step.keep` is about a scene that is written out, so `S'` is taken apart
  obtain ⟨store, registers, calls, weak⟩ := S'
  obtain rfl : store = S.store := hstore
  exact h.tail (.keep hcallees hkept hweak)

end Reachable

/-! ### What is alive -/

/-- What is held is held by a root, or by an object that is alive. -/
theorem isHeld_iff : S.IsHeld o ↔ (∃ v ∈ S.roots, v.Holds o) ∨ ∃ o', S.settled.Holds o' o := by
  constructor
  · rintro (⟨v, hv, ho⟩ | ⟨c, hc, ho | ⟨v, hv, ho⟩⟩ | ⟨o', -, ho⟩)
    · exact .inl ⟨v, List.mem_append_left _ hv, ho⟩
    · exact .inl ⟨_, List.mem_append_right _ (List.mem_flatMap.2 ⟨c, hc, List.mem_cons_self⟩), ho⟩
    · exact .inl ⟨v, List.mem_append_right _ (List.mem_flatMap.2 ⟨c, hc, List.mem_cons_of_mem _ hv⟩),
        ho⟩
    · exact .inr ⟨o', ho⟩
  · -- a root is a register, the callee of a call, or something that a call keeps
    rintro (⟨v, hv, ho⟩ | ⟨o', ho⟩)
    · rcases List.mem_append.1 hv with hv | hv
      · exact .inl ⟨v, hv, ho⟩
      · obtain ⟨c, hc, hv⟩ := List.mem_flatMap.1 hv
        rcases List.mem_cons.1 hv with rfl | hv
        · exact .inr (.inl ⟨c, hc, .inl ho⟩)
        · exact .inr (.inl ⟨c, hc, .inr ⟨v, hv, ho⟩⟩)
    · exact .inr (.inr ⟨o', ho.isAlive, ho⟩)

namespace Sound

theorem settled (h : S.Sound) : S.settled.Sound := h.store.release S.roots

theorem live_settled (h : S.Sound) : ∀ v ∈ S.roots, v.Live S.settled := Store.live_release h.roots

/-- **An object is alive exactly as long as something holds it.** -/
theorem isAlive_iff (h : S.Sound) : S.settled.isAlive o = true ↔ S.IsHeld o := by
  rw [isHeld_iff]
  constructor
  · intro halive
    -- a release leaves only what is held, in the store that it leaves
    have hheld : o ∈ S.settled.held S.roots := Store.mem_held_of_isAlive_release _ _ halive
    refine (Store.mem_held.1 hheld).imp ?_ ?_
    · rintro ⟨v, hv, ho⟩
      exact ⟨v, hv, Value.holds_iff.2 ho⟩
    · rintro ⟨o', -, ho⟩
      exact ⟨o', Store.holds_iff.2 ho⟩
  · -- and it takes nothing away that a root or something left still holds
    rintro (⟨v, hv, ho⟩ | ⟨o', v, hv, ho⟩)
    · exact h.live_settled v hv o ho.mem_handles
    · exact h.settled o' v hv.mem_contents o ho.mem_handles

/-- What is alive is reached from a root or from a cycle. -/
theorem reaches_or_onCycle (h : S.Sound) (ho : S.settled.isAlive o = true) :
    S.settled.Reaches S.roots o ∨ ∃ c, S.settled.OnCycle c ∧ ReflTransGen S.settled.Holds c o :=
  Store.reaches_or_onCycle (fun _ hx => isHeld_iff.1 (h.isAlive_iff.1 hx)) ho

end Sound

/-- **When functions are alive.** At every point of every run, steps of bodies included:

* a weak reference reports its function alive, and can be turned into it, if and only if the function
  is held by a register, by a call in flight, or by an object that is alive;
* so whatever is reached from a register or from a call in flight is alive, and what is alive is
  reached from there or from a cycle of objects that are alive;
* hence without a cycle an object is gone as soon as it is not reached any more, and with it all that
  only it kept;
* on the other hand, objects that hold each other up stay, whether or not they are reached. -/
theorem Reachable.liveness (h : S.Reachable) :
    (∀ w : WeakRef,
      (w.isAlive S.settled = true ↔ S.IsHeld (.function w.target)) ∧
      (w.upgrade? S.settled = some w.target ↔ S.IsHeld (.function w.target))) ∧
    (∀ o, S.settled.Reaches S.roots o → S.settled.isAlive o = true) ∧
    (∀ o, S.settled.isAlive o = true → S.settled.Reaches S.roots o ∨
      ∃ c, S.settled.OnCycle c ∧ ReflTransGen S.settled.Holds c o) ∧
    ((∀ c, ¬ S.settled.OnCycle c) → ∀ o, ¬ S.settled.Reaches S.roots o →
      S.settled.isAlive o = false) ∧
    (∀ P, S.store.Supported S.roots P → ∀ o, P o → S.settled.isAlive o = true) := by
  have hS : S.Sound := h.sound
  have halive (w : WeakRef) : w.isAlive S.settled = true ↔ S.IsHeld (.function w.target) := by
    change S.settled.isAlive (.function w.target) = true ↔ _
    exact hS.isAlive_iff
  refine ⟨fun w => ⟨halive w, ?_⟩, fun o ho => ?_, fun o ho => ?_, fun hacyclic o ho => ?_,
    fun P hP o ho => ?_⟩
  · -- the two questions agree
    rw [← halive w, WeakRef.upgrade?]
    split <;> simp_all
  · exact hS.settled.isAlive_of_reaches hS.live_settled ho
  · exact hS.reaches_or_onCycle ho
  · -- alive, not reached and with no cycle behind it: there is nothing left that could hold it
    by_contra hnot
    rcases hS.reaches_or_onCycle (Bool.not_eq_false _ ▸ hnot) with hreach | ⟨c, hcycle, -⟩
    · exact ho hreach
    · exact hacyclic c hcycle
  · exact Store.isAlive_release_of_supported hP ho

/-! ### A function that is dropped -/

section Dropped

/-- The code of a function. -/
def onlyCode : Code := ⟨⟨0⟩, "f", [], []⟩

/-- The code was made, then a dict for the globals, then the function. -/
def onlyStore : Store :=
  (((Store.empty.newCode "f" [] []).2.newDict .empty).2.makeFunction onlyCode ⟨0⟩ "").2

/-- The function is in a register, and there is a weak reference to it. -/
def keptScene : Scene := ⟨onlyStore, [.function ⟨0⟩], [], [⟨⟨0⟩⟩]⟩

/-- The register is empty again. -/
def droppedScene : Scene := ⟨onlyStore, [], [], [⟨⟨0⟩⟩]⟩

theorem reachable_keptScene : keptScene.Reachable := by
  have hstart : Reachable start := .refl
  -- the code, the dict and the function are made one after the other
  have hcode := hstart.work (.newCode "f" [] (List.forall_mem_nil _))
  have hdict := hcode.work (.newDict (t := .empty) nofun)
  have hfunction := hdict.work (.makeFunction ""
    (Has.of_root (v := .code onlyCode) (List.mem_cons_of_mem _ List.mem_cons_self))
    (Has.of_root (v := .dict ⟨0⟩) List.mem_cons_self))
  have hweak := hfunction.tail (.downgrade (Has.of_root List.mem_cons_self))
  -- only the function is kept
  refine hweak.tail (.keep rfl ?_ fun w hw => hw)
  exact List.forall_mem_singleton.2 (Has.of_root List.mem_cons_self)

/-- The function holds the dict with its globals, and that is all. -/
theorem holds_onlyStore {o o' : Object} (h : onlyStore.Holds o o') :
    o = .function ⟨0⟩ ∧ o' = .dict ⟨0⟩ := by
  obtain ⟨v, hv, ho'⟩ := h
  have hv : v ∈ onlyStore.contents o := hv.mem_contents
  have hmem : o ∈ onlyStore.alive := Store.mem_alive.2 (Store.isAlive_of_mem_contents hv)
  -- there are two objects, and both can be looked at
  have hobjects : onlyStore.alive = [.dict ⟨0⟩, .function ⟨0⟩] := by decide
  have hdict : onlyStore.contents (.dict ⟨0⟩) = [] := rfl
  have hfunction : onlyStore.contents (.function ⟨0⟩) =
      [.code onlyCode, .dict ⟨0⟩, .none, .none, .none, .none, .none, .none] := rfl
  rw [hobjects] at hmem
  rcases List.mem_cons.1 hmem with rfl | hmem
  · rw [hdict] at hv
    cases hv
  · obtain rfl := List.mem_singleton.1 hmem
    refine ⟨rfl, ?_⟩
    rw [hfunction] at hv
    rw [Value.holds_iff] at ho'
    simp only [List.mem_cons, List.not_mem_nil, or_false, or_self] at hv
    rcases hv with rfl | rfl | rfl
    · cases ho'
    · exact List.mem_singleton.1 ho'
    · cases ho'

/-- The function is alive while it is kept. As soon as the register is empty it is gone, and the dict
with its globals is gone with it. -/
theorem liveness_dropped :
    keptScene.Reachable ∧ droppedScene.Reachable ∧
      (WeakRef.mk ⟨0⟩).isAlive keptScene.settled = true ∧
      (WeakRef.mk ⟨0⟩).isAlive droppedScene.settled = false ∧
      droppedScene.settled.isAlive (.dict ⟨0⟩) = false := by
  have hkept : keptScene.Reachable := reachable_keptScene
  have hdropped : droppedScene.Reachable := by
    have hstep : keptScene.Step droppedScene := .keep rfl nofun fun w hw => hw
    exact hkept.tail hstep
  have hheld : keptScene.IsHeld (.function ⟨0⟩) := .inl ⟨_, List.mem_cons_self, .function ⟨0⟩⟩
  have hacyclic : ∀ c, ¬ droppedScene.settled.OnCycle c := by
    intro c hcycle
    -- what an object holds after the release it held before, and only the function holds something
    have hholds {x y : Object} (h : droppedScene.settled.Holds x y) :
        x = .function ⟨0⟩ ∧ y = .dict ⟨0⟩ := by
      have hmem : y ∈ droppedScene.settled.handles x := Store.holds_iff.1 h
      rw [settled, Store.handles_release h.isAlive] at hmem
      exact holds_onlyStore (Store.holds_iff.2 hmem)
    obtain ⟨x, hfirst, -⟩ := TransGen.head'_iff.1 hcycle
    obtain ⟨y, -, hlast⟩ := TransGen.tail'_iff.1 hcycle
    have hc : c = .function ⟨0⟩ := (hholds hfirst).1
    have hc' : c = .dict ⟨0⟩ := (hholds hlast).2
    rw [hc] at hc'
    cases hc'
  have hfree {o : Object} : ¬ droppedScene.settled.Reaches droppedScene.roots o := by
    rintro ⟨v, hv, -⟩
    cases hv
  have hgone := (Reachable.liveness hdropped).2.2.2.1 hacyclic
  exact ⟨hkept, hdropped, ((Reachable.liveness hkept).1 ⟨⟨0⟩⟩).1.2 hheld,
    hgone (.function ⟨0⟩) hfree, hgone (.dict ⟨0⟩) hfree⟩

end Dropped

end Scene

end Callable
