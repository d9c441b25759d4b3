import Callable.Function.Weak
import Callable.Script.Answer
import Callable.Store.Release

/-!
# The stage

What a running script keeps apart from the store: the registers, the callees of the calls under way,
the log, and the number of requests that its evaluator has run.

* `Frame` — the registers of the outermost steps, or of one run of a body.
* `Stage.frame`, `Stage.modifyFrame` — the frame in which a name is looked up.
* `Stage.roots` — the values that the script holds. An object lives while one of them or another
  object that lives holds it; `settle` lets go of the rest. What is not held cannot be reached any
  more, so it makes no difference how long that is put off, as long as nobody asks whether a
  function is alive.
* `settleFor` — what has to go before that is asked of one function; `isAlive_settleFor` says that
  the answer is as if all had gone.
-/

namespace Callable.Script

/-- Registers that are not empty, by their names. -/
abbrev Frame := Table Value

/-- What a running script keeps. -/
structure Stage where
  outermost : Frame
  /-- The frames of the bodies that are running, the innermost first. -/
  running : List Frame
  /-- The registers for weak references, of which there is one set for the whole script. -/
  weak : Table WeakRef
  /-- The callees of the calls under way. -/
  callees : List Value
  /-- The steps that have come to their end, in that order. -/
  log : Array Entry
  /-- Requests run by the evaluator. -/
  evaluations : Nat
  /-- Whether a running body has turned out to make no sense. -/
  broken : Bool

namespace Stage

/-- The stage before the first step. -/
def start : Stage := ⟨.empty, [], .empty, [], #[], 0, false⟩

/-- Does the name belong to the outermost frame wherever it is used? -/
def isShared (name : String) : Bool := name.toList.head? == some '$'

/-- The innermost frame. -/
def innermost (t : Stage) : Frame := t.running.head?.getD t.outermost

/-- The frame in which a name is looked up. -/
def frame (t : Stage) (name : String) : Frame := if isShared name then t.outermost else t.innermost

/-- Change the frame in which a name is looked up. -/
def modifyFrame (t : Stage) (name : String) (f : Frame → Frame) : Stage :=
  match isShared name, t.running with
  | false, inner :: outer => { t with running := f inner :: outer }
  | _, _ => { t with outermost := f t.outermost }

/-- The value of a register. -/
def register? (t : Stage) (name : String) : Option Value := (t.frame name).get? name

/-- Keep a value in a register. -/
def keep (t : Stage) (name : String) (v : Value) : Stage :=
  t.modifyFrame name (·.insert name v)

/-- Empty a register. -/
def drop (t : Stage) (name : String) : Stage :=
  t.modifyFrame name (·.erase name)

/-- The weak reference of a register. -/
def weak? (t : Stage) (name : String) : Option WeakRef := t.weak.get? name

/-- Keep a weak reference in a register. -/
def keepWeak (t : Stage) (name : String) (w : WeakRef) : Stage :=
  { t with weak := t.weak.insert name w }

/-- Empty the register of a weak reference. -/
def dropWeak (t : Stage) (name : String) : Stage :=
  { t with weak := t.weak.erase name }

/-- All frames. -/
def frames (t : Stage) : List Frame := t.outermost :: t.running

/-- The number of weak references to a function. -/
def weakCount (t : Stage) (f : FunctionRef) : Nat :=
  t.weak.values.countP fun w => w.target == f

/-- The values that the script holds. -/
def roots (t : Stage) : List Value := t.frames.flatMap Table.values ++ t.callees

/-- Is the value the function, or the function bound to a receiver? -/
def isOf (f : FunctionRef) : Value → Bool
  | .function r => r == f
  | .method m => m.function == f
  | _ => false

/-- Does the script itself hold the function? -/
def holds (t : Stage) (f : FunctionRef) : Bool :=
  t.callees.any (isOf f) || t.frames.any fun frame => frame.values.any (isOf f)

/-- Enter the result of a step in the log. -/
def record (t : Stage) (result : Except RunError Answer) (notes : Array Note) : Stage :=
  { t with log := t.log.push ⟨result, t.running.length, notes⟩ }

end Stage

/-- What is the function, or the function bound to a receiver, holds it. -/
theorem Stage.mem_handles_of_isOf {f : FunctionRef} {v : Value} (h : isOf f v = true) :
    .function f ∈ v.handles := by
  cases v <;> simp_all [isOf, Value.handles]

/-- What the script itself holds is held by a root. -/
theorem Stage.exists_root_of_holds {t : Stage} {f : FunctionRef} (h : t.holds f = true) :
    ∃ v ∈ t.roots, .function f ∈ v.handles := by
  simp only [holds, Bool.or_eq_true, List.any_eq_true] at h
  rcases h with ⟨v, hv, hf⟩ | ⟨frame, hframe, v, hv, hf⟩
  · exact ⟨v, List.mem_append_right _ hv, mem_handles_of_isOf hf⟩
  · exact ⟨v, List.mem_append_left _ (List.mem_flatMap.2 ⟨frame, hframe, hv⟩),
      mem_handles_of_isOf hf⟩

variable {ω : Type}

/-- Let go of everything that the script does not hold any more. -/
def settle (w : World Stage ω) : World Stage ω :=
  { w with store := w.store.release w.host.roots }

/-- Find out whether a function is alive still. One that the script itself holds goes with nothing
else, so there is no need to let go of anything. -/
def settleFor (f : FunctionRef) (w : World Stage ω) : World Stage ω :=
  if w.host.holds f then w else settle w

/-- The function is alive as if everything that is not held had gone. -/
theorem isAlive_settleFor (f : FunctionRef) (w : World Stage ω) :
    (settleFor f w).store.isAlive (.function f) = (settle w).store.isAlive (.function f) := by
  unfold settleFor
  split
  · rename_i h
    rw [Bool.eq_iff_iff]
    exact ⟨Store.isAlive_release_of_mem (Stage.exists_root_of_holds h),
      Store.isAlive_of_isAlive_release⟩
  · rfl

end Callable.Script
