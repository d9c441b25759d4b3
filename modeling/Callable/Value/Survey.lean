import Callable.Value.Handles
import Callable.Value.Identity
import Std.Data.HashSet

/-!
# Surveys

Immutable objects may share parts, so a value may be far larger as a tree than in memory. A survey
finds what values hold without looking into the same object twice.

* `Survey.visit` — the survey after a look into a value.
* `Value.allHandles` — what some values hold, each handle as often as the survey comes across it.
* `Value.mem_allHandles` — these are the handles of the values.
-/

namespace Callable

/-- The immutable objects that have been looked into, and what was found in them. -/
structure Survey where
  visited : Std.HashSet Value
  found : List Object

namespace Survey

/-- Nothing has been looked into yet. -/
def start : Survey := ⟨∅, []⟩

/-- Come across a mutable object. -/
def find (w : Survey) (o : Object) : Survey := { w with found := o :: w.found }

/-- Come to the end of an immutable object. -/
def leave (w : Survey) (v : Value) : Survey := { w with visited := w.visited.insert v }

mutual

/-- The survey after a look into a value. -/
def visit (w : Survey) : Value → Survey
  | .none | .bool _ | .int _ | .float _ | .str _ => w
  | .tuple ⟨l, xs⟩ =>
    let v := .tuple ⟨l, xs⟩
    if w.visited.contains v then w else (w.visitItems xs).leave v
  | .list r => w.find (.list r)
  | .dict r => w.find (.dict r)
  | .code ⟨l, n, xs, fs⟩ =>
    let v := .code ⟨l, n, xs, fs⟩
    if w.visited.contains v then w else (w.visitItems xs).leave v
  | .cell r => w.find (.cell r)
  | .function r => w.find (.function r)
  | .method ⟨l, f, x⟩ =>
    let v := .method ⟨l, f, x⟩
    if w.visited.contains v then w else ((w.find (.function f)).visit x).leave v

/-- The survey after a look into some values, one after the other. -/
def visitItems (w : Survey) : List Value → Survey
  | [] => w
  | x :: xs => (w.visit x).visitItems xs

end

/-- Everything in the objects that have been looked into has been found. -/
def Complete (w : Survey) : Prop := ∀ v ∈ w.visited, ∀ o ∈ v.handles, o ∈ w.found

theorem complete_start : start.Complete := fun _ h => absurd h Std.HashSet.not_mem_empty

theorem Complete.find {w : Survey} (h : w.Complete) (o : Object) : (w.find o).Complete :=
  fun v hv o' ho' => List.mem_cons_of_mem o (h v hv o' ho')

theorem Complete.leave {w : Survey} (h : w.Complete) {v : Value}
    (hv : ∀ o ∈ v.handles, o ∈ w.found) : (w.leave v).Complete := by
  intro v' hv' o ho
  rcases Std.HashSet.mem_insert.1 hv' with heq | hmem
  · exact hv o (eq_of_beq heq ▸ ho)
  · exact h v' hmem o ho

/-- A look into a value finds its handles. -/
def Finds (w : Survey) (os : List Object) (after : Survey) : Prop :=
  w.Complete → after.Complete ∧ ∀ o, o ∈ after.found ↔ o ∈ w.found ∨ o ∈ os

theorem finds_find (w : Survey) (o : Object) : w.Finds [o] (w.find o) := by
  refine fun h => ⟨h.find o, fun o' => ?_⟩
  simp [find, or_comm]

/-- An object that was looked into before need not be looked into again. -/
theorem finds_unless_visited {w after : Survey} {v : Value} (h : w.Finds v.handles after) :
    w.Finds v.handles (if w.visited.contains v then w else after.leave v) := by
  intro hw
  split
  · -- looked into before: all that is in it has been found, as the survey is complete
    rename_i hv
    refine ⟨hw, fun o => ⟨.inl, fun ho => ho.elim id fun ho => hw v ?_ o ho⟩⟩
    exact Std.HashSet.mem_iff_contains.2 hv
  · obtain ⟨hafter, hfound⟩ := h hw
    exact ⟨hafter.leave fun o ho => (hfound o).2 (.inr ho), hfound⟩

mutual

theorem finds_visit (w : Survey) : (v : Value) → w.Finds v.handles (w.visit v)
  | .none | .bool _ | .int _ | .float _ | .str _ => fun h => ⟨h, by simp [visit, Value.handles]⟩
  | .tuple ⟨_, xs⟩ => finds_unless_visited (w.finds_visitItems xs)
  | .list r => w.finds_find (.list r)
  | .dict r => w.finds_find (.dict r)
  | .code ⟨_, _, xs, _⟩ => finds_unless_visited (w.finds_visitItems xs)
  | .cell r => w.finds_find (.cell r)
  | .function r => w.finds_find (.function r)
  | .method ⟨_, f, x⟩ => finds_unless_visited fun h => by
    -- the function counts as found before the receiver is looked into
    obtain ⟨hc, hf⟩ := finds_visit (w.find (.function f)) x (h.find _)
    refine ⟨hc, fun o => ?_⟩
    rw [hf, Value.handles, find]
    simp only [List.mem_cons]
    grind

theorem finds_visitItems (w : Survey) :
    (xs : List Value) → w.Finds (Value.handlesOfItems xs) (w.visitItems xs)
  | [] => fun h => ⟨h, by simp [visitItems, Value.handlesOfItems]⟩
  | x :: xs => fun h => by
    obtain ⟨hx, hfx⟩ := finds_visit w x h
    obtain ⟨hxs, hfxs⟩ := finds_visitItems (w.visit x) xs hx
    refine ⟨hxs, fun o => ?_⟩
    rw [visitItems, hfxs, hfx, Value.handlesOfItems, List.mem_append, or_assoc]

end

end Survey

/-- Everything that some values hold, each handle as often as a survey comes across it. -/
def Value.allHandles (vs : List Value) : List Object := (Survey.start.visitItems vs).found

/-- What is found in some values is what one of them holds. -/
theorem Value.mem_allHandles {vs : List Value} {o : Object} :
    o ∈ Value.allHandles vs ↔ ∃ v ∈ vs, o ∈ v.handles := by
  have h := (Survey.start.finds_visitItems vs Survey.complete_start).2 o
  rw [Value.handlesOfItems_eq_flatMap, List.mem_flatMap] at h
  simpa [Value.allHandles, Survey.start] using h

end Callable
