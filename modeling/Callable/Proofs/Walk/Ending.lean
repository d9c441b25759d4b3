import Callable.Proofs.Walk.Comparison
import Callable.Proofs.Walk.Printing

/-!
# Comparing and printing end on every object graph

Both are walks with guards that suffice, so the general results on such walks apply.

* `Store.ends_comparison`, `Store.ends_printing` — each walk ends, with the answer that the library
  gives, and its branches are guarded.
* `InTurn` — comparisons and printings one after the other, each with the sets that are left by the
  one before.
* `Store.walks_end` — the result: all walks end, within these bounds, and do not depend on each
  other.
-/

namespace Callable

open Walk

/-! ### One walk after the other -/

/-- A comparison or a printing. Each may find another store. -/
inductive Turn where
  | compare (s : Store) (a b : Value)
  | print (s : Store) (v : Value)

/-- What comes of it: a verdict or a text. -/
def Turn.answer : Turn → Bool ⊕ List Char
  | compare s a b => .inl (s.equal a b)
  | print s v => .inr (s.render v)

/-- **Walks one after the other.** What a walk leaves in progress, the next one of its kind finds in
progress. -/
inductive InTurn : Finset ContainerPair → Finset Container → List Turn → List (Bool ⊕ List Char) →
    Finset ContainerPair → Finset Container → Prop
  | nil (pairs : Finset ContainerPair) (containers : Finset Container) :
      InTurn pairs containers [] [] pairs containers
  | compare {pairs pairs₁ pairs₂ : Finset ContainerPair} {containers containers₂ : Finset Container}
      {s : Store} {a b : Value} {turns : List Turn} {rs : List (Bool ⊕ List Char)}
      {ts : List (Trace _ _)} {equal : Bool}
      (walk : Walks s.comparison pairs (.place (a, b)) ts equal pairs₁)
      (rest : InTurn pairs₁ containers turns rs pairs₂ containers₂) :
      InTurn pairs containers (.compare s a b :: turns) (.inl equal :: rs) pairs₂ containers₂
  | print {pairs pairs₂ : Finset ContainerPair} {containers containers₁ containers₂ : Finset Container}
      {s : Store} {v : Value} {turns : List Turn} {rs : List (Bool ⊕ List Char)}
      {ts : List (Trace _ _)} {text : Text.Rope}
      (walk : Walks s.printing containers (.place v) ts text containers₁)
      (rest : InTurn pairs containers₁ turns rs pairs₂ containers₂) :
      InTurn pairs containers (.print s v :: turns) (.inr text.toList :: rs) pairs₂ containers₂

namespace Store

/-- **A comparison ends.** -/
theorem ends_comparison (s : Store) (a b : Value) (p : PairsInProgress) :
    Ends s.comparison IsCompoundPair (s.containerPairs [a, b]) (s.nesting [a, b]) p.pairs (a, b)
      (s.equalIn p (a, b)) := by
  have ha : s.Known [a, b] a := .of_root List.mem_cons_self
  have hb : s.Known [a, b] b := .of_root (List.mem_cons_of_mem _ List.mem_cons_self)
  exact (s.guards_comparison [a, b]).ends isCompoundPair_of_mentions s.solves_comparison p ⟨ha, hb⟩

/-- **A printing ends.** -/
theorem ends_printing (s : Store) (v : Value) (e : Enclosing) :
    Ends s.printing IsCompound (s.containers [v]) (s.nesting [v]) e.containers v
      (s.renderIn e v) := by
  have hv : s.Known [v] v := .of_root List.mem_cons_self
  exact (s.guards_printing [v]).ends isCompound_of_mentions s.solves_printing e hv

/-- Each comes to its answer, as if there were no others, and leaves nothing in progress. -/
theorem inTurn_iff {turns : List Turn} {rs : List (Bool ⊕ List Char)}
    {pairs : Finset ContainerPair} {containers : Finset Container} :
    InTurn ∅ ∅ turns rs pairs containers ↔
      rs = turns.map Turn.answer ∧ pairs = ∅ ∧ containers = ∅ := by
  have compared (s : Store) (a b : Value) := s.ends_comparison a b .none
  have printed (s : Store) (v : Value) := s.ends_printing v .none
  -- on the turns; each one hands on the empty sets that it found, so the hypothesis applies again
  induction turns generalizing rs with
  | nil =>
    constructor
    · rintro ⟨⟩
      exact ⟨rfl, rfl, rfl⟩
    · rintro ⟨rfl, rfl, rfl⟩
      exact .nil ∅ ∅
  | cons turn turns ih =>
    cases turn with
    | compare s a b =>
      obtain ⟨t, hwalks, -⟩ := compared s a b
      rw [equalIn_none] at hwalks
      -- the walk is the only one there is, and what it leaves is what it found
      constructor
      · intro h
        cases h with
        | compare walk rest =>
          obtain ⟨-, rfl, rfl⟩ := (hwalks _ _ _).1 walk
          obtain ⟨rfl, rfl, rfl⟩ := ih.1 rest
          exact ⟨rfl, rfl, rfl⟩
      · rintro ⟨rfl, hends⟩
        exact .compare ((hwalks _ _ _).2 ⟨rfl, rfl, rfl⟩) (ih.2 ⟨rfl, hends⟩)
    | print s v =>
      obtain ⟨t, hwalks, -⟩ := printed s v
      -- a walk makes a rope, and the answer is the text that it stands for
      have hanswer : Turn.answer (.print s v) = .inr (s.renderIn .none v).toList :=
        congrArg Sum.inr (s.toList_renderIn_none v).symm
      rw [List.map_cons, hanswer]
      constructor
      · intro h
        cases h with
        | print walk rest =>
          obtain ⟨-, rfl, rfl⟩ := (hwalks _ _ _).1 walk
          obtain ⟨rfl, rfl, rfl⟩ := ih.1 rest
          exact ⟨rfl, rfl, rfl⟩
      · rintro ⟨rfl, hends⟩
        exact .print ((hwalks _ _ _).2 ⟨rfl, rfl, rfl⟩) (ih.2 ⟨rfl, hends⟩)

/-- **Comparing and printing end.** On every object graph, whatever is in progress, there is one walk
for the comparison of two values and one for the printing of a value. On no branch a pair of lists or
dicts, or a list or dict, is entered twice, so no more are entered than there are in the graph; in
between the walk passes through tuples and code objects, or tuples and bound methods, that are no
deeper than the graph. What was in progress before is in progress after it. So walks that are made
one after the other, and find nothing in progress at first, have their own answers each. -/
theorem walks_end :
    (∀ (s : Store) (a b : Value) (p : PairsInProgress),
      Ends s.comparison IsCompoundPair (s.containerPairs [a, b]) (s.nesting [a, b]) p.pairs (a, b)
        (s.equalIn p (a, b))) ∧
    (∀ (s : Store) (v : Value) (e : Enclosing),
      Ends s.printing IsCompound (s.containers [v]) (s.nesting [v]) e.containers v
        (s.renderIn e v)) ∧
    ∀ {turns : List Turn} {rs : List (Bool ⊕ List Char)} {pairs : Finset ContainerPair}
      {containers : Finset Container},
      InTurn ∅ ∅ turns rs pairs containers ↔
        rs = turns.map Turn.answer ∧ pairs = ∅ ∧ containers = ∅ :=
  ⟨ends_comparison, ends_printing, inTurn_iff⟩

end Store

end Callable
