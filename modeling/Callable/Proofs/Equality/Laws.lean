import Callable.Proofs.Equality.Bisimulation

/-!
# Equality is symmetric and transitive

The walk that compares two values is lopsided. It notes the pairs in progress in the order in which
it meets them, it goes through the names of the first dict and looks them up in the second, and it
takes one object for equal to itself without a look inside. Nothing of this can be seen in the
verdict: the relation that the walk computes is symmetric and transitive on every object graph.

Neither law has an induction of its own, as values that are equal may be cycles of different
lengths. Both are closure properties of bisimulations, and coinduction
(`Store.IsBisimulation.equal`) does the rest.

* `Store.Matches.flip`, `Store.IsBisimulation.flip` — the rules do not change if they are read from
  right to left.
* `Store.Matches.comp`, `Store.IsBisimulation.comp` — the rules can be applied one after the other.
  A rule that does not look at the parts leaves them to the other one alone, so the parts are
  related by the first relation, by the second one, or by one after the other
  (`OneOrBoth`).
* `Store.equal_symm_and_trans` — the two laws.

Equality is no equivalence: a NaN differs from itself, and so does a tuple that holds one.
-/

namespace Callable

variable {V : Type} {R Q : V → V → Prop}

/-- Related by the first relation, by the second one, or by the one after the other. -/
def OneOrBoth (R Q : V → V → Prop) (x z : V) : Prop :=
  R x z ∨ Q x z ∨ ∃ y, R x y ∧ Q y z

/-- What holds item by item for two pairs of lists holds item by item for the outer ones. -/
theorem forall₂_comp {xs ys zs : List V} (h : List.Forall₂ R xs ys) (h' : List.Forall₂ Q ys zs) :
    List.Forall₂ (fun x z => ∃ y, R x y ∧ Q y z) xs zs := by
  induction h generalizing zs with
  | nil =>
    cases h'
    exact .nil
  | cons hxy _ ih =>
    cases h' with
    | cons hyz hrest => exact .cons ⟨_, hxy, hyz⟩ (ih hrest)

namespace Store

variable {s : Store} {R Q : Value → Value → Prop} {a b c : Value}

/-! ### Right to left -/

/-- The rules read from right to left. -/
theorem Matches.flip (h : s.Matches R a b) : s.Matches (fun x y => R y x) b a := by
  cases h with
  | none => exact .none
  | bool b => exact .bool b
  | int n => exact .int n
  | float hx hy h => exact .float hy hx (h.imp Eq.symm And.symm)
  | str h => exact .str h.symm
  | tuple h => exact .tuple h.flip
  | sameList r => exact .sameList r
  | list h => exact .list h.flip
  | sameDict r => exact .sameDict r
  | dict hkeys h => exact .dict (fun k => (hkeys k).symm) fun k v w hv hw => h k w v hw hv
  | sameCode c => exact .sameCode c
  | code hname hfree h => exact .code hname.symm hfree.symm h.flip
  | cell r => exact .cell r
  | function r => exact .function r
  | method hfunction hreceiver =>
    refine .method hfunction.symm ?_
    rw [Value.isIdentical_iff] at hreceiver ⊢
    exact hreceiver.symm

theorem IsBisimulation.flip (hR : s.IsBisimulation R) : s.IsBisimulation fun x y => R y x := by
  intro a b hba
  exact (hR b a hba).flip

/-! ### One after the other -/

/-- More values match if more parts are related. -/
theorem Matches.mono (hRQ : ∀ x y, R x y → Q x y) (h : s.Matches R a b) : s.Matches Q a b := by
  cases h with
  | none => exact .none
  | bool b => exact .bool b
  | int n => exact .int n
  | float hx hy h => exact .float hx hy h
  | str h => exact .str h
  | tuple h => exact .tuple (h.imp hRQ)
  | sameList r => exact .sameList r
  | list h => exact .list (h.imp hRQ)
  | sameDict r => exact .sameDict r
  | dict hkeys h => exact .dict hkeys fun k v w hv hw => hRQ v w (h k v w hv hw)
  | sameCode c => exact .sameCode c
  | code hname hfree h => exact .code hname hfree (h.imp hRQ)
  | cell r => exact .cell r
  | function r => exact .function r
  | method hfunction hreceiver => exact .method hfunction hreceiver

/-- The rules one after the other. -/
theorem Matches.comp (h : s.Matches R a b) (h' : s.Matches Q b c) :
    s.Matches (OneOrBoth R Q) a c := by
  have first (x y : Value) (hxy : R x y) : OneOrBoth R Q x y := .inl hxy
  have second (x y : Value) (hxy : Q x y) : OneOrBoth R Q x y := .inr (.inl hxy)
  have both (x z : Value) (hxz : ∃ y, R x y ∧ Q y z) : OneOrBoth R Q x z := .inr (.inr hxz)
  -- where the first rule took one object for itself, only the second one says anything of parts
  cases h with
  | none | bool | int | sameList | sameDict | sameCode | cell | function => exact h'.mono second
  | @float x y hx hy h =>
    cases h' with
    | float _ hz h' =>
      refine .float hx hz ?_
      -- equal bits on one side, or zeros on both: a zero goes along with any other zero
      rcases h with rfl | ⟨hzero, hzero'⟩
      · exact h'
      · rcases h' with rfl | ⟨_, hzero''⟩
        · exact .inr ⟨hzero, hzero'⟩
        · exact .inr ⟨hzero, hzero''⟩
  | str h =>
    cases h' with
    | str h' => exact .str (h.trans h')
  | tuple h =>
    cases h' with
    | tuple h' => exact .tuple ((forall₂_comp h h').imp both)
  | list h =>
    cases h' with
    | sameList => exact .list (h.imp first)
    | list h' => exact .list ((forall₂_comp h h').imp both)
  | dict hkeys h =>
    cases h' with
    | sameDict => exact .dict hkeys fun k v w hv hw => first v w (h k v w hv hw)
    | @dict _ d hkeys' h' =>
      refine .dict (fun k => (hkeys k).trans (hkeys' k)) fun k v w hv hw => ?_
      -- the name stands in the dict between the two as well
      obtain ⟨u, hu⟩ := Table.mem_keys_iff.1 ((hkeys k).1 (Table.mem_keys_iff.2 ⟨v, hv⟩))
      exact both v w ⟨u, h k v u hv hu, h' k u w hu hw⟩
  | code hname hfree h =>
    cases h' with
    | sameCode => exact .code hname hfree (h.imp first)
    | code hname' hfree' h' =>
      exact .code (hname.trans hname') (hfree.trans hfree') ((forall₂_comp h h').imp both)
  | method hfunction hreceiver =>
    cases h' with
    | method hfunction' hreceiver' =>
      refine .method (hfunction.trans hfunction') ?_
      rw [Value.isIdentical_iff] at hreceiver hreceiver' ⊢
      exact hreceiver.trans hreceiver'

theorem IsBisimulation.comp (hR : s.IsBisimulation R) (hQ : s.IsBisimulation Q) :
    s.IsBisimulation (OneOrBoth R Q) := by
  -- the parts of a layer are related in one of the three ways, so this is closed under layers
  rintro a c (hac | hac | ⟨b, hab, hbc⟩)
  · exact (hR a c hac).mono fun _ _ => .inl
  · exact (hQ a c hac).mono fun _ _ h => .inr (.inl h)
  · exact (hR a b hab).comp (hQ b c hbc)

/-! ### The laws -/

/-- Equality is a bisimulation. -/
theorem isBisimulation_equal (s : Store) : s.IsBisimulation fun x y => s.equal x y = true :=
  fun _ _ h => equal_iff_matches.1 h

theorem equal_symm (h : s.equal a b = true) : s.equal b a = true :=
  s.isBisimulation_equal.flip.equal h

theorem equal_trans (h : s.equal a b = true) (h' : s.equal b c = true) : s.equal a c = true :=
  (s.isBisimulation_equal.comp s.isBisimulation_equal).equal (.inr (.inr ⟨b, h, h'⟩))

/-- **Equality is symmetric and transitive**, on every object graph. -/
theorem equal_symm_and_trans (s : Store) :
    (∀ a b, s.equal a b = true ↔ s.equal b a = true) ∧
      ∀ a b c, s.equal a b = true → s.equal b c = true → s.equal a c = true :=
  ⟨fun _ _ => ⟨equal_symm, equal_symm⟩, fun _ _ _ => equal_trans⟩

/-! ### Cycles of one, two and three -/

section Cycles

/-- A NaN. -/
def someNaN : Value := .float ⟨0x7ff8000000000000⟩

/-- Lists that contain each other in cycles of one, two and three, and a list with a NaN. Three
dicts hold that last list and one list out of each cycle, in different orders; and there is code for
each of the dicts, which has it as a constant. -/
def cyclesStore : Store where
  lists := ⟨#[some [.list ⟨0⟩], some [.list ⟨2⟩], some [.list ⟨1⟩], some [.list ⟨4⟩],
    some [.list ⟨5⟩], some [.list ⟨3⟩], some [someNaN]]⟩
  dicts := ⟨#[some (.ofList [("cycle", .list ⟨0⟩), ("nan", .list ⟨6⟩)]),
    some (.ofList [("nan", .list ⟨6⟩), ("cycle", .list ⟨1⟩)]),
    some (.ofList [("cycle", .list ⟨3⟩), ("nan", .list ⟨6⟩)])]⟩
  cells := .empty
  functions := .empty
  labels := 3

/-- The code for one of the dicts. -/
def cyclesCode (n : Nat) : Value := .code ⟨⟨n⟩, "f", [.dict ⟨n⟩], []⟩

/-- The cycle of one equals that of two, which equals that of three; so the outer ones are equal,
from either side. -/
theorem equal_symm_and_trans_cycles :
    cyclesStore.equal (cyclesCode 0) (cyclesCode 1) = true ∧
      cyclesStore.equal (cyclesCode 1) (cyclesCode 2) = true ∧
      cyclesStore.equal (cyclesCode 2) (cyclesCode 0) = true ∧
      cyclesStore.equal (.tuple ⟨⟨0⟩, [someNaN]⟩) (.tuple ⟨⟨0⟩, [someNaN]⟩) = false := by
  obtain ⟨symm, trans⟩ := cyclesStore.equal_symm_and_trans
  have h₀₁ : cyclesStore.equal (cyclesCode 0) (cyclesCode 1) = true := by decide +kernel
  have h₁₂ : cyclesStore.equal (cyclesCode 1) (cyclesCode 2) = true := by decide +kernel
  have h₀₂ := trans _ _ _ h₀₁ h₁₂
  exact ⟨h₀₁, h₁₂, (symm _ _).1 h₀₂, by decide +kernel⟩

end Cycles

end Store

end Callable
