import Callable.Proofs.Equality.Reflexivity
import Callable.Proofs.Function.Effect
import Callable.Proofs.Run.Ways

/-!
# Bound methods that are equal

To bind a function to a receiver makes an object each time, so what counts of two bound methods is
whether they are equal, and that is a matter of identity: they are if they have the same function and
the same receiver. A receiver need not equal itself for that, and it is not enough that it equals the
other one.

Neither part of a bound method is ever replaced, and identity does not look inside. So the verdict on
two of them is the same in every store, and what calls make of them is the same as well, since a call
takes nothing else from them.

* `Store.equal_method_iff` — when bound methods are equal.
* `Store.Step.labels_le` — no step takes back a label, so what is made later is another object
  (`Store.bind_not_identical`).
* `Course.equal_methods_interchangeable` — the result, on verdicts, on objects and on calls.
-/

namespace Callable

namespace Store

variable {s s' : Store} {f : FunctionRef} {x : Value}

/-! ### Equality of bound methods -/

/-- **Bound methods are equal** if they have the same function and the same receiver. The store makes
no difference. -/
theorem equal_method_iff {m n : Method} :
    s.equal (.method m) (.method n) = true ↔ m.function = n.function ∧ m.receiver = n.receiver := by
  rw [equal_iff_matches]
  constructor
  · intro h
    -- one layer decides: function and receiver are compared by identity, which looks into no object
    cases h with
    | method hfunction hreceiver => exact ⟨hfunction, Value.isIdentical_iff.1 hreceiver⟩
  · rintro ⟨hfunction, hreceiver⟩
    exact .method hfunction (Value.isIdentical_iff.2 hreceiver)

/-- The verdict is the same in every store. -/
theorem equal_method_congr (s s' : Store) (m n : Method) :
    s.equal (.method m) (.method n) = s'.equal (.method m) (.method n) := by
  rw [Bool.eq_iff_iff, equal_method_iff, equal_method_iff]

/-- Binding to a receiver makes a bound method with the next label. -/
theorem bind_of_ne_none (s : Store) (f : FunctionRef) (hx : x ≠ .none) :
    s.bind f x = (.method ⟨⟨s.labels⟩, f, x⟩, { s with labels := s.labels + 1 }) := by
  -- only `None` as a receiver would leave the function unbound
  have hsome : ¬ x.isNone = true := fun h => hx (Value.isNone_iff.1 h)
  rw [bind, if_neg hsome]
  rfl

/-! ### Labels over a run -/

/-- A change gives out a label or none. -/
theorem labels_putField_takeLabels (s : Store) (n : Nat) (f : FunctionRef) (a : Attribute)
    (y : a.Field) : s.labels ≤ ((s.takeLabels n).putField f a y).labels :=
  Nat.le_add_right s.labels n

theorem labels_cascade (s : Store) (t : Tally) (todo : List Object) :
    (s.cascade t todo).labels = s.labels := by
  fun_induction cascade s t todo with
  | case1 => rfl
  | case2 s t o rest _ _ _ ih =>
    rw [ih]
    cases o <;> rfl
  | case3 s t o rest _ ih => exact ih

theorem labels_delAttr {name : String} (h : s.delAttr f name = .ok s') : s'.labels = s.labels := by
  cases hn : Attribute.ofName? name with
  | some a =>
    obtain rfl := Attribute.ofName?_eq_some_iff.1 hn
    obtain ⟨x, -, rfl⟩ := Change.exists_of_apply (c := .delete a) h
    -- only a list that is set needs a label
    cases a <;> rfl
  | none =>
    obtain ⟨r, -, rfl⟩ := exists_dict_of_delAttr hn h
    rfl

/-- **No step takes back a label.** -/
theorem Step.labels_le (h : s.Step s') : s.labels ≤ s'.labels := by
  cases h with
  | newStr | newTuple | newCode | newMethod => exact Nat.le_succ _
  | setAttr h =>
    cases written_of_setAttr h with
    | field => exact labels_putField_takeLabels ..
    | entry | first => exact Nat.le_refl _
  | delAttr h => exact Nat.le_of_eq (labels_delAttr h).symm
  | setClosure h =>
    obtain rfl := eq_putField_of_setClosure h
    exact Nat.le_refl _
  | release roots => exact Nat.le_of_eq (labels_cascade ..).symm
  -- lists, dicts, cells and functions have numbers of their own
  | _ => exact Nat.le_refl _

end Store

theorem Trail.labels_le {s s' : Store} {ms : List Moment} (h : Trail s ms s') :
    s.labels ≤ s'.labels := by
  induction h with
  | nil => exact Nat.le_refl _
  | cons hstep _ _ ih => exact Nat.le_trans hstep.labels_le ih

/-- **A new object each time.** What is bound later in a run is not the object that was bound before,
be it the same function and the same receiver. -/
theorem Store.bind_not_identical {s s' : Store} {ms : List Moment} {f g : FunctionRef} {x y : Value}
    (hx : x ≠ .none) (hy : y ≠ .none) (h : Trail (s.bind f x).2 ms s') :
    (s'.bind g y).1.isIdentical (s.bind f x).1 = false := by
  rw [← Bool.not_eq_true, Value.isIdentical_iff, bind_of_ne_none s f hx, bind_of_ne_none s' g hy]
  intro heq
  -- if they were one object they would have one label, but that was given out in between
  have hlabels : s'.labels = s.labels := congrArg (fun m => m.label.index) (Value.method.inj heq)
  have hle : (s.bind f x).2.labels ≤ s'.labels := h.labels_le
  rw [bind_of_ne_none s f hx, hlabels] at hle
  exact Nat.not_succ_le_self _ hle

/-! ### Calls -/

/-- Bound methods that are equal have one target, whatever the arguments. -/
theorem Store.target?_of_equal {s : Store} {m n : Method}
    (h : s.equal (.method m) (.method n) = true) (args : List Value) :
    (Value.method n).target? args = some (m.function, m.receiver :: args) := by
  obtain ⟨hfunction, hreceiver⟩ := equal_method_iff.1 h
  rw [Value.target?, hfunction, hreceiver]

/-! ### The result -/

/-- **Equal bound methods are interchangeable for good.**

* Whenever two bound methods were made by binding and whenever they are compared, they are equal if
  and only if it was the same function and the receivers are identical.
* So to bind a function to a receiver again, any run later, gives another object that equals the one
  before, whether or not the receiver equals itself.
* The verdict on two bound methods is the same in every store.
* If they are equal, then whichever way they are called in whatever world, there is one request, a
  snapshot of the function, that every evaluator gets from either of them, and the calls come to one
  outcome and one world. -/
theorem Course.equal_methods_interchangeable :
    (∀ (s s' t : Store) (f g : FunctionRef) {x y : Value}, x ≠ .none → y ≠ .none →
      (t.equal (s.bind f x).1 (s'.bind g y).1 = true ↔ f = g ∧ x.isIdentical y = true)) ∧
    (∀ {σ ω : Type} {obs : Observer ω} {w w' : World σ ω} {ds : List Deed} {s : Store}
      {f : FunctionRef} {x : Value}, x ≠ .none → w.store = (s.bind f x).2 →
      Course .lawful obs w ds w' →
      (w'.store.bind f x).1.isIdentical (s.bind f x).1 = false ∧
        ∀ t : Store, t.equal (w'.store.bind f x).1 (s.bind f x).1 = true) ∧
    (∀ (s s' : Store) (m n : Method),
      s.equal (.method m) (.method n) = s'.equal (.method m) (.method n)) ∧
    ∀ {s : Store} {m n : Method}, s.equal (.method m) (.method n) = true →
      ∀ {σ ω : Type} {ρ : Way ω}, ρ.Takes (.method m) →
      ∀ (args : List Value) (kwargs : Table Value) (w : World σ ω),
      (∃ r entered, Handover w.store m.function (m.receiver :: args) kwargs r entered ∧
        ∀ ev, ρ.Hands ev (.method m) args kwargs w m.function r ∧
          ρ.Hands ev (.method n) args kwargs w n.function r) ∧
      ∀ ev, ρ.call ev (.method m) args kwargs w = ρ.call ev (.method n) args kwargs w := by
  -- the label of a bound method has no part in equality, so the stores have none either
  have verdict (s s' t : Store) (f g : FunctionRef) {x y : Value} (hx : x ≠ .none)
      (hy : y ≠ .none) :
      t.equal (s.bind f x).1 (s'.bind g y).1 = true ↔ f = g ∧ x.isIdentical y = true := by
    rw [Store.bind_of_ne_none s f hx, Store.bind_of_ne_none s' g hy, Store.equal_method_iff,
      Value.isIdentical_iff]
  refine ⟨verdict, ?again, Store.equal_method_congr, ?called⟩
  case again =>
    intro σ ω obs w w' ds s f x hx hw h
    refine ⟨Store.bind_not_identical hx hx (hw ▸ h.trail), fun t => ?_⟩
    exact (verdict w'.store s t f f hx hx).2 ⟨rfl, Value.isIdentical_iff.2 rfl⟩
  case called =>
    intro s m n h σ ω ρ htakes args kwargs w
    have htarget : (Value.method m).target? args = some (m.function, m.receiver :: args) := rfl
    have htarget' := Store.target?_of_equal h args
    -- a way that takes one bound method takes every one
    have htakes' : ρ.Takes (.method n) := by
      cases ρ <;> exact htakes
    refine ⟨⟨_, _, handover_request w.store m.function (m.receiver :: args) kwargs, ?_⟩, ?_⟩
    · intro ev
      -- both have one function, so the same is said of both ways
      rw [← (Store.equal_method_iff.1 h).1]
      exact ⟨Way.hands_of_target? htakes htarget ev kwargs w,
        Way.hands_of_target? htakes' htarget' ev kwargs w⟩
    · intro ev
      exact Way.call_congr rfl htakes htakes' htarget htarget' ev kwargs w

/-! ### Receivers that differ from themselves, and receivers that only equal -/

section Receivers

/-- A function, and two lists without items. -/
def twinsStore : Store :=
  (((Store.empty.makeFunction firstCode ⟨0⟩ "").2.newList []).2.newList []).2

/-- A world in which the function was bound to a NaN. -/
def boundWorld : World Unit Unit where
  store := (twinsStore.bind ⟨0⟩ Store.someNaN).2
  host := ()
  watch := ()
  console := ""

/-- The function is given other code, then it is bound to the NaN again. The NaN differs from itself,
and still the two bound methods are equal, and a call of the one is a call of the other. Bound to two
lists that equal each other the function gives bound methods that differ. -/
theorem Course.equal_methods_interchangeable_twins :
    ∃ ds w', Course .lawful Observer.silent boundWorld ds w' ∧
      (w'.store.bind ⟨0⟩ Store.someNaN).1.isIdentical (twinsStore.bind ⟨0⟩ Store.someNaN).1 = false ∧
      w'.store.equal (w'.store.bind ⟨0⟩ Store.someNaN).1 (twinsStore.bind ⟨0⟩ Store.someNaN).1 =
        true ∧
      w'.store.equal Store.someNaN Store.someNaN = false ∧
      (∀ ev : Evaluator Unit Unit,
        (Way.value .silent).call ev (w'.store.bind ⟨0⟩ Store.someNaN).1 [] .empty w' =
          (Way.value .silent).call ev (twinsStore.bind ⟨0⟩ Store.someNaN).1 [] .empty w') ∧
      twinsStore.equal (.list ⟨0⟩) (.list ⟨1⟩) = true ∧
      twinsStore.equal (twinsStore.bind ⟨0⟩ (.list ⟨0⟩)).1 (twinsStore.bind ⟨0⟩ (.list ⟨1⟩)).1 =
        false := by
  obtain ⟨verdict, again, -, called⟩ := Course.equal_methods_interchangeable
  -- between the two bindings the function is given other code
  have hset : boundWorld.store.setAttr ⟨0⟩ "__code__" (.code secondCode) =
      .ok (renewed boundWorld.store) := rfl
  have hown : Conduct.lawful.own boundWorld { boundWorld with store := renewed boundWorld.store } :=
    .setAttr hset
  have hcourse : Course .lawful Observer.silent boundWorld _ _ := .own hown (.done _ _)
  have hnan : Store.someNaN ≠ .none := nofun
  obtain ⟨hnew, hequal⟩ := again hnan rfl hcourse
  have hself : Store.someNaN.ReachesNaN := .nan rfl
  refine ⟨_, _, hcourse, hnew, hequal _, ?_, ?_, ?_, ?_⟩
  · rw [← Bool.not_eq_true]
    exact Store.not_equal_self hself
  · have htakes (m : Method) : (Way.value (.silent : Observer Unit)).Takes (.method m) := trivial
    exact (called (hequal twinsStore) (htakes _) [] .empty _).2
  · decide +kernel
  · have hlists := verdict twinsStore twinsStore twinsStore ⟨0⟩ ⟨0⟩ (x := .list ⟨0⟩)
      (y := .list ⟨1⟩) nofun nofun
    rw [← Bool.not_eq_true, hlists]
    rintro ⟨-, hidentical⟩
    cases Value.isIdentical_iff.1 hidentical

end Receivers

end Callable
