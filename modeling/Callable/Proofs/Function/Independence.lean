import Callable.Proofs.Function.Fields
import Callable.Proofs.Function.Refusal

/-!
# Attributes are independent

Attributes are set and deleted in any order, accepted or refused, and none of them has a say in what
becomes of the others. This is a statement on two runs: leave out all changes but those of some
attributes, and these are answered as before and read the same in the end.

Two attributes are looked at by changes of another one. Code is compared with the closure, which no
change gets at; and if it does not fit, the message has the name of the function, which is the one
trace that an attribute leaves in the answer to a change of another one (`Fault.seenBy`). Besides
this there is the supply of labels: in a longer run the tuple that is made of a list has another
one, so the two tuples are copies of each other (`Change.Copies`).

* `Change.makeAll` — changes one after the other, with their answers.
* `Change.outcome_alike` — the outcome of a change in two stores.
* `Change.Corresponds` — what holds between the two runs; `Corresponds.skip` and
  `Corresponds.both` are the steps, and `Corresponds.makeAll` is the run.
* `Change.attributes_independent` — the result: what is left out makes no difference, changes of
  two attributes can be made in any order, and of changes of one attribute only the last one counts.
-/

namespace Callable

/-- A fault as it is seen by someone who watches some attributes only. If the name is none of them,
it is left out of the message about code that does not fit. -/
def Fault.seenBy (watched : Attribute → Bool) : Fault → Fault
  | .codeArity name cells freeVars =>
    .codeArity (if watched .name then name else "") cells freeVars
  | e => e

/-- The class of a fault can be seen whatever is watched. -/
theorem Fault.cls_seenBy (watched : Attribute → Bool) (e : Fault) :
    (e.seenBy watched).cls = e.cls := by
  cases e <;> rfl

theorem Fault.seenBy_all (e : Fault) : e.seenBy (fun _ => true) = e := by
  cases e <;> rfl

namespace Change

/-! ### Changes one after the other -/

/-- Make changes one after the other. Each has its answer, and a store is left in the end. -/
def makeAll (f : FunctionRef) : List Change → Store → List (Change × Except Fault Unit) × Store
  | [], s => ([], s)
  | c :: cs, s =>
    let (answer, s) := s.left (c.apply f s)
    let (answers, s) := makeAll f cs s
    ((c, answer) :: answers, s)

/-- The answers to the changes of the attributes that are watched, as far as they show. -/
def answersOn (watched : Attribute → Bool) (answers : List (Change × Except Fault Unit)) :
    List (Change × Except Fault Unit) :=
  (answers.filter fun p => watched p.1.target).map fun p => (p.1, p.2.mapError (·.seenBy watched))

/-- Two tuples that were made of one list, when it was to be the defaults. -/
inductive Copies (s : Store) (cs : List Change) : Tuple → Tuple → Prop
  | of {r : ListRef} {l l' : Label} (hr : .set .defaults (.list r) ∈ cs)
      (hl : s.labels ≤ l.index) (hl' : s.labels ≤ l'.index) :
      Copies s cs ⟨l, s.list r⟩ ⟨l', s.list r⟩

variable {f : FunctionRef} {s s' : Store} {c d : Change} {cs cs' : List Change}
  {watched : Attribute → Bool} {copies : Tuple → Tuple → Prop}

theorem makeAll_append (f : FunctionRef) (cs cs' : List Change) (s : Store) :
    (makeAll f (cs ++ cs') s).2 = (makeAll f cs' (makeAll f cs s).2).2 := by
  induction cs generalizing s with
  | nil => rfl
  | cons c cs ih => exact ih (s.left (c.apply f s)).2

/-! ### One change -/

/-- The store after a change that is accepted. -/
def after (c : Change) (f : FunctionRef) (s : Store) (x : c.target.Field) : Store :=
  (s.takeLabels c.labels).putField f c.target x

theorem left_apply_of_ok {x : c.target.Field} (h : c.outcomeIn s f = .ok x) :
    s.left (c.apply f s) = (.ok (), c.after f s x) := by
  rw [apply_eq, h]
  rfl

theorem left_apply_of_error {e : Fault} (h : c.outcomeIn s f = .error e) :
    s.left (c.apply f s) = (.error e, s) := by
  rw [apply_eq, h]
  rfl

/-- The closure cannot be changed. -/
theorem target_ne_closure {x : c.target.Field} (h : c.outcomeIn s f = .ok x) :
    c.target ≠ .closure := by
  obtain ⟨a, v?⟩ := c
  rintro rfl
  cases v? <;> cases h

/-- Another field stays as it is. -/
theorem field_after {a : Attribute} (h : a ≠ c.target) (x : c.target.Field) :
    ((c.after f s x).function f).field a = (s.function f).field a :=
  Store.field_putField_of_ne (fun hab => h hab.2) x

theorem field_after_self (hf : s.functions.isAlive f = true) (x : c.target.Field) :
    ((c.after f s x).function f).field c.target = x :=
  Store.field_putField_self (s := s.takeLabels c.labels) hf x

/-- A function that is gone has no fields to be replaced. -/
theorem function_after_of_not_isAlive (hf : s.functions.isAlive f = false) (x : c.target.Field) :
    (c.after f s x).function f = s.function f :=
  congrArg (·.function f) (Store.putField_of_not_isAlive (s := s.takeLabels c.labels) hf x)

/-- The number of cells stays as it is. -/
theorem cellCount_after (x : c.target.Field) (h : c.target ≠ .closure) :
    ((c.after f s x).function f).cellCount = (s.function f).cellCount := by
  have hclosure : ((c.after f s x).function f).closure = (s.function f).closure :=
    field_after (a := .closure) h.symm x
  rw [FunctionObject.cellCount, FunctionObject.cellCount, hclosure]

/-! ### The outcome of a change in two stores -/

/-- Two fields are alike: they are the same, or their tuples are copies of each other. -/
inductive FieldAlike (copies : Tuple → Tuple → Prop) : (a : Attribute) → a.Field → a.Field → Prop
  | same {a : Attribute} (x : a.Field) : FieldAlike copies a x x
  | copy {t t' : Tuple} (h : copies t t') : FieldAlike copies .defaults (some t) (some t')

/-- Two outcomes are alike: the fields are, or the faults look the same. -/
inductive OutcomeAlike (copies : Tuple → Tuple → Prop) (watched : Attribute → Bool)
    (a : Attribute) : Except Fault a.Field → Except Fault a.Field → Prop
  | ok {x y : a.Field} (h : FieldAlike copies a x y) :
      OutcomeAlike copies watched a (.ok x) (.ok y)
  | error {e e' : Fault} (h : e.seenBy watched = e'.seenBy watched) :
      OutcomeAlike copies watched a (.error e) (.error e')

theorem OutcomeAlike.refl {a : Attribute} (r : Except Fault a.Field) :
    OutcomeAlike copies watched a r r := by
  cases r with
  | ok x => exact .ok (.same x)
  | error e => exact .error rfl

/-- Fields that are alike are read alike. -/
theorem FieldAlike.alike {a : Attribute} {x y : a.Field} (h : FieldAlike copies a x y) :
    Store.Alike copies s s' (.ok (s.showField a x)) (.ok (s'.showField a y)) := by
  cases h with
  | same => exact Store.alike_showField copies s s' a x
  | copy h => exact .copy h

/-- **The outcome of a change** depends on the name for a message only, and on the label for a tuple
that is made of a list. -/
theorem outcome_alike (c : Change) {items : ListRef → List Value} {l l' : Label}
    {name name' : String} {cells : Nat} (hname : watched .name = true → name = name')
    (hcopies : ∀ r, c = .set .defaults (.list r) → copies ⟨l, items r⟩ ⟨l', items r⟩) :
    OutcomeAlike copies watched c.target (c.outcome items l name cells)
      (c.outcome items l' name' cells) := by
  obtain ⟨a, v?⟩ := c
  cases v? with
  | none => exact .refl _
  | some v =>
    cases a with
    | code =>
      cases v with
      | code k =>
        -- accepted or not is one question for both names; the name is in the message only
        simp only [outcome, Attribute.accept]
        split
        · exact .refl _
        · refine .error ?_
          simp only [Fault.seenBy]
          split
          · rename_i hwatched
            rw [hname hwatched]
          · rfl
      | _ => exact .refl _
    | defaults =>
      cases v with
      -- the one outcome that is made and not found
      | list r => exact .ok (.copy (hcopies r rfl))
      | _ => exact .refl _
    | _ => exact .refl _

/-! ### Two runs -/

/-- **Two runs that correspond.** They began in the same store, and of the changes the second one
has made only those of the attributes that are watched. -/
structure Corresponds (s : Store) (f : FunctionRef) (cs : List Change)
    (watched : Attribute → Bool) (s₁ s₂ : Store) : Prop where
  lists₁ : s₁.lists = s.lists
  lists₂ : s₂.lists = s.lists
  labels₁ : s.labels ≤ s₁.labels
  labels₂ : s.labels ≤ s₂.labels
  isAlive : s₁.functions.isAlive f = s₂.functions.isAlive f
  /-- Nobody gets at the closure, so code is compared with the same number. -/
  cellCount : (s₁.function f).cellCount = (s₂.function f).cellCount
  fields : ∀ a, watched a = true →
    FieldAlike (Copies s cs) a ((s₁.function f).field a) ((s₂.function f).field a)

namespace Corresponds

variable {s₁ s₂ : Store}

theorem refl (s : Store) (f : FunctionRef) (cs : List Change) (watched : Attribute → Bool) :
    Corresponds s f cs watched s s :=
  ⟨rfl, rfl, Nat.le_refl _, Nat.le_refl _, rfl, rfl, fun _ _ => .same _⟩

/-- Whoever watches the name knows it. -/
theorem name_eq (h : Corresponds s f cs watched s₁ s₂) (hwatched : watched .name = true) :
    (s₁.function f).name = (s₂.function f).name := by
  have hfield := h.fields .name hwatched
  -- as variables, since the fields of an inductive family are to be taken apart
  generalize hx : (s₁.function f).field .name = x at hfield
  generalize hy : (s₂.function f).field .name = y at hfield
  cases hfield
  exact hx.trans hy.symm

/-- A change of an attribute that is not watched is made in the first run only. -/
theorem skip (h : Corresponds s f cs watched s₁ s₂) (hc : watched c.target = false) :
    Corresponds s f cs watched (s₁.left (c.apply f s₁)).2 s₂ := by
  cases houtcome : c.outcomeIn s₁ f with
  | error e =>
    rw [left_apply_of_error houtcome]
    exact h
  | ok x =>
    rw [left_apply_of_ok houtcome]
    -- the first run goes on alone: it may give out a label and write a field that nobody watches
    refine ⟨h.lists₁, h.lists₂, Nat.le_add_right_of_le h.labels₁, h.labels₂, ?_, ?_, ?_⟩
    · exact (Store.isAlive_putField ..).trans h.isAlive
    · exact (cellCount_after x (target_ne_closure houtcome)).trans h.cellCount
    · intro a ha
      have hne : a ≠ c.target := by
        rintro rfl
        rw [hc] at ha
        cases ha
      rw [field_after hne]
      exact h.fields a ha

/-- A change of an attribute that is watched is made in both runs. Its outcomes are alike. -/
theorem outcomeIn_alike (h : Corresponds s f cs watched s₁ s₂) (hc : c ∈ cs) :
    OutcomeAlike (Copies s cs) watched c.target (c.outcomeIn s₁ f) (c.outcomeIn s₂ f) := by
  -- neither run has written to a list, so both copy what there was at the beginning
  have hitems₁ : s₁.list = s.list := funext fun r => congrArg (·.get r) h.lists₁
  have hitems₂ : s₂.list = s.list := funext fun r => congrArg (·.get r) h.lists₂
  rw [outcomeIn, outcomeIn, hitems₁, hitems₂, h.cellCount]
  refine c.outcome_alike h.name_eq ?_
  rintro r rfl
  exact .of hc h.labels₁ h.labels₂

/-- If it is accepted the runs correspond on its attribute, too, whether or not they did before. -/
theorem accepted (h : Corresponds s f cs watched s₁ s₂) {x y : c.target.Field}
    (h₁ : c.outcomeIn s₁ f = .ok x) (h₂ : c.outcomeIn s₂ f = .ok y)
    (hxy : FieldAlike (Copies s cs) c.target x y) :
    Corresponds s f cs (fun a => watched a || a == c.target) (c.after f s₁ x) (c.after f s₂ y) := by
  -- both write the same field; what was alike before in other fields is so still
  refine ⟨h.lists₁, h.lists₂, Nat.le_add_right_of_le h.labels₁, Nat.le_add_right_of_le h.labels₂,
    ?_, ?_, ?_⟩
  · exact (Store.isAlive_putField ..).trans (h.isAlive.trans (Store.isAlive_putField ..).symm)
  · rw [cellCount_after x (target_ne_closure h₁), cellCount_after y (target_ne_closure h₂)]
    exact h.cellCount
  · intro a ha
    by_cases hne : a = c.target
    · subst hne
      -- the new fields are read, unless the function is gone and has none to be replaced
      cases halive : s₁.functions.isAlive f with
      | true =>
        rw [field_after_self halive, field_after_self (h.isAlive ▸ halive)]
        exact hxy
      | false =>
        have halive₂ : s₂.functions.isAlive f = false := h.isAlive ▸ halive
        rw [function_after_of_not_isAlive halive, function_after_of_not_isAlive halive₂,
          Store.function_of_not_isAlive halive, Store.function_of_not_isAlive halive₂]
        exact .same _
    · have hwatched : watched a = true := by simpa [hne] using ha
      rw [field_after hne, field_after hne]
      exact h.fields a hwatched

theorem mono {watched' : Attribute → Bool} (h : Corresponds s f cs watched s₁ s₂)
    (hwatched : ∀ a, watched' a = true → watched a = true) :
    Corresponds s f cs watched' s₁ s₂ :=
  { h with fields := fun a ha => h.fields a (hwatched a ha) }

/-- Its answers look the same, and the runs go on to correspond. -/
theorem both (h : Corresponds s f cs watched s₁ s₂) (hc : c ∈ cs) :
    (s₁.left (c.apply f s₁)).1.mapError (·.seenBy watched) =
        (s₂.left (c.apply f s₂)).1.mapError (·.seenBy watched) ∧
      Corresponds s f cs watched (s₁.left (c.apply f s₁)).2 (s₂.left (c.apply f s₂)).2 := by
  have houtcome := h.outcomeIn_alike hc
  -- the outcomes become variables, for a case split on how they are alike
  generalize h₁ : c.outcomeIn s₁ f = r₁ at houtcome
  generalize h₂ : c.outcomeIn s₂ f = r₂ at houtcome
  cases houtcome with
  | error hfault =>
    rw [left_apply_of_error h₁, left_apply_of_error h₂]
    exact ⟨congrArg Except.error hfault, h⟩
  | ok hxy =>
    rw [left_apply_of_ok h₁, left_apply_of_ok h₂]
    exact ⟨rfl, (h.accepted h₁ h₂ hxy).mono fun a ha => by simp [ha]⟩

/-- **Runs.** What is left out makes no difference to the answers, and the runs correspond in the
end. -/
theorem makeAll (h : Corresponds s f cs watched s₁ s₂) (hcs : cs' ⊆ cs) :
    answersOn watched (makeAll f cs' s₁).1 =
        answersOn watched (Change.makeAll f (cs'.filter fun c => watched c.target) s₂).1 ∧
      Corresponds s f cs watched (Change.makeAll f cs' s₁).2
        (Change.makeAll f (cs'.filter fun c => watched c.target) s₂).2 := by
  -- by induction on the changes, for any two stores that correspond
  induction cs' generalizing s₁ s₂ with
  | nil => exact ⟨rfl, h⟩
  | cons c cs' ih =>
    obtain ⟨hc, hrest⟩ := List.cons_subset.1 hcs
    cases hwatched : watched c.target with
    | false =>
      -- the second run does not have this change, and nobody asks for its answer
      rw [List.filter_cons_of_neg (by simp [hwatched])]
      obtain ⟨hanswers, hended⟩ := ih (h.skip hwatched) hrest
      refine ⟨?_, hended⟩
      rw [← hanswers, Change.makeAll, answersOn, List.filter_cons_of_neg (by simp [hwatched])]
      rfl
    | true =>
      -- both runs have it, and answer the same
      rw [List.filter_cons_of_pos (by simp [hwatched])]
      obtain ⟨hanswer, hnext⟩ := h.both hc
      obtain ⟨hanswers, hended⟩ := ih hnext hrest
      refine ⟨?_, hended⟩
      rw [Change.makeAll, Change.makeAll, answersOn, answersOn,
        List.filter_cons_of_pos (by simp [hwatched]), List.filter_cons_of_pos (by simp [hwatched]),
        List.map_cons, List.map_cons]
      exact congr (congrArg List.cons (congrArg _ hanswer)) hanswers

/-- In the end attributes that are watched are read alike. -/
theorem readAlikeOn (h : Corresponds s f cs watched s₁ s₂) :
    s₁.ReadAlikeOn watched (Copies s cs) f s₂ := by
  intro a ha
  rw [Store.getAttr_label, Store.getAttr_label]
  exact (h.fields a ha).alike

end Corresponds

/-! ### Changes of two attributes -/

theorem labels_eq_zero (h : c.target ≠ .defaults) : c.labels = 0 := by
  obtain ⟨a, v?⟩ := c
  cases a <;> first | rfl | exact absurd rfl h

theorem FieldAlike.eq {a : Attribute} {x y : a.Field} (h : FieldAlike Eq a x y) : x = y := by
  cases h with
  | same => rfl
  | copy h => rw [h]

/-- Whether a change is accepted, and what comes of it, does not depend on other attributes. -/
theorem toOption_outcomeIn_after (h : c.target ≠ d.target) {y : d.target.Field}
    (hd : d.outcomeIn s f = .ok y) :
    (c.outcomeIn (d.after f s y) f).toOption = (c.outcomeIn s f).toOption := by
  have hcells := cellCount_after (s := s) (f := f) y (target_ne_closure hd)
  have houtcome : OutcomeAlike Eq (fun _ => false) c.target (c.outcomeIn (d.after f s y) f)
      (c.outcomeIn s f) := by
    rw [outcomeIn, outcomeIn, hcells]
    refine c.outcome_alike (fun hname => absurd hname Bool.false_ne_true) ?_
    rintro r rfl
    -- the other change makes no tuple, so the label is still to be given out
    have hlabels : (d.after f s y).labels = s.labels := by
      change s.labels + d.labels = s.labels
      rw [labels_eq_zero h.symm, Nat.add_zero]
    rw [hlabels]
  generalize c.outcomeIn (d.after f s y) f = r at houtcome
  generalize c.outcomeIn s f = r' at houtcome
  cases houtcome with
  | ok hxy => rw [hxy.eq]
  | error => rfl

theorem left_apply_snd (c : Change) (f : FunctionRef) (s : Store) :
    (s.left (c.apply f s)).2 = ((c.outcomeIn s f).toOption.map (c.after f s)).getD s := by
  cases h : c.outcomeIn s f with
  | ok x => rw [left_apply_of_ok h]; rfl
  | error e => rw [left_apply_of_error h]; rfl

theorem after_comm (h : c.target ≠ d.target) (x : c.target.Field) (y : d.target.Field) :
    d.after f (c.after f s x) y = c.after f (d.after f s y) x := by
  have hlabels : (s.takeLabels c.labels).takeLabels d.labels =
      (s.takeLabels d.labels).takeLabels c.labels :=
    congrArg (fun n => { s with labels := n }) (Nat.add_right_comm ..)
  calc d.after f (c.after f s x) y
      = (((s.takeLabels c.labels).takeLabels d.labels).putField f c.target x).putField f
          d.target y := rfl
    _ = (((s.takeLabels d.labels).takeLabels c.labels).putField f d.target y).putField f
          c.target x := by rw [hlabels, Store.putField_comm h]
    _ = c.after f (d.after f s y) x := rfl

/-- Changes of two attributes leave the same store in any order. -/
theorem makeAll_comm (h : c.target ≠ d.target) (f : FunctionRef) (s : Store) :
    (makeAll f [c, d] s).2 = (makeAll f [d, c] s).2 := by
  -- if either is refused, the other one is made alone, after it or before it
  have hpair (c d : Change) : (makeAll f [c, d] s).2 =
      ((s.left (c.apply f s)).2.left (d.apply f (s.left (c.apply f s)).2)).2 := rfl
  rw [hpair, hpair]
  cases hc : c.outcomeIn s f with
  | error e =>
    cases hd : d.outcomeIn s f with
    | error e' => rw [left_apply_of_error hc, left_apply_of_error hd, left_apply_of_error hc]
    | ok y =>
      -- the one that is accepted has no say in whether the other one is refused
      have hc' := toOption_outcomeIn_after h hd
      rw [left_apply_of_error hc, left_apply_of_ok hd, left_apply_snd, hc', hc]
      rfl
  | ok x =>
    have hd' := toOption_outcomeIn_after h.symm hc
    cases hd : d.outcomeIn s f with
    | error e =>
      rw [left_apply_of_ok hc, left_apply_snd, hd', hd, left_apply_of_error hd,
        left_apply_of_ok hc]
      rfl
    | ok y =>
      have hc' := toOption_outcomeIn_after h hd
      rw [left_apply_of_ok hc, left_apply_snd, hd', hd, left_apply_of_ok hd, left_apply_snd, hc',
        hc]
      exact after_comm h x y

/-- The answer to a change does not depend on whether another attribute is changed before it or
after it, as far as those see who do not watch that one. -/
theorem answersOn_comm (h : c.target ≠ d.target) (f : FunctionRef) (s : Store) :
    answersOn (· != d.target) (makeAll f [c, d] s).1 =
      answersOn (· != d.target) (makeAll f [d, c] s).1 := by
  -- either way, what is left when the other attribute is not watched is the one change
  have hcd := ((Corresponds.refl s f [c, d] (· != d.target)).makeAll (List.Subset.refl _)).1
  have hdc := ((Corresponds.refl s f [d, c] (· != d.target)).makeAll (List.Subset.refl _)).1
  rw [hcd, hdc]
  simp [h]

/-! ### Changes of one attribute -/

/-- Whoever watches everything sees the answers as they are. -/
theorem answersOn_all (answers : List (Change × Except Fault Unit)) :
    answersOn (fun _ => true) answers = answers := by
  have hall (p : Change × Except Fault Unit) :
      (p.1, p.2.mapError (·.seenBy fun _ => true)) = p := by
    obtain ⟨c, r⟩ := p
    cases r with
    | ok => rfl
    | error e => exact congrArg (fun e => (c, Except.error e)) e.seenBy_all
  rw [answersOn, List.filter_eq_self.2 fun _ _ => rfl, List.map_congr_left fun p _ => hall p,
    List.map_id']

/-- **The last one counts.** After changes of one attribute, the last of them accepted, all is as if
it had been the only one. -/
theorem corresponds_last {cs rest : List Change} (hcs : ∀ d ∈ cs, d.target = c.target)
    (hok : (c.apply f (makeAll f cs s).2).isOk = true) :
    Corresponds s f (cs ++ c :: rest) (fun _ => true) (makeAll f (cs ++ [c]) s).2
      (makeAll f [c] s).2 := by
  -- the other attributes are what they were at the beginning
  have hothers : Corresponds s f (cs ++ c :: rest) (· != c.target) (makeAll f cs s).2 s := by
    have hnone : cs.filter (fun d => d.target != c.target) = [] :=
      List.filter_eq_nil_iff.2 fun d hd => by simp [hcs d hd]
    have hprojected := ((Corresponds.refl s f (cs ++ c :: rest) (· != c.target)).makeAll
      (List.subset_append_left cs (c :: rest))).2
    rw [hnone] at hprojected
    exact hprojected
  have houtcome := hothers.outcomeIn_alike (c := c) (by simp)
  rw [makeAll_append]
  change Corresponds _ _ _ _ (Store.left _ (c.apply f (makeAll f cs s).2)).2
    (s.left (c.apply f s)).2
  generalize h₁ : c.outcomeIn (makeAll f cs s).2 f = r₁ at houtcome
  generalize h₂ : c.outcomeIn s f = r₂ at houtcome
  cases houtcome with
  | error =>
    rw [apply_eq, h₁] at hok
    cases hok
  | ok hxy =>
    rw [left_apply_of_ok h₁, left_apply_of_ok h₂]
    -- the last change makes its own attribute alike as well, and so all of them are
    exact (hothers.accepted h₁ h₂ hxy).mono fun a _ => by by_cases ha : a = c.target <;> simp [ha]

/-! ### The result -/

/-- **Attributes are independent.** Let changes of a function be made one after the other, each
accepted or refused.

If all are left out but those of some attributes that are watched, then the changes of these
are answered the same, but for the name in the message about code that does not fit, if the name is
not watched; and in the end they are read alike.

Changes of two attributes can be made in any order: they leave the same store, and neither is
answered otherwise, as far as those see who do not watch the other one.

After changes of one attribute of which the last one is accepted, everything is answered and read as
if that had been the only one. -/
theorem attributes_independent (f : FunctionRef) (s : Store) :
    (∀ (cs : List Change) (watched : Attribute → Bool),
      let all := makeAll f cs s
      let alone := makeAll f (cs.filter fun c => watched c.target) s
      answersOn watched all.1 = answersOn watched alone.1 ∧
        all.2.ReadAlikeOn watched (Copies s cs) f alone.2) ∧
    (∀ c d : Change, c.target ≠ d.target →
      (makeAll f [c, d] s).2 = (makeAll f [d, c] s).2 ∧
        answersOn (· != d.target) (makeAll f [c, d] s).1 =
          answersOn (· != d.target) (makeAll f [d, c] s).1) ∧
    ∀ (cs : List Change) (c : Change), (∀ d ∈ cs, d.target = c.target) →
      (c.apply f (makeAll f cs s).2).isOk = true → ∀ rest : List Change,
      let all := makeAll f rest (makeAll f (cs ++ [c]) s).2
      let last := makeAll f rest (makeAll f [c] s).2
      all.1 = last.1 ∧ all.2.ReadAlikeOn (fun _ => true) (Copies s (cs ++ c :: rest)) f last.2 := by
  refine ⟨fun cs watched => ?_, fun c d h => ⟨makeAll_comm h f s, answersOn_comm h f s⟩,
    fun cs c hcs hok rest => ?_⟩
  · obtain ⟨hanswers, hended⟩ :=
      (Corresponds.refl s f cs watched).makeAll (List.Subset.refl cs)
    exact ⟨hanswers, hended.readAlikeOn⟩
  · have hrest : rest ⊆ cs ++ c :: rest :=
      List.subset_append_of_subset_right cs (List.subset_cons_self c rest)
    obtain ⟨hanswers, hended⟩ := (corresponds_last hcs hok).makeAll hrest
    rw [List.filter_eq_self.2 fun _ _ => rfl] at hanswers hended
    rw [answersOn_all, answersOn_all] at hanswers
    exact ⟨hanswers, hended.readAlikeOn⟩

/-! ### Changes of a closure -/

section Sample

/-- A list, a dict and an empty cell. -/
def sampleObjects : Store where
  lists := ⟨#[some [.int 1, .int 2]]⟩
  dicts := ⟨#[some .empty]⟩
  cells := ⟨#[some none]⟩
  functions := .empty
  labels := 1

/-- A function that has the dict as its globals and has captured the cell. -/
def sampleStore : Store :=
  (sampleObjects.makeClosure ⟨⟨0⟩, "f", [], ["x"]⟩ ⟨0⟩ "" [⟨0⟩]).2

/-- Code that needs two cells. -/
def wideCode : Change := .set .code (.code ⟨⟨7⟩, "wide", [], ["x", "y"]⟩)

/-- Another name. -/
def rename : Change := .set .name (.str ⟨⟨8⟩, "g"⟩)

/-- Defaults that are copied from the list. -/
def listDefaults : Change := .set .defaults (.list ⟨0⟩)

/-- Code that does not fit, before the function has another name and after it; defaults that are
accepted, and some that are not. -/
def sampleChanges : List Change :=
  [listDefaults, wideCode, rename, .set .defaults (.bool true), .delete .code, wideCode,
    .set .code (.code ⟨⟨9⟩, "other", [], ["z"]⟩)]

/-- Changes of the function in this store. -/
def sampleRun (cs : List Change) : List (Change × Except Fault Unit) × Store :=
  makeAll ⟨0⟩ cs sampleStore

theorem attributes_independent_sample :
    answersOn (· == .code) (sampleRun sampleChanges).1 =
        answersOn (· == .code) (sampleRun (sampleChanges.filter (·.target == .code))).1 ∧
      (sampleRun sampleChanges).1.map (·.2) =
        [.ok (), .error (.codeArity "f" 1 2), .ok (), .error (.wrongKind .defaults .bool),
          .error (.notDeletable .code), .error (.codeArity "g" 1 2), .ok ()] ∧
      (sampleRun [wideCode, rename]).2 = (sampleRun [rename, wideCode]).2 ∧
      Store.Alike (Copies sampleStore [listDefaults, listDefaults])
        (sampleRun [listDefaults, listDefaults]).2 (sampleRun [listDefaults]).2
        (.ok (.tuple ⟨⟨2⟩, [.int 1, .int 2]⟩, (sampleRun [listDefaults, listDefaults]).2))
        (.ok (.tuple ⟨⟨1⟩, [.int 1, .int 2]⟩, (sampleRun [listDefaults]).2)) := by
  obtain ⟨halone, hany, hlast⟩ := attributes_independent ⟨0⟩ sampleStore
  refine ⟨(halone sampleChanges (· == .code)).1, ?_, (hany wideCode rename nofun).1, ?_⟩
  · rfl
  · exact (hlast [listDefaults] listDefaults (by simp) (by decide +kernel) []).2 .defaults rfl

end Sample

end Change

end Callable
