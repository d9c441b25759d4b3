import Callable.Proofs.Trace.History
import Mathlib.Algebra.GroupWithZero.Nat
import Mathlib.Data.List.Nodup

/-!
# The report of a profile

A profile keeps the numbers of calls in a table, and the table remembers the order in which the names
came in. Its report must not: it says how often each function was called, and nothing else that would
tell two runs apart.

There are two reasons why it does not. A ranking puts the entries in order, and there is only one way
to do that, because no two entries have the same name and so one of any two outranks the other one.
And what is ranked are counts of the events, which are the same in whatever order the events came
(`Summarizes.of_perm`): a profile that summarizes some events has the one report that these events
have (`Summarizes.sameReport`).

* `Profile.Outranks` — one entry stands before another one.
* `Profile.pairwise_outranks` — so they do in a ranking, and `Profile.mergeSort_eq_ranking` — in
  whatever order the table has them.
* `Profile.sum_calls_hear`, `Profile.sum_calls_hearAll` — the invariant that the numbers of calls add
  up to the number of all calls.
* `Profile.report_canonical` — the result.
-/

namespace Callable

namespace Profile

variable {p p' : Profile} {es es' : List Event}

/-! ### The order of a ranking -/

/-- **One entry outranks another one** if it has the greater count, or the same count and the smaller
name. -/
def Outranks (a b : String × Nat) : Prop := b.2 < a.2 ∨ a.2 = b.2 ∧ a.1 < b.1

theorem ranksBefore_iff {a b : String × Nat} :
    ranksBefore a b = true ↔ b.2 < a.2 ∨ a.2 = b.2 ∧ a.1 ≤ b.1 := by
  rw [ranksBefore, Bool.or_eq_true, Bool.and_eq_true, decide_eq_true_iff, decide_eq_true_iff,
    beq_iff_eq]

theorem ranksBefore_trans (a b c : String × Nat) (hab : ranksBefore a b = true)
    (hbc : ranksBefore b c = true) : ranksBefore a c = true := by
  rw [ranksBefore_iff] at hab hbc ⊢
  -- a greater count decides at either step; if neither does, the names are compared
  rcases hab with hab | ⟨hab, hname⟩
  · left
    rcases hbc with hbc | ⟨hbc, -⟩ <;> omega
  · rcases hbc with hbc | ⟨hbc, hname'⟩
    · left
      omega
    · exact .inr ⟨hab.trans hbc, String.le_trans hname hname'⟩

theorem ranksBefore_total (a b : String × Nat) : (ranksBefore a b || ranksBefore b a) = true := by
  rw [Bool.or_eq_true, ranksBefore_iff, ranksBefore_iff]
  rcases Nat.lt_trichotomy a.2 b.2 with hlt | heq | hgt
  · exact .inr (.inl hlt)
  · -- equally often called, so the names decide
    rcases String.le_total a.1 b.1 with hname | hname
    · exact .inl (.inr ⟨heq, hname⟩)
    · exact .inr (.inr ⟨heq.symm, hname⟩)
  · exact .inl (.inl hgt)

theorem ranksBefore_antisymm {a b : String × Nat} (hab : ranksBefore a b = true)
    (hba : ranksBefore b a = true) : a = b := by
  rw [ranksBefore_iff] at hab hba
  rcases hab with hab | ⟨hcount, hname⟩
  · rcases hba with hba | ⟨hba, -⟩ <;> omega
  · rcases hba with hba | ⟨-, hname'⟩
    · omega
    · exact Prod.ext (String.le_antisymm hname hname') hcount

/-- **Entries can be put in order in one way only**, wherever they come from. -/
theorem mergeSort_eq_of_perm {l l' : List (String × Nat)} (h : l.Perm l') :
    l.mergeSort ranksBefore = l'.mergeSort ranksBefore := by
  -- two sorted lists of the same entries are equal, as the order is antisymmetric
  refine List.Perm.eq_of_pairwise (fun a b _ _ => ranksBefore_antisymm)
    (List.pairwise_mergeSort ranksBefore_trans ranksBefore_total l)
    (List.pairwise_mergeSort ranksBefore_trans ranksBefore_total l') ?_
  exact ((List.mergeSort_perm l ranksBefore).trans h).trans (List.mergeSort_perm l' ranksBefore).symm

/-- Whatever order the table has its entries in, the ranking is the same. -/
theorem mergeSort_eq_ranking {entries : List (String × Nat)} (h : entries.Perm p.calls.entries) :
    entries.mergeSort ranksBefore = p.ranking :=
  mergeSort_eq_of_perm h

/-- **A ranking is in strict order**, since no two of its entries have the same name. -/
theorem pairwise_outranks (p : Profile) : p.ranking.Pairwise Outranks := by
  have hsorted : p.ranking.Pairwise fun a b => ranksBefore a b = true :=
    List.pairwise_mergeSort ranksBefore_trans ranksBefore_total p.calls.entries
  have hnames : p.ranking.Pairwise fun a b => a.1 ≠ b.1 := List.pairwise_map.1 p.nodup_ranking
  refine (hsorted.and hnames).imp ?_
  rintro a b ⟨hbefore, hname⟩
  rcases ranksBefore_iff.1 hbefore with hcount | ⟨hcount, hle⟩
  · exact .inl hcount
  · exact .inr ⟨hcount, Std.lt_of_le_of_ne hle hname⟩

/-! ### The number of all calls -/

/-- To write a number under a name replaces the one that was there. -/
theorem sum_put (name : String) (k : Nat) (l : List (String × Nat)) :
    ((Table.put name k l).map Prod.snd).sum + (Table.find name l).getD 0 =
      (l.map Prod.snd).sum + k := by
  -- stated with the old number added on the left, so that no difference has to be taken
  induction l with
  | nil => simp [Table.put, Table.find]
  | cons e rest ih =>
    obtain ⟨name', k'⟩ := e
    rw [Table.put, Table.find]
    by_cases hname : name' = name
    · rw [if_pos hname, if_pos hname, List.map_cons, List.map_cons, List.sum_cons, List.sum_cons,
        Option.getD_some]
      omega
    · rw [if_neg hname, if_neg hname, List.map_cons, List.map_cons, List.sum_cons, List.sum_cons]
      omega

/-- **One event.** A call counts once in the table and once in the total; nothing else counts in
either of them. -/
theorem sum_calls_hear (h : p.calls.values.sum = p.totalCalls) (e : Event) :
    (p.hear e).calls.values.sum = (p.hear e).totalCalls := by
  cases e with
  | called name depth =>
    -- a new name counts from zero, so in both cases the sum grows by one
    have hput := sum_put name ((p.calls.get? name).getD 0 + 1) p.calls.entries
    change (Table.put name _ p.calls.entries |>.map Prod.snd).sum = p.totalCalls + 1
    change _ + (p.calls.get? name).getD 0 = p.calls.values.sum + _ at hput
    omega
  | _ => exact h

/-- **Any events.** -/
theorem sum_calls_hearAll (h : p.calls.values.sum = p.totalCalls) (es : List Event)
    (hp' : ((Tracer.profile p).hearAll es).1 = .profile p') :
    p'.calls.values.sum = p'.totalCalls := by
  induction es generalizing p with
  | nil =>
    cases hp'
    exact h
  | cons e es ih => exact ih (sum_calls_hear h e) hp'

/-- The numbers in a ranking are those in the table. -/
theorem sum_ranking (p : Profile) : (p.ranking.map Prod.snd).sum = p.calls.values.sum :=
  ((List.mergeSort_perm p.calls.entries ranksBefore).map Prod.snd).sum_nat

/-! ### Events in another order -/

/-- **Two profiles report the same** if they agree in all that a report shows. -/
structure SameReport (p p' : Profile) : Prop where
  ranking : p'.ranking = p.ranking
  totalCalls : p'.totalCalls = p.totalCalls
  failedCalls : p'.failedCalls = p.failedCalls
  maxDepth : p'.maxDepth = p.maxDepth
  functionsMade : p'.functionsMade = p.functionsMade
  closuresMade : p'.closuresMade = p.closuresMade
  rejectedWrites : p'.rejectedWrites = p.rejectedWrites
  boundMethods : p'.boundMethods = p.boundMethods
  text : p'.report = p.report

/-- The greatest of some numbers is not less than that of fewer ones. -/
theorem max?_getD_le_of_subset {l l' : List Nat} (h : l ⊆ l') : l.max?.getD 0 ≤ l'.max?.getD 0 := by
  cases hmax : l.max? with
  | none => exact Nat.zero_le _
  | some m => exact List.le_max?_getD_of_mem (h (List.max?_mem hmax))

namespace Summarizes

/-- **What a profile counts does not depend on the order** in which the events came. -/
theorem of_perm (h : p.Summarizes es) (hperm : es'.Perm es) : p.Summarizes es' where
  totalCalls := by rw [hperm.countP_eq, h.totalCalls]
  calls := fun name k => by rw [hperm.countP_eq, h.calls]
  failedCalls := by rw [hperm.countP_eq, h.failedCalls]
  maxDepth := by
    have hdepths : (Event.callDepths es').Perm (Event.callDepths es) :=
      hperm.filterMap Event.callDepth?
    rw [h.maxDepth]
    exact Nat.le_antisymm (max?_getD_le_of_subset hdepths.symm.subset)
      (max?_getD_le_of_subset hdepths.subset)
  functionsMade := by rw [hperm.countP_eq, h.functionsMade]
  closuresMade := by rw [hperm.countP_eq, h.closuresMade]
  rejectedWrites := by rw [hperm.countP_eq, h.rejectedWrites]
  boundMethods := by rw [hperm.countP_eq, h.boundMethods]

/-- A name is listed if it was called at least once. -/
theorem mem_names (h : p.Summarizes es) {name : String} :
    name ∈ p.ranking.map Prod.fst ↔ ∃ depth, Event.called name depth ∈ es := by
  have hcount : name ∈ p.ranking.map Prod.fst ↔ 0 < es.countP (Event.isCallOf name) := by
    rw [List.mem_map]
    constructor
    · rintro ⟨⟨name, k⟩, hmem, rfl⟩
      obtain ⟨rfl, hpos⟩ := h.mem_ranking.1 hmem
      exact hpos
    · intro hpos
      exact ⟨(name, _), h.mem_ranking.2 ⟨rfl, hpos⟩, rfl⟩
  -- a name has a positive count exactly if some event is a call of it
  rw [hcount, List.countP_pos_iff]
  constructor
  · rintro ⟨e, he, hcall⟩
    cases e with
    | called name' depth =>
      obtain rfl : name' = name := eq_of_beq hcall
      exact ⟨depth, he⟩
    | _ => cases hcall
  · rintro ⟨depth, he⟩
    exact ⟨_, he, beq_self_eq_true name⟩

/-- **Some events have one ranking**, whichever profile has counted them. -/
theorem ranking_eq (h : p.Summarizes es) (h' : p'.Summarizes es) : p'.ranking = p.ranking := by
  have hentries : p'.calls.entries.Perm p.calls.entries := by
    -- both tables have the same entries, as each is determined by the events
    have hnodup := List.Nodup.of_map Prod.fst p.calls.nodup
    have hnodup' := List.Nodup.of_map Prod.fst p'.calls.nodup
    refine (List.perm_ext_iff_of_nodup hnodup' hnodup).2 ?_
    rintro ⟨name, k⟩
    rw [Table.mem_entries_iff, Table.mem_entries_iff, h.calls, h'.calls]
  exact mergeSort_eq_ranking hentries

/-- **Some events have one report.** -/
theorem sameReport (h : p.Summarizes es) (h' : p'.Summarizes es) : p.SameReport p' := by
  have hranking := h.ranking_eq h'
  have htotal := h'.totalCalls.trans h.totalCalls.symm
  have hfailed := h'.failedCalls.trans h.failedCalls.symm
  have hdepth := h'.maxDepth.trans h.maxDepth.symm
  have hmade := h'.functionsMade.trans h.functionsMade.symm
  have hclosures := h'.closuresMade.trans h.closuresMade.symm
  have hrejected := h'.rejectedWrites.trans h.rejectedWrites.symm
  have hbound := h'.boundMethods.trans h.boundMethods.symm
  -- the text is made of these and of nothing else
  refine ⟨hranking, htotal, hfailed, hdepth, hmade, hclosures, hrejected, hbound, ?_⟩
  unfold report
  rw [hranking, htotal, hfailed, hdepth, hmade, hclosures, hrejected, hbound]

end Summarizes

/-! ### The result -/

/-- **The report of a profile is canonical.** Of any events one after the other, the ranking lists each
name that was called, and lists it once. Each entry outranks all that come after it, and the numbers
add up to the number of all calls. It is the same in whatever order the table has its entries. And
whatever order the same events come in, every part of the report and its text are the same. -/
theorem report_canonical (es : List Event) :
    ∃ p : Profile, ((Tracer.profile .start).hearAll es).1 = .profile p ∧
      (∀ name, name ∈ p.ranking.map Prod.fst ↔ ∃ depth, Event.called name depth ∈ es) ∧
      (p.ranking.map Prod.fst).Nodup ∧
      p.ranking.Pairwise Outranks ∧
      (p.ranking.map Prod.snd).sum = p.totalCalls ∧
      (∀ entries : List (String × Nat), entries.Perm p.calls.entries →
        entries.mergeSort ranksBefore = p.ranking) ∧
      ∀ es' : List Event, es'.Perm es →
        ∃ p' : Profile, ((Tracer.profile .start).hearAll es').1 = .profile p' ∧
          p.SameReport p' := by
  obtain ⟨p, hp, hsum⟩ := Summarizes.start.hearAll es
  refine ⟨p, hp, fun _ => hsum.mem_names, p.nodup_ranking, p.pairwise_outranks, ?_, ?_, ?_⟩
  · rw [sum_ranking]
    exact sum_calls_hearAll rfl es hp
  · intro entries hentries
    exact mergeSort_eq_ranking hentries
  · intro es' hperm
    obtain ⟨p', hp', hsum'⟩ := Summarizes.start.hearAll es'
    exact ⟨p', hp', (hsum.of_perm hperm).sameReport hsum'⟩

/-! ### Three calls in two orders -/

section Orders

/-- One function is called twice and another one once. -/
def threeCalls : List Event := [.called "b" 1, .called "a" 2, .returned 1 false, .called "b" 2]

/-- The same events, in another order. -/
def threeCallsReordered : List Event :=
  [.called "a" 2, .called "b" 2, .returned 1 false, .called "b" 1]

/-- The tables list the two names in different orders, and the reports agree. -/
theorem report_canonical_threeCalls :
    threeCallsReordered.Perm threeCalls ∧
      ∃ p p' : Profile, ((Tracer.profile .start).hearAll threeCalls).1 = .profile p ∧
        ((Tracer.profile .start).hearAll threeCallsReordered).1 = .profile p' ∧
        p.calls.entries = [("b", 2), ("a", 1)] ∧ p'.calls.entries = [("a", 1), ("b", 2)] ∧
        p'.calls.entries.mergeSort ranksBefore = p.ranking ∧ p'.report = p.report := by
  have hperm : threeCallsReordered.Perm threeCalls := by decide
  obtain ⟨p, hp, -, -, -, -, hentries, hreorder⟩ := report_canonical threeCalls
  obtain ⟨p', hp', hsame⟩ := hreorder _ hperm
  have hlisted : p.calls.entries = [("b", 2), ("a", 1)] := by
    cases hp
    decide
  have hlisted' : p'.calls.entries = [("a", 1), ("b", 2)] := by
    cases hp'
    decide
  refine ⟨hperm, p, p', hp, hp', hlisted, hlisted', hentries _ ?_, hsame.text⟩
  rw [hlisted, hlisted']
  exact .swap _ _ _

end Orders

end Profile

end Callable
