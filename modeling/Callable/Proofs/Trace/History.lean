import Callable.Proofs.Equality.Bisimulation
import Callable.Proofs.Run.Forest

/-!
# Tracers as functions of one history

A recording keeps the events, a log prints them and a profile counts them, and each of them goes
about it in its own way. What they have in the end is a function of the sequence of events: of any
sequence, also of one that no monitor would report. The one induction for each is on the sequence,
with what the tracer held before left free; for a profile this is the invariant that its counts are
those of the events heard so far.

A sequence that a monitor reports has more to it. Every call that begins also ends, one level
deeper and back again, so levels go up and down by one (`Levels`). Hence a profile has as many calls
as there were ends of calls, and its greatest depth is the greatest number of calls that were under
way at a time, which is not something that a profile follows.

* `Profile.Summarizes` — the counts of a profile are those of some events; `Summarizes.hear` is the
  step and `Summarizes.hearAll` the run.
* `Levels` — events that lead from one number of calls under way to another one.
* `Monitored.ReportsAll.levels` — the events of operations lead back to where they began.
* `Monitored.tracers_agree` — the result.
-/

namespace Callable

/-! ### Events by what they are counted as -/

namespace Event

/-- A call began. -/
def isCall : Event → Bool
  | called _ _ => true
  | _ => false

/-- A call of a function with this name began. -/
def isCallOf (name : String) : Event → Bool
  | called name' _ => name' == name
  | _ => false

/-- The depth of a call that began. -/
def callDepth? : Event → Option Nat
  | called _ depth => some depth
  | _ => none

/-- A call ended. -/
def isReturn : Event → Bool
  | returned _ _ => true
  | _ => false

/-- A call ended with an error. -/
def isFailure : Event → Bool
  | returned _ ok => !ok
  | _ => false

/-- A function was made. -/
def isMade : Event → Bool
  | made _ _ _ => true
  | _ => false

/-- A function was made that has captured cells. -/
def isClosure : Event → Bool
  | made _ cells _ => 0 < cells
  | _ => false

/-- A write or a deletion was refused. -/
def isRejection : Event → Bool
  | attrSet _ ok | attrDeleted _ ok => !ok
  | _ => false

/-- A function was read through an instance and became a bound method. -/
def isMethod : Event → Bool
  | bound method => method
  | _ => false

/-- The depths of the calls among some events. -/
def callDepths (es : List Event) : List Nat := es.filterMap callDepth?

/-- The calls under way after some events, when none was under way before them. -/
def underWay (es : List Event) : Nat := es.countP isCall - es.countP isReturn

theorem mem_callDepths {es : List Event} {d : Nat} :
    d ∈ callDepths es ↔ ∃ name, called name d ∈ es := by
  simp only [callDepths, List.mem_filterMap]
  constructor
  · rintro ⟨e, he, hd⟩
    cases e <;> cases hd
    exact ⟨_, he⟩
  · rintro ⟨name, hname⟩
    exact ⟨_, hname, rfl⟩

end Event

/-! ### Profiles -/

/-- **What a profile should be** after some events. -/
structure Profile.Summarizes (p : Profile) (es : List Event) : Prop where
  totalCalls : p.totalCalls = es.countP Event.isCall
  /-- A name is listed with its number of calls as soon as it was called. -/
  calls : ∀ name k, p.calls.get? name = some k ↔ k = es.countP (Event.isCallOf name) ∧ 0 < k
  failedCalls : p.failedCalls = es.countP Event.isFailure
  maxDepth : p.maxDepth = (Event.callDepths es).max?.getD 0
  functionsMade : p.functionsMade = es.countP Event.isMade
  closuresMade : p.closuresMade = es.countP Event.isClosure
  rejectedWrites : p.rejectedWrites = es.countP Event.isRejection
  boundMethods : p.boundMethods = es.countP Event.isMethod

namespace Profile

variable {p : Profile} {es : List Event} {e : Event}

theorem countP_concat (q : Event → Bool) (es : List Event) (e : Event) :
    (es ++ [e]).countP q = es.countP q + tally (q e) := by
  rw [List.countP_append, List.countP_singleton, tally]

/-- The greatest of some numbers and one more. -/
theorem max?_concat (l : List Nat) (d : Nat) :
    (l ++ [d]).max?.getD 0 = max (l.max?.getD 0) d := by
  cases l with
  | nil => simp
  | cons a l =>
    rw [List.cons_append, List.max?_cons', List.max?_cons', List.foldl_append]
    rfl

namespace Summarizes

theorem start : Profile.start.Summarizes [] where
  totalCalls := rfl
  calls := fun name k => by
    rw [List.countP_nil]
    exact ⟨nofun, fun h => absurd h.1 (Nat.ne_of_gt h.2)⟩
  failedCalls := rfl
  maxDepth := rfl
  functionsMade := rfl
  closuresMade := rfl
  rejectedWrites := rfl
  boundMethods := rfl

/-- A name that is not listed was not called. -/
theorem getD_calls (h : p.Summarizes es) (name : String) :
    (p.calls.get? name).getD 0 = es.countP (Event.isCallOf name) := by
  cases hk : p.calls.get? name with
  | some k => exact ((h.calls name k).1 hk).1
  | none =>
    rcases Nat.eq_zero_or_pos (es.countP (Event.isCallOf name)) with hzero | hpos
    · rw [hzero]
      rfl
    · have hlisted := (h.calls name _).2 ⟨rfl, hpos⟩
      rw [hk] at hlisted
      cases hlisted

/-- One more call under a name. -/
theorem calls_insert (h : p.Summarizes es) (name name' : String) (d k : Nat) :
    (p.calls.insert name ((p.calls.get? name).getD 0 + 1)).get? name' = some k ↔
      k = (es ++ [Event.called name d]).countP (Event.isCallOf name') ∧ 0 < k := by
  rw [Table.get?_insert, countP_concat]
  by_cases hname : name = name'
  · -- under this name the count goes up by one, from zero if there was none
    subst hname
    have htally : tally (Event.isCallOf name (.called name d)) = 1 := by
      simp [Event.isCallOf, tally]
    rw [if_pos rfl, h.getD_calls, htally]
    constructor
    · rintro ⟨⟩
      exact ⟨rfl, Nat.succ_pos _⟩
    · rintro ⟨rfl, -⟩
      rfl
  · have htally : tally (Event.isCallOf name' (.called name d)) = 0 := by
      simp [Event.isCallOf, tally, hname]
    rw [if_neg hname, htally]
    exact h.calls name' k

/-- **One event.** -/
theorem hear (h : p.Summarizes es) (e : Event) : (p.hear e).Summarizes (es ++ [e]) where
  -- a count goes up by one or by nothing, as the event is one of those that it counts
  totalCalls := by
    rw [countP_concat, ← h.totalCalls]
    cases e <;> rfl
  calls := fun name k => by
    cases e with
    | called name' d => exact h.calls_insert name' name d k
    | _ =>
      -- no call, so neither the table nor the number of calls changes
      rw [countP_concat]
      exact h.calls name k
  failedCalls := by
    rw [countP_concat, ← h.failedCalls]
    cases e <;> rfl
  maxDepth := by
    rw [Event.callDepths, List.filterMap_append]
    cases e with
    | called name d => exact (congrArg (max · d) h.maxDepth).trans (max?_concat _ d).symm
    | _ => exact h.maxDepth.trans (congrArg (·.max?.getD 0) (List.append_nil _).symm)
  functionsMade := by
    rw [countP_concat, ← h.functionsMade]
    cases e <;> rfl
  closuresMade := by
    rw [countP_concat, ← h.closuresMade]
    cases e <;> rfl
  rejectedWrites := by
    rw [countP_concat, ← h.rejectedWrites]
    cases e <;> rfl
  boundMethods := by
    rw [countP_concat, ← h.boundMethods]
    cases e <;> rfl

/-- **Any events.** -/
theorem hearAll (h : p.Summarizes es) (es' : List Event) :
    ∃ p' : Profile, ((Tracer.profile p).hearAll es').1 = .profile p' ∧
      p'.Summarizes (es ++ es') := by
  induction es' generalizing p es with
  | nil => exact ⟨p, rfl, by rwa [List.append_nil]⟩
  | cons e es' ih =>
    obtain ⟨p', hp', hsum⟩ := ih (h.hear e)
    refine ⟨p', hp', ?_⟩
    rwa [List.append_assoc] at hsum

/-- The ranking lists the names that were called, with their numbers of calls. -/
theorem mem_ranking (h : p.Summarizes es) {name : String} {k : Nat} :
    (name, k) ∈ p.ranking ↔ k = es.countP (Event.isCallOf name) ∧ 0 < k := by
  rw [ranking, List.mem_mergeSort, Table.mem_entries_iff, h.calls]

end Summarizes

/-- No name is listed twice. -/
theorem nodup_ranking (p : Profile) : (p.ranking.map Prod.fst).Nodup := by
  have hperm : (p.ranking.map Prod.fst).Perm p.calls.keys :=
    (List.mergeSort_perm p.calls.entries ranksBefore).map Prod.fst
  exact hperm.nodup_iff.2 p.calls.nodup_keys

end Profile

/-! ### Logs -/

/-- A log without a limit prints the line of every event, however many it has printed. -/
theorem Tracer.printed_hearAll_log (n : Nat) (es : List Event) :
    ((Tracer.log ⟨none, n⟩).hearAll es).2 = String.join (es.map fun e => e.logLine ++ "\n") := by
  induction es generalizing n with
  | nil => rfl
  | cons e es ih =>
    have hline : Log.text [e.logLine] = e.logLine ++ "\n" := by
      simp [Log.text]
    rw [List.map_cons, String.join_cons, ← ih (n + 1), ← hline]
    rfl

/-! ### Levels -/

/-- **Events that keep to levels.** They lead from so many calls under way to so many: a call begins
one level deeper, and is reported there; it ends one level up, and is reported there; and nothing
else changes the level. -/
inductive Levels : Nat → List Event → Nat → Prop
  | nil (d : Nat) : Levels d [] d
  | called {d d' : Nat} {es : List Event} (name : String) (rest : Levels (d + 1) es d') :
      Levels d (.called name (d + 1) :: es) d'
  | returned {d d' : Nat} {es : List Event} (ok : Bool) (rest : Levels d es d') :
      Levels (d + 1) (.returned d ok :: es) d'
  | other {d d' : Nat} {es : List Event} {e : Event} (hcall : e.isCall = false)
      (hreturn : e.isReturn = false) (rest : Levels d es d') : Levels d (e :: es) d'

namespace Levels

variable {d d' d'' : Nat} {es es' : List Event}

theorem append (h : Levels d es d') (h' : Levels d' es' d'') : Levels d (es ++ es') d'' := by
  induction h with
  | nil => exact h'
  | called name _ ih => exact .called name (ih h')
  | returned ok _ ih => exact .returned ok (ih h')
  | other hcall hreturn _ ih => exact .other hcall hreturn (ih h')

/-- Wherever the events are cut in two, there is a level between the two parts. -/
theorem of_append (h : Levels d (es ++ es') d'') : ∃ d', Levels d es d' ∧ Levels d' es' d'' := by
  -- by induction on the first part, which the levels follow event by event
  induction es generalizing d with
  | nil => exact ⟨d, .nil d, h⟩
  | cons e es ih =>
    cases h with
    | called name rest =>
      obtain ⟨d', hbefore, hafter⟩ := ih rest
      exact ⟨d', .called name hbefore, hafter⟩
    | returned ok rest =>
      obtain ⟨d', hbefore, hafter⟩ := ih rest
      exact ⟨d', .returned ok hbefore, hafter⟩
    | other hcall hreturn rest =>
      obtain ⟨d', hbefore, hafter⟩ := ih rest
      exact ⟨d', .other hcall hreturn hbefore, hafter⟩

/-- The level goes up with every call that begins, and down with every call that ends. -/
theorem add_countP (h : Levels d es d') :
    d + es.countP Event.isCall = d' + es.countP Event.isReturn := by
  -- each rule adds one to both sides, or nothing to either
  induction h with
  | nil => rfl
  | called name _ ih =>
    rw [List.countP_cons_of_pos rfl, List.countP_cons_of_neg (by simp [Event.isReturn])]
    omega
  | returned ok _ ih =>
    rw [List.countP_cons_of_neg (by simp [Event.isCall]), List.countP_cons_of_pos rfl]
    omega
  | other hcall hreturn _ ih =>
    rw [List.countP_cons_of_neg (by simp [hcall]), List.countP_cons_of_neg (by simp [hreturn])]
    exact ih

/-- From the outermost level, the level is the number of calls under way. -/
theorem underWay_eq (h : Levels 0 es d) : Event.underWay es = d := by
  have hcount := h.add_countP
  rw [Event.underWay]
  omega

/-- A level that is reached is the first one, or was reported of a call. -/
theorem le_or_mem (h : Levels d es d') : d' ≤ d ∨ ∃ k ∈ Event.callDepths es, d' ≤ k := by
  induction h with
  | nil => exact .inl (Nat.le_refl _)
  | @called d d' es name _ ih =>
    -- from the level of this call, which is reported
    have hhere : d + 1 ∈ Event.callDepths (.called name (d + 1) :: es) := List.mem_cons_self
    rcases ih with hle | ⟨k, hk, hle⟩
    · exact .inr ⟨d + 1, hhere, hle⟩
    · exact .inr ⟨k, List.mem_cons_of_mem _ hk, hle⟩
  | returned ok _ ih =>
    -- from a lower level, which is no more than this one
    exact ih.imp_left (Nat.le_succ_of_le ·)
  | @other d d' es e hcall _ _ ih =>
    have hdepths : Event.callDepths (e :: es) = Event.callDepths es := by
      cases e <;> first | rfl | cases hcall
    rw [hdepths]
    exact ih

/-- When a call has begun, the level is the depth that was reported of it. -/
theorem of_called {name : String} {m : Nat} (h : Levels d (es ++ .called name m :: es') d'') :
    Levels d (es ++ [.called name m]) m := by
  obtain ⟨d', hbefore, hcall⟩ := h.of_append
  cases hcall with
  | called => exact hbefore.append (.called name (.nil _))
  | other hno => cases hno

/-- **The greatest depth of a call** is the greatest number of calls under way at a time. -/
theorem isGreatest_underWay (h : Levels 0 es d) :
    IsGreatest {n | ∃ es', es' <+: es ∧ n = Event.underWay es'}
      ((Event.callDepths es).max?.getD 0) := by
  constructor
  · cases hmax : (Event.callDepths es).max? with
    | none => exact ⟨[], List.nil_prefix, rfl⟩
    | some m =>
      -- it is reported of some call, and reached as soon as this call has begun
      obtain ⟨name, hcalled⟩ := Event.mem_callDepths.1 (List.max?_mem hmax)
      obtain ⟨before, rest, rfl⟩ := List.append_of_mem hcalled
      refine ⟨before ++ [.called name m], ⟨rest, ?_⟩, ?_⟩
      · rw [List.append_assoc, List.singleton_append]
      · exact h.of_called.underWay_eq.symm
  · rintro n ⟨es', ⟨rest, rfl⟩, rfl⟩
    -- a level that is reached later on is one that a call has brought about
    obtain ⟨d', hbefore, -⟩ := h.of_append
    rw [hbefore.underWay_eq]
    rcases hbefore.le_or_mem with hle | ⟨k, hk, hle⟩
    · exact Nat.le_trans hle (Nat.zero_le _)
    · have hmem : k ∈ Event.callDepths (es' ++ rest) := by
        rw [Event.callDepths, List.filterMap_append]
        exact List.mem_append_left _ hk
      exact Nat.le_trans hle (List.le_max?_getD_of_mem hmem)

end Levels

/-! ### Operations keep to levels -/

namespace CallTree

mutual

/-- The events of a call lead back to the level where it began. -/
theorem levels_flatten (d : Nat) : (t : CallTree) → Levels d (t.flatten d) d
  | node name children ok => by
    -- one level deeper, all calls in it at that level, and back
    rw [flatten]
    exact .called name ((levels_flattenAll (d + 1) children).append (.returned ok (.nil d)))

theorem levels_flattenAll (d : Nat) : (ts : List CallTree) → Levels d (flattenAll d ts) d
  | [] => .nil d
  | t :: ts => by
    rw [flattenAll]
    exact (levels_flatten d t).append (levels_flattenAll d ts)

end

end CallTree

namespace Monitored

variable {σ : Type} {ev : Evaluator σ Monitor} {w : Monitored σ}

theorem Operation.Reports.levels {op : Operation σ} {es : List Event} (h : op.Reports ev w es) :
    Levels w.watch.depth es w.watch.depth := by
  -- only a call has more than one event, and it is flattened from where it begins
  cases h with
  | makeFunction | makeClosure | setAttr | delAttr | bind => exact .other rfl rfl (.nil _)
  | @call f args kwargs t | @callFunction f args kwargs t | @callMethod m args kwargs t =>
    exact t.levels_flatten _
  | refused | getAttr | aside => exact .nil _

/-- The events of operations lead back to the level where they began. -/
theorem ReportsAll.levels {ops : List (Operation σ)} {ess : List (List Event)}
    (h : ReportsAll ev w ops ess) : Levels w.watch.depth ess.flatten w.watch.depth := by
  induction h with
  | nil w => exact .nil _
  | @cons w op ops es ess h _ ih =>
    have hdepth : (op.perform ev w).2.watch.depth = w.watch.depth := by
      rw [h.watch_perform]
      rfl
    rw [hdepth] at ih
    rw [List.flatten_cons]
    exact h.levels.append ih

/-! ### The result -/

/-- **Tracers are functions of one history.** Of any events one after the other, a recording without
a limit holds these events in their order; a log without a limit has printed one line for each of
them, which depends on this event only; and a profile has the counts of these events, and ranks the
names that were called, each once, with the numbers of their calls.

Let evaluators leave the notes of the observer alone, and give to every call the observer that they
were handed, or none. Then the operations of a program have events to report, and these are what any
tracer hears. Of such events a profile has as many calls as there were ends of calls, and its
greatest depth is the greatest number of calls that were under way at a time. -/
theorem tracers_agree :
    (∀ es : List Event,
      ((Tracer.recording (.start none)).hearAll es).1 = .recording ⟨none, es.toArray⟩ ∧
      ((Tracer.log (.start none)).hearAll es).2 = String.join (es.map fun e => e.logLine ++ "\n") ∧
      ∃ p : Profile, ((Tracer.profile .start).hearAll es).1 = .profile p ∧ p.Summarizes es ∧
        (∀ name k, (name, k) ∈ p.ranking ↔ k = es.countP (Event.isCallOf name) ∧ 0 < k) ∧
        (p.ranking.map Prod.fst).Nodup) ∧
    ∀ {σ : Type} (ev : Evaluator σ Monitor), ev.HoldsTo .quiet →
      ∀ (t : Tracer) (w : Monitored σ), w.watch = .start t → ∀ ops : List (Operation σ),
        (∃ ess, ReportsAll ev w ops ess) ∧
        ∀ ess, ReportsAll ev w ops ess →
          (performAll ev ops w).watch = .start (t.hearAll ess.flatten).1 ∧
          ∀ p : Profile, ((Tracer.profile .start).hearAll ess.flatten).1 = .profile p →
            p.totalCalls = ess.flatten.countP Event.isReturn ∧
            IsGreatest {n | ∃ es, es <+: ess.flatten ∧ n = Event.underWay es} p.maxDepth := by
  refine ⟨fun es => ⟨?_, Tracer.printed_hearAll_log 0 es, ?_⟩, ?_⟩
  · exact (Tracer.hearAll_recording #[] es).trans (by rw [Array.empty_append])
  · obtain ⟨p, hp, hsum⟩ := Profile.Summarizes.start.hearAll es
    exact ⟨p, hp, hsum, fun _ _ => hsum.mem_ranking, p.nodup_ranking⟩
  · intro σ ev hev t w hw ops
    refine ⟨exists_reportsAll hev w ops, fun ess hess => ⟨?_, fun p hp => ?_⟩⟩
    · rw [hess.watch_performAll, hw]
      rfl
    · -- what is reported of the operations, from the outermost level back to it
      have hlevels : Levels 0 ess.flatten 0 := by
        have hback := hess.levels
        rw [hw] at hback
        exact hback
      -- a profile is determined by what it has heard, so this one has the counts
      have hsum : p.Summarizes ess.flatten := by
        obtain ⟨p', hp', hsum⟩ := Profile.Summarizes.start.hearAll ess.flatten
        rw [hp] at hp'
        cases hp'
        exact hsum
      constructor
      · have hcount := hlevels.add_countP
        rw [hsum.totalCalls]
        omega
      · rw [hsum.maxDepth]
        exact hlevels.isGreatest_underWay

/-! ### A profile of a script -/

section Profiled

/-- The script under a profile. -/
def profiledWorld : Monitored Script.Stage := { sampleWorld with watch := .start (.profile .start) }

/-- The counts of a profile. -/
def profileOf : Tracer → Profile
  | .profile p => p
  | _ => .start

/-- Two of the four calls come back in the midst of another one, and all of them come back. -/
theorem tracers_agree_profiled :
    ∃ ess, ReportsAll (Script.evaluate sampleBodies 2) profiledWorld sampleOperations ess ∧
      ess.flatten.countP Event.isReturn = 4 ∧
      IsGreatest {n | ∃ es, es <+: ess.flatten ∧ n = Event.underWay es} 2 := by
  have hev : (Script.evaluate sampleBodies 2 : Evaluator Script.Stage Monitor).HoldsTo .quiet :=
    (Script.holdsTo_evaluate sampleBodies 2).mono Conduct.orderly_within_quiet
  obtain ⟨⟨ess, hess⟩, hall⟩ := tracers_agree.2 _ hev (.profile .start) profiledWorld rfl
    sampleOperations
  obtain ⟨hwatch, hcounts⟩ := hall ess hess
  obtain ⟨p, hp, -⟩ := (tracers_agree.1 ess.flatten).2.2
  obtain ⟨hcalls, hdepth⟩ := hcounts p hp
  -- the profile is computed
  have hprofile : profileOf (performAll (Script.evaluate sampleBodies 2) sampleOperations
      profiledWorld).watch.tracer = p := by
    rw [hwatch, hp]
    rfl
  have htotal : p.totalCalls = 4 := by
    rw [← hprofile]
    decide +kernel
  have hmax : p.maxDepth = 2 := by
    rw [← hprofile]
    decide +kernel
  exact ⟨ess, hess, hcalls.symm.trans htotal, hmax ▸ hdepth⟩

end Profiled

end Monitored

end Callable
