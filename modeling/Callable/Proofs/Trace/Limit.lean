import Callable.Proofs.Run.Forest
import Mathlib.Data.List.Induction

/-!
# Tracers with a limit

A recording and a log may have a limit, and they keep to it in different ways. A recording looks at
how many events it holds. A log holds none and counts those for which it has printed something; it
counts an event before it prints the line, and this is where the notice comes from.

Both amount to the same: the first so many events are kept, and all others are lost. The induction
is at the end of the events, since what becomes of an event depends on how many there were before.
It is carried by where the two tracers stand: after `es` a recording holds `es.take n`, and a log has
counted up to `min n es.length`.

* `Tracer.kept` — the events that a tracer keeps, by what can be seen of it.
* `Log.Abridges` — the lines that a log with a limit should print.
* `Tracer.standing_recording`, `Tracer.standing_log` — where the two stand after some events.
* `Tracer.limits_truncate` — the result.
-/

namespace Callable

/-! ### What is kept -/

namespace Tracer

/-- **An event is kept** by a recording that holds more after it than before it, and by a log that
prints something for it. The other tracers keep no events. -/
def keeps (t : Tracer) (e : Event) : Bool :=
  match t with
  | recording r => r.events.size < (r.hear e).events.size
  | log l => (l.hear e).2 != ""
  | silent | profile _ => false

/-- The events that a tracer keeps, of some that it hears one after the other. -/
def kept (t : Tracer) : List Event → List Event
  | [] => []
  | e :: es => if t.keeps e then e :: (t.hear e).1.kept es else (t.hear e).1.kept es

/-! ### One event more -/

theorem standing_concat (t : Tracer) (es : List Event) (e : Event) :
    (t.hearAll (es ++ [e])).1 = ((t.hearAll es).1.hear e).1 := by
  rw [hearAll_append]
  rfl

theorem printed_concat (t : Tracer) (es : List Event) (e : Event) :
    (t.hearAll (es ++ [e])).2 = (t.hearAll es).2 ++ ((t.hearAll es).1.hear e).2 := by
  induction es generalizing t with
  | nil =>
    change (t.hear e).2 ++ "" = "" ++ (t.hear e).2
    rw [String.append_empty, String.empty_append]
  | cons e' es ih =>
    -- the first event is split off, since the tracer goes on from where it leaves it
    change (t.hear e').2 ++ ((t.hear e').1.hearAll (es ++ [e])).2 = _
    rw [ih, ← String.append_assoc]
    rfl

theorem kept_concat (t : Tracer) (es : List Event) (e : Event) :
    t.kept (es ++ [e]) = t.kept es ++ if (t.hearAll es).1.keeps e then [e] else [] := by
  induction es generalizing t with
  | nil => rfl
  | cons e' es ih =>
    change (if t.keeps e' then e' :: (t.hear e').1.kept (es ++ [e])
      else (t.hear e').1.kept (es ++ [e])) = _
    rw [ih, kept]
    by_cases hkeeps : t.keeps e' = true
    · rw [if_pos hkeeps, if_pos hkeeps]
      rfl
    · rw [if_neg hkeeps, if_neg hkeeps]
      rfl

end Tracer

/-- The first so many of some events and one more. -/
theorem Event.take_concat (n : Nat) (es : List Event) (e : Event) :
    (es ++ [e]).take n = es.take n ++ if es.length < n then [e] else [] := by
  -- the last event is among the first `n` if there are fewer than `n` before it
  rw [List.take_append]
  by_cases hroom : es.length < n
  · obtain ⟨m, hm⟩ : ∃ m, n - es.length = m + 1 := ⟨n - es.length - 1, by omega⟩
    rw [if_pos hroom, hm, List.take_succ_cons, List.take_nil]
  · rw [if_neg hroom, Nat.sub_eq_zero_of_le (Nat.le_of_not_lt hroom)]
    rfl

/-- **A tracer that keeps an event whenever there is room** keeps the first so many of any
events. -/
theorem Tracer.kept_eq_take {t : Tracer} {n : Nat}
    (h : ∀ es e, (t.hearAll es).1.keeps e = true ↔ es.length < n) (es : List Event) :
    t.kept es = es.take n := by
  induction es using List.reverseRecOn with
  | nil => exact List.take_nil.symm
  | append_singleton es e ih =>
    -- whether the last event is kept depends on the number of those before it only
    rw [kept_concat, ih, Event.take_concat]
    exact congrArg (es.take n ++ ·) (if_congr (h es e) rfl rfl)

/-! ### Where the tracers stand -/

/-- Whichever way a tracer counts, it has room as long as fewer events were heard than the limit. -/
theorem admits_min_iff {n k : Nat} : admits (some n) (min n k) = true ↔ k < n := by
  have hlt : admits (some n) (min n k) = true ↔ min n k < n := decide_eq_true_iff
  rw [hlt]
  omega

theorem admits_take_iff {n : Nat} {es : List Event} :
    admits (some n) (es.take n).toArray.size = true ↔ es.length < n := by
  rw [List.size_toArray, List.length_take]
  exact admits_min_iff

namespace Tracer

/-- **A recording** holds the first so many events. -/
theorem standing_recording (n : Nat) (es : List Event) :
    ((recording (.start (some n))).hearAll es).1 = recording ⟨some n, (es.take n).toArray⟩ := by
  induction es using List.reverseRecOn with
  | nil => rw [List.take_nil]; rfl
  | append_singleton es e ih =>
    rw [standing_concat, ih, Event.take_concat]
    change recording (Recording.hear _ e) = _
    rw [Recording.hear]
    by_cases hroom : es.length < n
    · rw [if_pos (admits_take_iff.2 hroom), if_pos hroom, List.push_toArray]
    · rw [if_neg (mt admits_take_iff.1 hroom), if_neg hroom, List.append_nil]

/-- **A log** has counted the events up to its limit. -/
theorem standing_log (n : Nat) (es : List Event) :
    ((log (.start (some n))).hearAll es).1 = log ⟨some n, min n es.length⟩ := by
  induction es using List.reverseRecOn with
  | nil => rw [List.length_nil, Nat.min_zero]; rfl
  | append_singleton es e ih =>
    rw [standing_concat, ih, List.length_append, List.length_singleton]
    change log (Log.hear _ e).1 = _
    rw [Log.hear]
    by_cases hroom : es.length < n
    · have hcount : min n es.length + 1 = min n (es.length + 1) := by omega
      rw [if_pos (admits_min_iff.2 hroom), hcount]
    · -- the limit is reached, and from there on the log does not count
      have hcount : min n es.length = min n (es.length + 1) := by omega
      rw [if_neg (mt admits_min_iff.1 hroom), ← hcount]

/-- **What a log prints for the next event**: its line, with the notice before it if this is the last
event that it prints for, and nothing when the limit is reached. -/
theorem printed_next (n : Nat) (es : List Event) (e : Event) :
    (((log (.start (some n))).hearAll es).1.hear e).2 =
      if es.length + 1 < n then Log.text [e.logLine]
      else if es.length + 1 = n then Log.text [Log.notice n, e.logLine]
      else "" := by
  rw [standing_log]
  change (Log.hear _ e).2 = _
  rw [Log.hear]
  by_cases hroom : es.length < n
  · -- the event is counted first, so the notice is due when this count is `n`
    have hcount : min n es.length + 1 = es.length + 1 := by omega
    rw [if_pos (admits_min_iff.2 hroom), hcount, Log.lines]
    by_cases hlast : es.length + 1 = n
    · rw [if_pos hlast, if_neg (Nat.not_lt_of_le (Nat.le_of_eq hlast.symm)), if_pos hlast]
    · rw [if_neg hlast, if_pos (Nat.lt_of_le_of_ne hroom hlast)]
  · have hover : ¬ es.length + 1 < n := by omega
    have hlast : ¬ es.length + 1 = n := by omega
    rw [if_neg (mt admits_min_iff.1 hroom), if_neg hover, if_neg hlast]

end Tracer

/-! ### What a log prints -/

/-- **The lines of a log with a limit**, one for each event as long as the limit is not reached. Just
before the line that reaches it there is the notice, and after this line there are no more. -/
inductive Log.Abridges (n : Nat) : List Event → List String → Prop
  | nothing (h : n = 0) (es : List Event) : Abridges n es []
  | all {es : List Event} (h : es.length < n) : Abridges n es (es.map Event.logLine)
  | cut {before : List Event} (h : before.length + 1 = n) (e : Event) (after : List Event) :
      Abridges n (before ++ e :: after)
        (before.map Event.logLine ++ [Log.notice n, e.logLine])

/-- What is written after the first part of a text does not change how it begins. -/
theorem Text.head?_append {l : String} {c : Char} (h : l.toList.head? = some c) (rest : String) :
    (l ++ rest).toList.head? = some c := by
  rw [String.toList_append, List.head?_append, h]
  rfl

theorem Log.head?_notice (n : Nat) : (notice n).toList.head? = some '-' :=
  Text.head?_append (Text.head?_append rfl (Text.count n)) " events) ---"

theorem Event.head?_logLine (e : Event) : e.logLine.toList.head? = some ' ' := by
  cases e with
  | made name cells defaults =>
    rw [logLine]
    split <;> simp only [String.append_assoc] <;> exact Text.head?_append rfl _
  | _ =>
    simp only [logLine, String.append_assoc]
    exact Text.head?_append rfl _

/-- The line of an event is no notice, since it is indented. -/
theorem Event.logLine_ne_notice (e : Event) (n : Nat) : e.logLine ≠ Log.notice n := by
  intro heq
  have hhead := e.head?_logLine
  rw [heq, Log.head?_notice] at hhead
  exact absurd (Option.some.inj hhead) (by decide)

namespace Log

theorem text_append (ls ls' : List String) : text (ls ++ ls') = text ls ++ text ls' := by
  rw [text, text, text, List.map_append, String.join_append]

/-- Whatever lines there are, the end of the first one is printed. -/
theorem text_cons_ne_empty (l : String) (ls : List String) : text (l :: ls) ≠ "" := by
  intro h
  have hlength := congrArg String.length h
  simp [text] at hlength

/-- There is one notice at most. -/
theorem Abridges.count_notice_le {n : Nat} {es : List Event} {ls : List String}
    (h : Abridges n es ls) : ls.count (notice n) ≤ 1 := by
  have hlines (es : List Event) : (es.map Event.logLine).count (notice n) = 0 := by
    rw [List.count_eq_zero]
    intro hmem
    obtain ⟨e, -, he⟩ := List.mem_map.1 hmem
    exact e.logLine_ne_notice n he
  cases h with
  | nothing => exact Nat.zero_le 1
  | all => exact Nat.le_trans (Nat.le_of_eq (hlines _)) (Nat.zero_le 1)
  | @cut before _ e after =>
    -- the one notice is that in the middle
    rw [List.count_append, hlines, List.count_cons_self, List.count_cons_of_ne]
    · exact Nat.le_refl 1
    · exact e.logLine_ne_notice n

end Log

namespace Tracer

/-- **A log prints an abridgement** of any events. -/
theorem exists_abridges (n : Nat) (es : List Event) :
    ∃ ls, Log.Abridges n es ls ∧ ((log (.start (some n))).hearAll es).2 = Log.text ls := by
  induction es using List.reverseRecOn with
  | nil =>
    rcases Nat.eq_zero_or_pos n with hzero | hpos
    · exact ⟨[], .nothing hzero [], rfl⟩
    · exact ⟨[], .all hpos, rfl⟩
  | append_singleton es e ih =>
    obtain ⟨ls, habridges, hprinted⟩ := ih
    rw [printed_concat, hprinted, printed_next]
    cases habridges with
    | nothing hzero =>
      -- with the limit zero there is neither a line nor a notice
      refine ⟨[], .nothing hzero _, ?_⟩
      rw [if_neg (by omega), if_neg (by omega)]
      rfl
    | all hroom =>
      by_cases hlast : es.length + 1 = n
      · -- the limit is reached with this event
        refine ⟨_, .cut hlast e [], ?_⟩
        rw [if_neg (by omega), if_pos hlast, Log.text_append]
      · have hmore : es.length + 1 < n := Nat.lt_of_le_of_ne hroom hlast
        have hlength : (es ++ [e]).length < n := by
          rw [List.length_append]
          exact hmore
        refine ⟨_, .all hlength, ?_⟩
        rw [if_pos hmore, List.map_append, Log.text_append]
        rfl
    | @cut before hlast e' after =>
      -- it was reached before, so nothing is added
      have hlength : n ≤ (before ++ e' :: after).length := by
        rw [List.length_append, List.length_cons]
        omega
      refine ⟨before.map Event.logLine ++ [Log.notice n, e'.logLine], ?_, ?_⟩
      · rw [List.append_assoc, List.cons_append]
        exact .cut hlast e' (after ++ [e])
      · rw [if_neg (by omega), if_neg (by omega), String.append_empty]

theorem keeps_recording (n : Nat) (es : List Event) (e : Event) :
    ((recording (.start (some n))).hearAll es).1.keeps e = true ↔ es.length < n := by
  rw [standing_recording, keeps, decide_eq_true_iff, Recording.hear]
  by_cases hroom : es.length < n
  · rw [if_pos (admits_take_iff.2 hroom), Array.size_push]
    exact ⟨fun _ => hroom, fun _ => Nat.lt_succ_self _⟩
  · rw [if_neg (mt admits_take_iff.1 hroom)]
    exact ⟨fun h => absurd h (Nat.lt_irrefl _), fun h => absurd h hroom⟩

theorem keeps_log (n : Nat) (es : List Event) (e : Event) :
    ((log (.start (some n))).hearAll es).1.keeps e = true ↔ es.length < n := by
  have hprinted := printed_next n es e
  rw [standing_log] at hprinted ⊢
  rw [keeps, bne_iff_ne]
  change (Log.hear _ e).2 = _ at hprinted
  rw [hprinted]
  -- a line is printed for an event exactly if it is counted
  constructor
  · intro hne
    by_contra hover
    exact hne (by rw [if_neg (by omega), if_neg (by omega)])
  · intro hroom
    by_cases hlast : es.length + 1 = n
    · rw [if_neg (by omega), if_pos hlast]
      exact Log.text_cons_ne_empty _ _
    · rw [if_pos (Nat.lt_of_le_of_ne hroom hlast)]
      exact Log.text_cons_ne_empty _ _

/-! ### The result -/

/-- **A limit cuts off what comes after it, and does nothing else.** Of any events one after the other,
a recording with a limit holds the first so many. A log with this limit prints their lines, and the
notice once at most: just before the last of these lines if the limit is reached, and never if it is
not or if the limit is zero. So the two keep the same events, and with a greater limit they keep
these and perhaps some more after them. -/
theorem limits_truncate (n : Nat) (es : List Event) :
    ((recording (.start (some n))).hearAll es).1 = recording ⟨some n, (es.take n).toArray⟩ ∧
    (∃ ls, Log.Abridges n es ls ∧ ((log (.start (some n))).hearAll es).2 = Log.text ls ∧
      ls.count (Log.notice n) ≤ 1) ∧
    (recording (.start (some n))).kept es = es.take n ∧
    (log (.start (some n))).kept es = (recording (.start (some n))).kept es ∧
    ∀ m, n ≤ m →
      (recording (.start (some n))).kept es <+: (recording (.start (some m))).kept es ∧
      (log (.start (some n))).kept es <+: (log (.start (some m))).kept es := by
  have hrecording (n : Nat) : (recording (.start (some n))).kept es = es.take n :=
    kept_eq_take (keeps_recording n) es
  have hlog (n : Nat) : (log (.start (some n))).kept es = es.take n :=
    kept_eq_take (keeps_log n) es
  refine ⟨standing_recording n es, ?_, hrecording n, (hlog n).trans (hrecording n).symm, ?_⟩
  · obtain ⟨ls, habridges, hprinted⟩ := exists_abridges n es
    exact ⟨ls, habridges, hprinted, habridges.count_notice_le⟩
  · intro m hnm
    have hbegin : es.take n <+: es.take m := List.take_prefix_take_left hnm
    rw [hrecording, hrecording, hlog, hlog]
    exact ⟨hbegin, hbegin⟩

/-! ### Four events and a limit of two -/

section Cut

/-- A call and its end, a read and a refused write. -/
def fourEvents : List Event :=
  [.called "f" 1, .returned 0 true, .bound true, .attrSet "__name__" false]

/-- The third event is kept with the greater limit only, and the fourth one with neither. -/
theorem limits_truncate_fourEvents :
    2 ≤ 3 ∧ (recording (.start (some 3))).kept fourEvents =
        [.called "f" 1, .returned 0 true, .bound true] ∧
      (log (.start (some 2))).kept fourEvents = [.called "f" 1, .returned 0 true] ∧
      (log (.start (some 2))).kept fourEvents <+: (log (.start (some 3))).kept fourEvents ∧
      ((log (.start (some 2))).hearAll fourEvents).2 =
        "  >>> CALL f                    depth=1\n--- trace limit reached (2 events) ---\n" ++
        "  <<< RETURN ok                 depth=0\n" := by
  obtain ⟨-, -, htwo, hsame, hmore⟩ := limits_truncate 2 fourEvents
  obtain ⟨-, -, hthree, -, -⟩ := limits_truncate 3 fourEvents
  refine ⟨by decide, hthree, hsame.trans htwo, (hmore 3 (by decide)).2, ?_⟩
  decide +kernel

end Cut

end Tracer

end Callable
