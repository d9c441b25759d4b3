import Callable.Table
import Callable.Trace.Event

/-!
# Profiles

A profile counts events and keeps none of them.

* `Profile.hear` — the profile after an event.
* `Profile.ranking` — the functions called, the most frequent first, and among equally frequent ones
  by name.
* `Profile.report` — the profile as a text.
-/

namespace Callable

/-- What has been counted. -/
structure Profile where
  /-- Calls by qualified name. -/
  calls : Table Nat
  totalCalls : Nat
  failedCalls : Nat
  maxDepth : Nat
  functionsMade : Nat
  closuresMade : Nat
  /-- Attribute writes and deletions that were refused. -/
  rejectedWrites : Nat
  boundMethods : Nat

namespace Profile

/-- Nothing counted yet. -/
def start : Profile := ⟨.empty, 0, 0, 0, 0, 0, 0, 0⟩

/-- One if it holds, to be added to a count. -/
def tally (b : Bool) : Nat := if b then 1 else 0

/-- The profile after an event. -/
def hear (p : Profile) : Event → Profile
  | .made _ cells _ =>
    { p with
      functionsMade := p.functionsMade + 1
      closuresMade := p.closuresMade + tally (0 < cells) }
  | .called name depth =>
    { p with
      calls := p.calls.insert name ((p.calls.get? name).getD 0 + 1)
      totalCalls := p.totalCalls + 1
      maxDepth := max p.maxDepth depth }
  | .returned _ ok => { p with failedCalls := p.failedCalls + tally !ok }
  | .attrSet _ ok | .attrDeleted _ ok => { p with rejectedWrites := p.rejectedWrites + tally !ok }
  | .bound method => { p with boundMethods := p.boundMethods + tally method }

/-- Does the first entry come before the second in a ranking? The greater count first, then the
smaller name. -/
def ranksBefore (a b : String × Nat) : Bool :=
  decide (b.2 < a.2) || (a.2 == b.2 && decide (a.1 ≤ b.1))

/-- The functions called, with their numbers of calls. -/
def ranking (p : Profile) : List (String × Nat) := p.calls.entries.mergeSort ranksBefore

/-- The line of one function in the report. -/
def rankingLine (e : String × Nat) : String :=
  "  " ++ Text.padRight 30 e.1 ++ " " ++ Text.padLeft 10 (Text.count e.2) ++ "\n"

/-- The profile as a text. -/
def report (p : Profile) : String :=
  "=== Function Profiling Report ===\n" ++
  "Functions made:     " ++ Text.count p.functionsMade ++ " (" ++ Text.count p.closuresMade ++
    " closures)\n" ++
  "Total calls:        " ++ Text.count p.totalCalls ++ "\n" ++
  "Failed calls:       " ++ Text.count p.failedCalls ++ "\n" ++
  "Max call depth:     " ++ Text.count p.maxDepth ++ "\n" ++
  "Bound methods:      " ++ Text.count p.boundMethods ++ "\n" ++
  "Rejected writes:    " ++ Text.count p.rejectedWrites ++ "\n" ++
  "\n--- Calls per Function ---\n" ++
  String.join (p.ranking.map rankingLine)

end Profile

end Callable
