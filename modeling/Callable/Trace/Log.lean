import Callable.Trace.Event

/-!
# Logs

A log prints one line for each event. With a limit it keeps to that many events: just before the
line of the last of them it prints a notice, and after it nothing more.

* `Log.hear` — the log after an event, and the text printed for it.
-/

namespace Callable

/-- Does a limit leave room for one more event after so many? -/
def admits (limit : Option Nat) (count : Nat) : Bool :=
  match limit with
  | some l => count < l
  | none => true

/-- A log, with the number of events printed so far. -/
structure Log where
  limit : Option Nat
  count : Nat
  deriving DecidableEq

namespace Log

/-- A log at its beginning. -/
def start (limit : Option Nat) : Log := ⟨limit, 0⟩

/-- The notice that announces the last event. -/
def notice (limit : Nat) : String :=
  "--- trace limit reached (" ++ Text.count limit ++ " events) ---"

/-- The lines printed for an event that is the `n`-th one. -/
def lines (limit : Option Nat) (n : Nat) (e : Event) : List String :=
  match limit with
  | some l => if n = l then [notice l, e.logLine] else [e.logLine]
  | none => [e.logLine]

/-- Lines of text, each with its end. -/
def text (ls : List String) : String := String.join (ls.map (· ++ "\n"))

/-- The log after an event, and what it prints. -/
def hear (t : Log) (e : Event) : Log × String :=
  if admits t.limit t.count then
    ({ t with count := t.count + 1 }, text (lines t.limit (t.count + 1) e))
  else (t, "")

end Log

end Callable
