import Callable.Text.Column
import Callable.Text.Numeral

/-!
# Trace events

What a monitor reports of the operations it performs, in the order in which they happen.

* `Event` — the events.
* `Event.logLine` — the line that stands for an event in a log, a function of the event alone.
-/

namespace Callable

/-- One thing that happened. -/
inductive Event where
  /-- A function was made, with so many captured cells and default values. -/
  | made (name : String) (cells defaults : Nat)
  /-- A call began; `depth` counts the calls that were under way. -/
  | called (name : String) (depth : Nat)
  /-- A call ended; `depth` counts the calls that are still under way. -/
  | returned (depth : Nat) (ok : Bool)
  /-- An attribute was written, or the write was refused. -/
  | attrSet (name : String) (ok : Bool)
  /-- An attribute was deleted, or the deletion was refused. -/
  | attrDeleted (name : String) (ok : Bool)
  /-- A function was read through an instance, and became a bound method or stayed itself. -/
  | bound (method : Bool)
  deriving DecidableEq

namespace Event

/-- Whether a write was accepted, in words. -/
private def verdict (ok : Bool) : String := if ok then "ok" else "rejected"

/-- The log line of an event, without its end of line. -/
def logLine : Event → String
  | made name cells defaults =>
    if 0 < cells then
      "  +++ MAKE CLOSURE " ++ Text.padRight 14 name ++ " cells=" ++ Text.count cells ++
        " defaults=" ++ Text.count defaults
    else
      "  +++ MAKE FUNCTION " ++ Text.padRight 13 name ++ " defaults=" ++ Text.count defaults
  | called name depth =>
    "  >>> CALL " ++ Text.padRight 20 name ++ " depth=" ++ Text.count depth
  | returned depth ok =>
    "  <<< RETURN " ++ Text.padRight 18 (if ok then "ok" else "error") ++ " depth=" ++
      Text.count depth
  | attrSet name ok => "  ... SET " ++ name ++ " " ++ verdict ok
  | attrDeleted name ok => "  ... DEL " ++ name ++ " " ++ verdict ok
  | bound method => "  ... GET " ++ if method then "bound method" else "unbound function"

end Event

end Callable
