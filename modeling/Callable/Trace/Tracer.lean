import Callable.Trace.Log
import Callable.Trace.Profile

/-!
# Tracers

A tracer hears the events of a monitor one after the other. There are four: one that ignores them, a
log, a profile, and a recording, which keeps the events themselves, the first so many of them if it
has a limit.

* `Tracer.hear` — the tracer after an event, and what it prints; only logs print.
* `Tracer.hearAll` — the same for a sequence of events.
-/

namespace Callable

/-- A recording of events in the order in which they were heard. -/
structure Recording where
  limit : Option Nat
  events : Array Event
  deriving DecidableEq

namespace Recording

/-- Nothing recorded yet. -/
def start (limit : Option Nat) : Recording := ⟨limit, #[]⟩

/-- The recording after an event. -/
def hear (r : Recording) (e : Event) : Recording :=
  if admits r.limit r.events.size then { r with events := r.events.push e } else r

end Recording

/-- One of the four tracers. -/
inductive Tracer where
  | silent
  | log (t : Log)
  | profile (p : Profile)
  | recording (r : Recording)

namespace Tracer

/-- The tracer after an event, and the text it prints. -/
def hear (t : Tracer) (e : Event) : Tracer × String :=
  match t with
  | silent => (silent, "")
  | log t => let (t, printed) := t.hear e; (log t, printed)
  | profile p => (profile (p.hear e), "")
  | recording r => (recording (r.hear e), "")

/-- The tracer after a sequence of events, and all the text it prints. -/
def hearAll (t : Tracer) : List Event → Tracer × String
  | [] => (t, "")
  | e :: es =>
    let (t, first) := t.hear e
    let (t, rest) := t.hearAll es
    (t, first ++ rest)

end Tracer

end Callable
