import Callable.Json.Printer
import Callable.Proofs.Function.Arity
import Callable.Proofs.Function.Independence
import Callable.Proofs.Json.Forms
import Callable.Proofs.Liveness.Weak
import Callable.Proofs.Printing.Plain
import Callable.Proofs.Run.Binding
import Callable.Proofs.Run.Entries
import Callable.Proofs.Run.Errors
import Callable.Proofs.Run.Forest
import Callable.Proofs.Run.Sharing
import Callable.Proofs.Run.Transparency
import Callable.Proofs.Trace.History
import Callable.Proofs.Trace.Limit
import Callable.Proofs.Trace.Ranking
import Callable.Proofs.Walk.Ending
