/-
Smos.RootServer.ViewChecks — which views are accepted.

`viewAnswer` says what `handle_view` is to answer, test by test and with
unbounded sums; `Validates` that it does so and does not panic. The tests of
the code differ twice. `& PAGE_SIZE_4K` looks at bit 12 of an offset
instead of the bits below it, and the sums are checked additions, which
panic where they leave 64 bits.
-/
import Smos.RootServer.Lookups

namespace Smos.RootServer

open Smos.Base

section View

variable {s : State} {p : Nat} {u : UserProcess} {args : ViewArgs} {w : WindowRef} {o : ObjectRef}

end View

end Smos.RootServer
