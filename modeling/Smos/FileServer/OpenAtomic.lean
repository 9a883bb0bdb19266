/-
Smos.FileServer.OpenAtomic — what a refused connection leaves behind.

`handle_conn_open` registers the client, allocates a window index, creates
the window and then the view of the shared buffer. Each failure takes back
what was made before it. One does not: the object is converted to a handle
capability inside the call of `view`, where the `?` of the conversion
returns past the closure that cleans up.

The outside is made concrete here: it counts the calls and keeps what the
root server and the window allocator have given out. Whether a call
succeeds, and the handle it answers, is an oracle of the call's number, and
a call that fails changes nothing. The allocator is only assumed to pick an
index from those it has given out.
-/
import Smos.FileServer.Handlers

namespace Smos.FileServer

open Smos.Base
open Smos.RootServer (InvocationError CapRights)

/-! ## The outside, call by call -/

/-- What has been given to the file server. -/
structure Outside where
  registrations : List Nat
  windows : List Nat
  views : List Nat
  allocated : List Nat
  calls : Nat
  deriving DecidableEq

/-- What the calls answer, by their number, and the index that the allocator picks. -/
structure Outcomes where
  connRegister : Nat → Except InvocationError Nat
  connDeregister : Nat → Except InvocationError Unit
  windowCreate : Nat → Except InvocationError Nat
  windowDestroy : Nat → Except InvocationError Unit
  view : Nat → Except InvocationError Nat
  unview : Nat → Except InvocationError Unit
  windowRegister : Nat → Except InvocationError Nat
  windowDeregister : Nat → Except InvocationError Unit
  pageMap : Nat → Except InvocationError Unit
  pick : List Nat → Option Nat

namespace Outside

/-- The next call has been made. -/
def called (r : Outside) : Outside := { r with calls := r.calls + 1 }

/-- Make a call, which acts with its answer when it succeeds. -/
def ask {α : Type} (answers : Nat → Except InvocationError α) (act : α → Outside → Outside) :
    Call Outside α := fun r =>
  match answers r.calls with
  | .ok a => .ok a (act a r.called)
  | .error e => .err e r.called

def addRegistration (h : Nat) (r : Outside) : Outside :=
  { r with registrations := h :: r.registrations }

def eraseRegistration (h : Nat) (r : Outside) : Outside :=
  { r with registrations := r.registrations.erase h }

def addWindow (h : Nat) (r : Outside) : Outside := { r with windows := h :: r.windows }

def eraseWindow (h : Nat) (r : Outside) : Outside := { r with windows := r.windows.erase h }

def addView (h : Nat) (r : Outside) : Outside := { r with views := h :: r.views }

def eraseView (h : Nat) (r : Outside) : Outside := { r with views := r.views.erase h }

/-- Everything but the number of calls is the same. -/
structure Same (r r' : Outside) : Prop where
  registrations : r'.registrations = r.registrations
  windows : r'.windows = r.windows
  views : r'.views = r.views
  allocated : r'.allocated = r.allocated

end Outside

open Outside

/-- The outside with the given outcomes. -/
def Outcomes.env (o : Outcomes) : Env Outside where
  connRegister _ := ask o.connRegister addRegistration
  connDeregister h := ask o.connDeregister fun _ => eraseRegistration h
  windowCreate _ _ := ask o.windowCreate addWindow
  windowDestroy h := ask o.windowDestroy fun _ => eraseWindow h
  view _ _ _ _ _ _ := ask o.view addView
  unview h := ask o.unview fun _ => eraseView h
  windowRegister _ _ _ := ask o.windowRegister fun _ => id
  windowDeregister _ := ask o.windowDeregister fun _ => id
  pageMap _ _ _ := ask o.pageMap fun _ => id
  allocate r :=
    match o.pick r.allocated with
    | some i => (some i, { r with allocated := i :: r.allocated })
    | none => (none, r)
  free i r := { r with allocated := r.allocated.erase i }

/-! ## The property -/

section Calls

variable {α : Type} {Q : α → State Outside → Prop} {E : InvocationError → State Outside → Prop}
  {P : FsPanic → Prop} {s : State Outside}

theorem wp_ask {answers : Nat → Except InvocationError α} {act : α → Outside → Outside} :
    (call (ask answers act) : Handler Outside α).wp Q E P s ↔
      (∀ a, answers s.root.calls = .ok a → Q a { s with root := act a s.root.called }) ∧
        ∀ e, answers s.root.calls = .error e → E e { s with root := s.root.called } := by
  unfold Prog.wp call ask
  cases answers s.root.calls <;> simp

end Calls

/-- What the failing conversion leaves. -/
structure Left (s s' : State Outside) : Prop where
  registration : ∃ h, s'.root.registrations = h :: s.root.registrations
  allocation : ∃ i, s'.root.allocated = i :: s.root.allocated
  window : ∃ w, s'.root.windows = w :: s.root.windows

end Smos.FileServer
