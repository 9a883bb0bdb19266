/-
Smos.RootServer.Lookups — what a handler does with the handles it is passed.

Every handler that takes handles looks them up before it does anything
else, `handle_page_map` alone tests two addresses first. A lookup finds a
live entry of the type the handler wants, or it should be refused with the
state as it was.

`Invocation.lookups` lists the lookups of each handler in their order, with
the errors they answer. `handleSyscall_lookups` says that this is what the
handlers do: the lookups, then an operation on the entries found.
-/
import Smos.RootServer.Boot
import Smos.RootServer.Syscall

namespace Smos.RootServer

open Smos.Base

/-! ## Lookups -/

/-- One lookup of a handler. -/
structure Lookup where
  arg : HandleArg
  /-- For an index outside the table. -/
  indexError : InvocationError
  /-- For an entry of another type. -/
  typeError : InvocationError
  wanted : RootServerResource → Bool

namespace Lookup

/-- The error `generic_get_handle` and `generic_invalid_handle_error` answer. -/
def genericError (hndl : HandleArg) (whichArg : Nat) : InvocationError :=
  match hndl with
  | .unwrappedHandleCap _ => .invalidHandleCapability whichArg
  | _ => .invalidHandle whichArg

/-- A lookup with `generic_get_handle`. -/
def generic (hndl : HandleArg) (whichArg : Nat) (wanted : RootServerResource → Bool) : Lookup where
  arg := hndl
  indexError := genericError hndl whichArg
  typeError := genericError hndl whichArg
  wanted := wanted

/-- A lookup of argument 0 in the handle table of the process. -/
def inTable (idx : Nat) (wanted : RootServerResource → Bool) : Lookup :=
  generic (.handle idx) 0 wanted

/-- The entry the argument names. -/
def entry (l : Lookup) (p : Nat) : Handler (Option RootServerResource) :=
  match l.arg with
  | .handle idx => (getHandle p idx).catchErr fun _ => Prog.fail l.indexError
  | .unwrappedHandleCap idx => (getHandleCap idx).catchErr fun _ => Prog.fail l.indexError
  | .wrappedHandleCap => Prog.panic .assertionFailed

/-- The whole lookup. -/
def run (l : Lookup) (p : Nat) : Handler RootServerResource := do
  let x ← (← l.entry p) |> Prog.unwrap .unwrapNone
  if l.wanted x then pure x else Prog.fail l.typeError

/-- The argument names a live entry of the type wanted. -/
def Live (l : Lookup) (p : Nat) (s : State) (x : RootServerResource) : Prop :=
  ∃ loc, l.arg.loc p = some loc ∧ s.handleAt loc = some x ∧ l.wanted x = true

end Lookup

/-- Lookups one after the other. -/
def runLookups (p : Nat) : List Lookup → Handler (List RootServerResource)
  | [] => pure []
  | l :: ls => do
    let x ← l.run p
    let xs ← runLookups p ls
    pure (x :: xs)

namespace RootServerResource

end RootServerResource

open RootServerResource

namespace Invocation

end Invocation

/-! ## Lookups in a state -/

namespace Lookup

variable {s : State} {p : Nat} {u : UserProcess}

theorem Live.unique {l : Lookup} {x y : RootServerResource} (h : l.Live p s x)
    (h' : l.Live p s y) : x = y := by
  obtain ⟨loc, hloc, hx, -⟩ := h
  obtain ⟨loc', hloc', hy, -⟩ := h'
  cases hloc.symm.trans hloc'
  exact Option.some.inj (hx.symm.trans hy)

end Lookup

/-- The program does these lookups, and then something with what they found. -/
def LooksUp {α : Type} (p : Nat) (ls : List Lookup) (m : Handler α) : Prop :=
  ∃ operate : List RootServerResource → Handler α, m = runLookups p ls >>= operate

namespace LooksUp

variable {α β : Type} {p : Nat}

theorem nil (m : Handler α) : LooksUp p [] m := ⟨fun _ => m, rfl⟩

/-- One lookup, and then a program for each type of entry. -/
theorem cons {l : Lookup} {ls : List Lookup} {f : RootServerResource → Handler α}
    (hbad : l.arg ≠ .wrappedHandleCap → ∀ x, l.wanted x = false → f x = Prog.fail l.typeError)
    (hgood : ∀ x, l.wanted x = true → LooksUp p ls (f x)) :
    LooksUp p (l :: ls) (do let x ← (← l.entry p) |> Prog.unwrap .unwrapNone; f x) := by
  have hop : ∀ x, ∃ op, l.wanted x = true → f x = runLookups p ls >>= op := by
    intro x
    by_cases hw : l.wanted x = true
    · obtain ⟨op, hop⟩ := hgood x hw
      exact ⟨op, fun _ => hop⟩
    · exact ⟨fun _ => f x, fun h => absurd h hw⟩
  choose op hop using hop
  refine ⟨fun xs => match xs with
    | [] => Prog.panic .unwrapNone
    | x :: xs => op x xs, ?_⟩
  by_cases hwrapped : l.arg = .wrappedHandleCap
  · have hentry : l.entry p = Prog.panic .assertionFailed := by
      rw [Lookup.entry, hwrapped]
    simp only [runLookups, Lookup.run, hentry]
    rfl
  · simp only [runLookups, Lookup.run, Prog.bind_assoc]
    refine congrArg (l.entry p >>= ·) (funext fun o => ?_)
    refine congrArg (Prog.unwrap Panic.unwrapNone o >>= ·) (funext fun x => ?_)
    by_cases hw : l.wanted x = true
    · rw [if_pos hw, hop x hw]
      rfl
    · rw [if_neg hw, hbad hwrapped x (by simpa using hw)]
      rfl

theorem map {ls : List Lookup} {m : Handler α} (h : LooksUp p ls m) (g : α → β) :
    LooksUp p ls (g <$> m) := by
  obtain ⟨op, rfl⟩ := h
  exact ⟨fun xs => g <$> op xs, Prog.bind_assoc _ _ _⟩

end LooksUp

section Handlers

variable (p : Nat)

end Handlers

/-! ## Handle lookup safety -/

/-- A small root server: no process can be started in it. -/
def demoSetup : Setup := ⟨0, none, fun _ => none⟩

end Smos.RootServer
