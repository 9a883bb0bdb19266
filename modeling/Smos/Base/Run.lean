/-
Smos.Base.Run — runs of a labelled transition system under a guard.

`Run init next guard ls s` says that the labels `ls`, in order, lead from
an initial state to `s`, where every step `next s l` exists and satisfies
the guard in the state it is taken from. A property of all reachable
states is proved with `Run.invariant` from its initial states and one step.
-/
import Mathlib.Data.BitVec
import Mathlib.Tactic.Common

namespace Smos.Base

/-- `ls` leads from an initial state to the last argument. -/
inductive Run {σ l : Type} (init : σ → Prop) (next : σ → l → Option σ) (guard : σ → l → Prop) :
    List l → σ → Prop
  | init {s : σ} (h : init s) : Run init next guard [] s
  | step {ls : List l} {s s' : σ} {a : l} (run : Run init next guard ls s) (ok : guard s a)
    (hn : next s a = some s') : Run init next guard (ls ++ [a]) s'

namespace Run

variable {σ l : Type} {init : σ → Prop} {next : σ → l → Option σ} {guard : σ → l → Prop}

/-- What holds initially and is kept by every guarded step holds at the end of every run. -/
theorem invariant {I : σ → Prop} (h₀ : ∀ s, init s → I s)
    (hstep : ∀ s a s', I s → guard s a → next s a = some s' → I s') {ls : List l} {s : σ}
    (run : Run init next guard ls s) : I s := by
  induction run with
  | init h => exact h₀ _ h
  | step _ ok hn ih => exact hstep _ _ _ ih ok hn

/-- A run under a guard is a run under a weaker one. -/
theorem mono {guard' : σ → l → Prop} (h : ∀ s a, guard s a → guard' s a) {ls : List l} {s : σ}
    (run : Run init next guard ls s) : Run init next guard' ls s := by
  induction run with
  | init h₀ => exact .init h₀
  | step _ ok hn ih => exact .step ih (h _ _ ok) hn

/-- Take the steps of a list one after the other, as long as they exist. -/
def steps (next : σ → l → Option σ) : σ → List l → Option σ
  | s, [] => some s
  | s, a :: as => (next s a).bind fun s' => steps next s' as

/-- The guard holds at every step of the list that is taken. -/
def Guarded (next : σ → l → Option σ) (guard : σ → l → Prop) : σ → List l → Prop
  | _, [] => True
  | s, a :: as => guard s a ∧
    match next s a with
    | some s' => Guarded next guard s' as
    | none => True

instance decidableGuarded [∀ s a, Decidable (guard s a)] :
    ∀ (s : σ) (as : List l), Decidable (Guarded next guard s as)
  | _, [] => inferInstanceAs (Decidable True)
  | s, a :: as =>
    have : Decidable (match next s a with
        | some s' => Guarded next guard s' as
        | none => True) :=
      match next s a with
      | some s' => decidableGuarded s' as
      | none => inferInstanceAs (Decidable True)
    inferInstanceAs (Decidable (_ ∧ _))

/-- Without a guard there is nothing to check. -/
theorem guarded_true : ∀ (s : σ) (as : List l), Guarded next (fun _ _ => True) s as
  | _, [] => trivial
  | s, a :: as => by
      refine ⟨trivial, ?_⟩
      split
      · exact guarded_true _ as
      · trivial

/-- A computed sequence of guarded steps extends a run. -/
theorem append {as : List l} : ∀ {ls : List l} {s s' : σ}, Run init next guard ls s →
    Guarded next guard s as → steps next s as = some s' → Run init next guard (ls ++ as) s' := by
  induction as with
  | nil =>
    intro ls s s' run _ h
    cases h
    simpa using run
  | cons a as ih =>
    intro ls s s' run ⟨hok, hg⟩ h
    obtain ⟨s₁, h₁, h₂⟩ := Option.bind_eq_some_iff.mp h
    rw [h₁] at hg
    simpa using ih (run.step hok h₁) hg h₂

/-- Where the steps can be computed, so can a run and what holds at its end. -/
theorem exists_of_steps {as : List l} {s : σ} {P : σ → Prop} [DecidablePred P] (h₀ : init s)
    (hg : Guarded next guard s as) (h : (steps next s as).any (fun s' => decide (P s')) = true) :
    ∃ s', Run init next guard as s' ∧ P s' := by
  obtain ⟨s', hs, hp⟩ := (Option.any_eq_true _ _).mp h
  have start : Run init next guard [] s := .init h₀
  exact ⟨s', start.append hg hs, of_decide_eq_true hp⟩

end Run

end Smos.Base
