/-
Smos.Base.Acquire — programs that acquire things one after the other.

`held` reads off a state what a program holds there. `Atomic` asks that a
returned error leaves it as it was. A program that only ever acquires
`Grows` in some measure of it, so once the first thing is there, an error
of what follows cannot be atomic: `atomic_bind_acquired` turns atomicity
into `Succeeds`, and the equations for `Succeeds` follow the program.
-/
import Smos.Base.Prog

namespace Smos.Base.Prog

variable {π σ ε α β η : Type} {s s₁ : σ}

/-- A returned error leaves what is held as it was. -/
def Atomic (held : σ → η) (m : Prog π σ ε α) (s : σ) : Prop :=
  ∀ e s', m s = .err e s' → held s' = held s

/-- The program returns no error. -/
def Succeeds (m : Prog π σ ε α) (s : σ) : Prop := ∀ e s', m s ≠ .err e s'

/-- The program gives nothing back, in a measure of what is held. -/
def Grows (size : σ → Nat) (m : Prog π σ ε α) : Prop :=
  ∀ s, m.wp (fun _ s' => size s ≤ size s') (fun _ s' => size s ≤ size s') (fun _ => True) s

/-- Programs that end alike in a state still do with the same rest. -/
theorem bind_congr_at {m m' : Prog π σ ε α} {f : α → Prog π σ ε β} (h : m s = m' s) :
    (m >>= f) s = (m' >>= f) s := by
  show Prog.bind m f s = Prog.bind m' f s
  unfold Prog.bind
  rw [h]

theorem map_bind {γ : Type} (m : Prog π σ ε α) (g : α → β) (f : β → Prog π σ ε γ) :
    (g <$> m) >>= f = m >>= fun a => f (g a) :=
  bind_assoc m (fun a => pure (g a)) f

/-! ## Growth -/

namespace Grows

variable {size : σ → Nat} {m : Prog π σ ε α} {f : α → Prog π σ ε β}

theorem pure (a : α) : Grows size (pure a : Prog π σ ε α) := fun _ => Nat.le_refl _

theorem fail (e : ε) : Grows size (Prog.fail e : Prog π σ ε α) := fun _ => Nat.le_refl _

theorem panic (p : π) : Grows size (Prog.panic p : Prog π σ ε α) := fun _ => trivial

theorem bind (hm : Grows size m) (hf : ∀ a, Grows size (f a)) : Grows size (m >>= f) := by
  intro s
  refine wp_bind.mpr (wp_mono (hm s) ?_ (fun _ _ h => h) fun _ h => h)
  intro a s₁ h₁
  exact wp_mono (hf a s₁) (fun _ _ h => Nat.le_trans h₁ h) (fun _ _ h => Nat.le_trans h₁ h)
    fun _ h => h

theorem ite (c : Prop) [Decidable c] {m' : Prog π σ ε α} (hm : Grows size m)
    (hm' : Grows size m') : Grows size (if c then m else m') := by
  split
  · exact hm
  · exact hm'

theorem unwrap (p : π) : ∀ o : Option α, Grows size (Prog.unwrap p o : Prog π σ ε α)
  | some a => pure a
  | none => panic p

end Grows

/-! ## Success -/

section Succeeds

variable {m : Prog π σ ε α} {f : α → Prog π σ ε β}

@[simp] theorem succeeds_pure (a : α) : Succeeds (pure a : Prog π σ ε α) s := nofun

@[simp] theorem not_succeeds_fail (e : ε) : ¬ Succeeds (Prog.fail e : Prog π σ ε α) s :=
  fun h => h e s rfl

@[simp] theorem succeeds_panic (p : π) : Succeeds (Prog.panic p : Prog π σ ε α) s := nofun

/-- Unwrapping does not return an error. -/
theorem succeeds_unwrap_bind (p : π) (o : Option α) (hf : ∀ a, Succeeds (f a) s) :
    Succeeds (Prog.unwrap p o >>= f) s := by
  cases o with
  | some a => exact hf a
  | none => exact succeeds_panic p

theorem succeeds_bind_of_ok {a : α} (h : m s = .ok a s₁) :
    Succeeds (m >>= f) s ↔ Succeeds (f a) s₁ := by
  unfold Succeeds
  rw [bind_of_ok h]

theorem succeeds_bind_of_err {e : ε} (h : m s = .err e s₁) : ¬ Succeeds (m >>= f) s :=
  fun hs => hs e s₁ (bind_of_err h)

end Succeeds

/-! ## Atomicity -/

section Atomic

variable {held : σ → η} {m : Prog π σ ε α} {f : α → Prog π σ ε β}

theorem atomic_fail (e : ε) : Atomic held (Prog.fail e : Prog π σ ε α) s := by
  intro e' s' he
  cases he
  rfl

/-- A program that fails before it holds anything new. -/
theorem atomic_bind_of_err {e : ε} (h : m s = .err e s₁) (hs : held s₁ = held s) :
    Atomic held (m >>= f) s := by
  intro e' s' he
  rw [bind_of_err h] at he
  cases he
  exact hs

theorem atomic_bind_of_panic {p : π} (h : m s = .panic p) : Atomic held (m >>= f) s := by
  intro e s' he
  rw [bind_of_panic h] at he
  cases he

/-- A first step that acquires nothing. -/
theorem atomic_bind_kept {a : α} (h : m s = .ok a s₁) (hs : held s₁ = held s) :
    Atomic held (m >>= f) s ↔ Atomic held (f a) s₁ := by
  unfold Atomic
  rw [bind_of_ok h, hs]

/-- A first step that acquires something: what follows gives nothing back, so it may not fail. -/
theorem atomic_bind_acquired {size : η → Nat} {a : α} (h : m s = .ok a s₁)
    (hs : size (held s) < size (held s₁)) (hf : Grows (fun s => size (held s)) (f a)) :
    Atomic held (m >>= f) s ↔ Succeeds (f a) s₁ := by
  unfold Atomic Succeeds
  rw [bind_of_ok h]
  constructor
  · intro ha e s' he
    have hle : size (held s₁) ≤ size (held s') := wp_err (m := f a) (hf s₁) he
    rw [ha e s' he] at hle
    omega
  · intro hno e s' he
    exact absurd he (hno e s')

end Atomic

end Smos.Base.Prog
