/-
Smos.Base.Prog — programs that read and write a state, may return an
error value, and may panic.

A Rust function `fn f(&mut self, …) -> Result<A, E>` is a
`Prog π σ E A`: from a state it either returns a value, returns an
error (both keep the state reached so far, nothing is rolled back), or
panics. A panic ends the program and keeps no state; `π` names where it
came from. A function that cannot return an error takes the error type
of its caller.

`catchErr` is `map_err` with a closure that still touches the state,
`expect` turns an error into a panic, and `zoom` runs a program on a
component of a larger state.

`Same` compares a program that only reads with itself on two states, and
`Erases` a program with one on a smaller state.

The second half is the reasoning the models use: the weakest precondition
`wp` with a postcondition for each of the three ways to end, one equation
for each combinator, the rule of consequence, and the loop rule. A
specification of a program is a `wp` for every starting state; `wp_of_spec`
uses it inside a larger one.
-/
import Mathlib.Data.BitVec
import Mathlib.Logic.Basic
import Mathlib.Tactic.Common

namespace Smos.Base

/-- How a program ends. -/
inductive Outcome (π σ ε α : Type) where
  | ok (a : α) (s : σ)
  | err (e : ε) (s : σ)
  | panic (p : π)

namespace Outcome

variable {π σ ε α : Type}

/-- The returned value and the state, if the program returned one. -/
def toOption : Outcome π σ ε α → Option (α × σ)
  | .ok a s => some (a, s)
  | _ => none

/-- The returned error and the state, if the program returned one. -/
def toError : Outcome π σ ε α → Option (ε × σ)
  | .err e s => some (e, s)
  | _ => none

/-- The panic, if the program panicked. -/
def toPanic : Outcome π σ ε α → Option π
  | .panic p => some p
  | _ => none

/-- The same end, seen in another state. -/
def mapState {τ : Type} (f : σ → τ) : Outcome π σ ε α → Outcome π τ ε α
  | .ok a s => .ok a (f s)
  | .err e s => .err e (f s)
  | .panic p => .panic p

theorem toOption_eq_some {o : Outcome π σ ε α} {a : α} {s : σ} :
    o.toOption = some (a, s) ↔ o = .ok a s := by
  cases o <;> simp [toOption]

theorem toError_eq_some {o : Outcome π σ ε α} {e : ε} {s : σ} :
    o.toError = some (e, s) ↔ o = .err e s := by
  cases o <;> simp [toError]

theorem toPanic_eq_some {o : Outcome π σ ε α} {p : π} : o.toPanic = some p ↔ o = .panic p := by
  cases o <;> simp [toPanic]

end Outcome

/-- A program over the state `σ`. -/
def Prog (π σ ε α : Type) : Type := σ → Outcome π σ ε α

namespace Prog

variable {π σ τ ε ε' α β : Type}

protected def pure (a : α) : Prog π σ ε α := fun s => .ok a s

/-- Sequencing: an error or a panic of the first program ends the whole. -/
protected def bind (m : Prog π σ ε α) (f : α → Prog π σ ε β) : Prog π σ ε β :=
  fun s =>
    match m s with
    | .ok a s' => f a s'
    | .err e s' => .err e s'
    | .panic p => .panic p

instance : Monad (Prog π σ ε) where
  pure := Prog.pure
  bind := Prog.bind

/-- `return Err(e)`. -/
def fail (e : ε) : Prog π σ ε α := fun s => .err e s

def panic (p : π) : Prog π σ ε α := fun _ => .panic p

def get : Prog π σ ε σ := fun s => .ok s s

/-- Read a component of the state. -/
def gets (f : σ → α) : Prog π σ ε α := fun s => .ok (f s) s

def modify (f : σ → σ) : Prog π σ ε Unit := fun s => .ok () (f s)

/-- `map_err` with a closure that may clean up before it answers. -/
def catchErr (m : Prog π σ ε α) (h : ε → Prog π σ ε' α) : Prog π σ ε' α :=
  fun s =>
    match m s with
    | .ok a s' => .ok a s'
    | .err e s' => h e s'
    | .panic p => .panic p

/-- Keep the `Result` as a value. -/
def attempt (m : Prog π σ ε α) : Prog π σ ε' (Except ε α) :=
  fun s =>
    match m s with
    | .ok a s' => .ok (.ok a) s'
    | .err e s' => .ok (.error e) s'
    | .panic p => .panic p

/-- A pure call that may fail and leaves the state alone when it does. -/
def ofExcept (f : σ → Except ε σ) : Prog π σ ε Unit :=
  fun s =>
    match f s with
    | .ok s' => .ok () s'
    | .error e => .err e s

/-- `expect`: an error becomes a panic. -/
def expect (p : π) (m : Prog π σ ε α) : Prog π σ ε' α :=
  m.catchErr fun _ => panic p

/-- `Option::ok_or`. -/
def okOr (e : ε) : Option α → Prog π σ ε α
  | some a => Prog.pure a
  | none => fail e

/-- `Option::unwrap` and `Option::expect`. -/
def unwrap (p : π) : Option α → Prog π σ ε α
  | some a => Prog.pure a
  | none => panic p

/-- `assert!`. -/
def assert (p : π) (c : Bool) : Prog π σ ε Unit :=
  if c then Prog.pure () else panic p

/-- Run a program on a component of the state. -/
def zoom (proj : τ → σ) (put : τ → σ → τ) (m : Prog π σ ε α) : Prog π τ ε α :=
  fun t =>
    match m (proj t) with
    | .ok a s => .ok a (put t s)
    | .err e s => .err e (put t s)
    | .panic p => .panic p

/-- `for x in xs { body }`. -/
def forEach (f : β → Prog π σ ε Unit) : List β → Prog π σ ε Unit
  | [] => Prog.pure ()
  | x :: xs => Prog.bind (f x) fun _ => forEach f xs

theorem bind_ok {m : Prog π σ ε α} {f : α → Prog π σ ε β} {s s' : σ}
    {b : β} (h : (m >>= f) s = .ok b s') : ∃ a s₁, m s = .ok a s₁ ∧ f a s₁ = .ok b s' := by
  change Prog.bind m f s = _ at h
  unfold Prog.bind at h
  cases hm : m s with
  | ok a s₁ => exact ⟨a, s₁, rfl, by rwa [hm] at h⟩
  | err e s₁ => rw [hm] at h; cases h
  | panic p => rw [hm] at h; cases h

/-- A run of the first program, then the rest. -/
theorem bind_of_ok {m : Prog π σ ε α} {f : α → Prog π σ ε β} {s s₁ : σ}
    {a : α} (h : m s = .ok a s₁) : (m >>= f) s = f a s₁ := by
  show Prog.bind m f s = _
  rw [Prog.bind, h]

theorem gets_bind (g : σ → α) (f : α → Prog π σ ε β) (s : σ) : (gets g >>= f) s = f (g s) s := rfl

theorem bind_of_err {m : Prog π σ ε α} {f : α → Prog π σ ε β} {s s₁ : σ} {e : ε}
    (h : m s = .err e s₁) : (m >>= f) s = .err e s₁ := by
  show Prog.bind m f s = _
  rw [Prog.bind, h]

theorem catchErr_of_err {m : Prog π σ ε' α} {h : ε' → Prog π σ ε α} {s s₁ : σ} {e : ε'}
    (hm : m s = .err e s₁) : m.catchErr h s = h e s₁ := by
  rw [catchErr, hm]

theorem bind_of_panic {m : Prog π σ ε α} {f : α → Prog π σ ε β} {s : σ} {p : π}
    (h : m s = .panic p) : (m >>= f) s = .panic p := by
  show Prog.bind m f s = _
  rw [Prog.bind, h]

theorem bind_assoc {γ : Type} (m : Prog π σ ε α) (f : α → Prog π σ ε β) (g : β → Prog π σ ε γ) :
    m >>= f >>= g = m >>= fun a => f a >>= g := by
  funext s
  show Prog.bind (Prog.bind m f) g s = Prog.bind m (fun a => Prog.bind (f a) g) s
  simp only [Prog.bind]
  cases m s <;> rfl

theorem bind_unit (m : Prog π σ ε Unit) : (m >>= fun _ => pure ()) = m := by
  funext s
  show Prog.bind m (fun _ => Prog.pure ()) s = m s
  unfold Prog.bind
  cases m s <;> rfl

theorem forEach_append (f : β → Prog π σ ε Unit) : ∀ xs ys : List β,
    forEach f (xs ++ ys) = Prog.bind (forEach f xs) fun _ => forEach f ys
  | [], ys => by
      funext s
      rfl
  | x :: xs, ys => by
      funext s
      simp only [List.cons_append, forEach, Prog.bind, forEach_append f xs ys]
      cases f x s <;> rfl

/-- A loop over blocks is a loop over what is in them. -/
theorem forEach_flatMap {γ : Type} (f : β → Prog π σ ε Unit) (g : γ → List β) :
    ∀ xs : List γ, forEach (fun x => forEach f (g x)) xs = forEach f (xs.flatMap g)
  | [] => rfl
  | x :: xs => by
      rw [List.flatMap_cons, forEach_append, ← forEach_flatMap f g xs]
      rfl

/-! ## Weakest preconditions -/

/-- What must hold of the starting state: a returned value satisfies `Q`,
a returned error `E`, and a panic `P`. -/
def wp (m : Prog π σ ε α) (Q : α → σ → Prop) (E : ε → σ → Prop) (P : π → Prop) (s : σ) :
    Prop :=
  match m s with
  | .ok a s' => Q a s'
  | .err e s' => E e s'
  | .panic p => P p

section Rules

variable {Q : α → σ → Prop} {E : ε → σ → Prop} {P : π → Prop} {s : σ}

theorem wp_ok {m : Prog π σ ε α} {a : α} {s' : σ} (h : wp m Q E P s) (hm : m s = .ok a s') :
    Q a s' := by
  unfold wp at h
  rwa [hm] at h

theorem wp_err {m : Prog π σ ε α} {e : ε} {s' : σ} (h : wp m Q E P s)
    (hm : m s = .err e s') : E e s' := by
  unfold wp at h
  rwa [hm] at h

theorem wp_panic_of {m : Prog π σ ε α} {p : π} (h : wp m Q E P s) (hm : m s = .panic p) :
    P p := by
  unfold wp at h
  rwa [hm] at h

theorem wp_of_ok {m : Prog π σ ε α} {a : α} {s' : σ} (h : m s = .ok a s') :
    wp m Q E P s ↔ Q a s' := by
  unfold wp
  rw [h]

theorem wp_of_err {m : Prog π σ ε α} {e : ε} {s' : σ} (h : m s = .err e s') :
    wp m Q E P s ↔ E e s' := by
  unfold wp
  rw [h]

/-- A run that can neither fail nor panic returns. -/
theorem exists_ok {m : Prog π σ ε α} (h : wp m Q (fun _ _ => False) (fun _ => False) s) :
    ∃ a s', m s = .ok a s' ∧ Q a s' := by
  unfold wp at h
  cases hm : m s with
  | ok a s' => rw [hm] at h; exact ⟨a, s', rfl, h⟩
  | err e s' => rw [hm] at h; exact h.elim
  | panic p => rw [hm] at h; exact h.elim

theorem eq_ok_of_wp {m : Prog π σ ε α} {a : α} {s' : σ}
    (h : wp m (fun a' t => a' = a ∧ t = s') (fun _ _ => False) (fun _ => False) s) :
    m s = .ok a s' := by
  obtain ⟨_, _, hm, rfl, rfl⟩ := exists_ok h
  exact hm

/-- A run that can neither return nor panic returns an error. -/
theorem exists_err {m : Prog π σ ε α} (h : wp m (fun _ _ => False) E (fun _ => False) s) :
    ∃ e s', m s = .err e s' ∧ E e s' := by
  unfold wp at h
  cases hm : m s with
  | ok a s' => rw [hm] at h; exact h.elim
  | err e s' => rw [hm] at h; exact ⟨e, s', rfl, h⟩
  | panic p => rw [hm] at h; exact h.elim

/-- A run that can neither return nor answer an error panics. -/
theorem exists_panic {m : Prog π σ ε α} {P : π → Prop}
    (h : wp m (fun _ _ => False) (fun _ _ => False) P s) : ∃ p, m s = .panic p ∧ P p := by
  unfold wp at h
  cases hm : m s with
  | ok a s' => rw [hm] at h; exact h.elim
  | err e s' => rw [hm] at h; exact h.elim
  | panic p => rw [hm] at h; exact ⟨p, rfl, h⟩

/-- The rule of consequence. -/
theorem wp_mono {m : Prog π σ ε α} {Q' : α → σ → Prop} {E' : ε → σ → Prop} {P' : π → Prop}
    (h : wp m Q' E' P' s) (hQ : ∀ a s', Q' a s' → Q a s') (hE : ∀ e s', E' e s' → E e s')
    (hP : ∀ p, P' p → P p) : wp m Q E P s := by
  unfold wp at h ⊢
  cases hm : m s with
  | ok a s' => rw [hm] at h; exact hQ a s' h
  | err e s' => rw [hm] at h; exact hE e s' h
  | panic p => rw [hm] at h; exact hP p h

/-- Two specifications of one program hold together. -/
theorem wp_and {m : Prog π σ ε α} {Q' : α → σ → Prop} {E' : ε → σ → Prop} {P' : π → Prop}
    (h : wp m Q E P s) (h' : wp m Q' E' P' s) :
    wp m (fun a s' => Q a s' ∧ Q' a s') (fun e s' => E e s' ∧ E' e s') (fun p => P p ∧ P' p) s := by
  unfold wp at h h' ⊢
  cases hm : m s with
  | ok a s' => rw [hm] at h h'; exact ⟨h, h'⟩
  | err e s' => rw [hm] at h h'; exact ⟨h, h'⟩
  | panic p => rw [hm] at h h'; exact ⟨h, h'⟩

/-- A returned value brings along the run it comes from. -/
theorem wp_run {m : Prog π σ ε α} (h : wp m Q E P s) :
    wp m (fun a s' => Q a s' ∧ m s = .ok a s') E P s := by
  unfold wp at h ⊢
  cases hm : m s with
  | ok a s' => rw [hm] at h; exact ⟨h, rfl⟩
  | err e s' => rw [hm] at h; exact h
  | panic p => rw [hm] at h; exact h

theorem wp_trivial {m : Prog π σ ε α} :
    wp m (fun _ _ => True) (fun _ _ => True) (fun _ => True) s := by
  unfold wp
  split <;> trivial

@[simp] theorem wp_pure {a : α} : wp (pure a : Prog π σ ε α) Q E P s ↔ Q a s := Iff.rfl

@[simp] theorem wp_prog_pure {a : α} : wp (Prog.pure a : Prog π σ ε α) Q E P s ↔ Q a s := Iff.rfl

@[simp] theorem wp_bind {m : Prog π σ ε β} {f : β → Prog π σ ε α} :
    wp (m >>= f) Q E P s ↔ wp m (fun b s' => wp (f b) Q E P s') E P s := by
  show wp (Prog.bind m f) Q E P s ↔ _
  unfold wp Prog.bind
  cases m s <;> rfl

@[simp] theorem wp_prog_bind {m : Prog π σ ε β} {f : β → Prog π σ ε α} :
    wp (Prog.bind m f) Q E P s ↔ wp m (fun b s' => wp (f b) Q E P s') E P s :=
  wp_bind

@[simp] theorem wp_fail {e : ε} : wp (fail e : Prog π σ ε α) Q E P s ↔ E e s := Iff.rfl

@[simp] theorem wp_panic {p : π} : wp (panic p : Prog π σ ε α) Q E P s ↔ P p := Iff.rfl

@[simp] theorem wp_get {Q : σ → σ → Prop} :
    wp (get : Prog π σ ε σ) Q E P s ↔ Q s s := Iff.rfl

@[simp] theorem wp_gets {f : σ → α} : wp (gets f : Prog π σ ε α) Q E P s ↔ Q (f s) s := Iff.rfl

@[simp] theorem wp_modify {f : σ → σ} {Q : Unit → σ → Prop} :
    wp (modify f : Prog π σ ε Unit) Q E P s ↔ Q () (f s) := Iff.rfl

@[simp] theorem wp_catchErr {m : Prog π σ ε' α} {h : ε' → Prog π σ ε α} :
    wp (m.catchErr h) Q E P s ↔ wp m Q (fun e s' => wp (h e) Q E P s') P s := by
  unfold wp catchErr
  cases m s <;> rfl

@[simp] theorem wp_expect {m : Prog π σ ε' α} {p : π} :
    wp (m.expect p) Q E P s ↔ wp m Q (fun _ _ => P p) P s := by
  unfold expect
  simp

@[simp] theorem wp_attempt {m : Prog π σ ε' α} {Q : Except ε' α → σ → Prop} :
    wp (m.attempt : Prog π σ ε (Except ε' α)) Q E P s ↔
      wp m (fun a => Q (.ok a)) (fun e => Q (.error e)) P s := by
  unfold wp attempt
  cases m s <;> rfl

@[simp] theorem wp_ofExcept {f : σ → Except ε σ} {Q : Unit → σ → Prop} :
    wp (ofExcept f : Prog π σ ε Unit) Q E P s ↔
      (∀ s', f s = .ok s' → Q () s') ∧ (∀ e, f s = .error e → E e s) := by
  unfold wp ofExcept
  cases f s <;> simp

@[simp] theorem wp_okOr {e : ε} {o : Option α} :
    wp (okOr e o : Prog π σ ε α) Q E P s ↔ (∀ a, o = some a → Q a s) ∧ (o = none → E e s) := by
  cases o <;> simp [okOr]

@[simp] theorem wp_unwrap {p : π} {o : Option α} :
    wp (unwrap p o : Prog π σ ε α) Q E P s ↔ (∀ a, o = some a → Q a s) ∧ (o = none → P p) := by
  cases o <;> simp [unwrap]

@[simp] theorem wp_assert {p : π} {c : Bool} {Q : Unit → σ → Prop} :
    wp (assert p c : Prog π σ ε Unit) Q E P s ↔ (c = true → Q () s) ∧ (c = false → P p) := by
  cases c <;> simp [assert]

@[simp] theorem wp_ite {c : Prop} [Decidable c] {m m' : Prog π σ ε α} :
    wp (if c then m else m') Q E P s ↔ (c → wp m Q E P s) ∧ (¬ c → wp m' Q E P s) := by
  split <;> simp_all

@[simp] theorem wp_zoom {proj : τ → σ} {put : τ → σ → τ} {m : Prog π σ ε α} {t : τ}
    {Q : α → τ → Prop} {E : ε → τ → Prop} :
    wp (zoom proj put m) Q E P t ↔
      wp m (fun a s' => Q a (put t s')) (fun e s' => E e (put t s')) P (proj t) := by
  unfold wp zoom
  cases m (proj t) <;> rfl

/-- The loop rule: what every turn keeps, the whole loop keeps. -/
theorem wp_forEach {I : σ → Prop} {f : β → Prog π σ ε Unit} {xs : List β} (hs : I s)
    (h : ∀ x ∈ xs, ∀ s, I s → wp (f x) (fun _ => I) E P s) :
    wp (forEach f xs) (fun _ => I) E P s := by
  induction xs generalizing s with
  | nil => exact hs
  | cons x xs ih =>
    simp only [forEach, wp_prog_bind]
    refine wp_mono (h x (List.mem_cons_self ..) s hs) ?_ (fun _ _ h => h) (fun _ h => h)
    intro _ s' hs'
    exact ih hs' fun y hy => h y (List.mem_cons_of_mem x hy)

/-- The loop rule for an invariant that knows which elements are left. -/
theorem wp_forEach_list {I : List β → σ → Prop} {f : β → Prog π σ ε Unit} :
    ∀ {xs : List β} {s : σ}, I xs s →
      (∀ x ys s, (x :: ys) <:+ xs → I (x :: ys) s → wp (f x) (fun _ => I ys) E P s) →
      wp (forEach f xs) (fun _ => I []) E P s
  | [], _, hs, _ => hs
  | x :: xs, s, hs, h => by
      simp only [forEach, wp_prog_bind]
      refine wp_mono (h x xs s (List.suffix_refl _) hs) ?_ (fun _ _ h => h) (fun _ h => h)
      intro _ s' hs'
      exact wp_forEach_list hs' fun y ys s₁ hy =>
        h y ys s₁ (hy.trans (List.suffix_cons x xs))

/-- The loop rule for a counting loop: the invariant knows the turns done. -/
theorem wp_forEach_range {I : Nat → σ → Prop} {f : Nat → Prog π σ ε Unit} :
    ∀ {n : Nat}, I 0 s →
      (∀ k < n, ∀ s, I k s → wp (f k) (fun _ => I (k + 1)) E P s) →
      wp (forEach f (List.range n)) (fun _ => I n) E P s
  | 0, hs, _ => hs
  | n + 1, hs, h => by
      rw [List.range_succ, forEach_append, wp_prog_bind]
      refine wp_mono (wp_forEach_range hs fun k hk => h k (Nat.lt_succ_of_lt hk)) ?_
        (fun _ _ h => h) (fun _ h => h)
      intro _ s' hs'
      simp only [forEach, wp_prog_bind]
      exact h n (Nat.lt_succ_self n) s' hs'

end Rules

/-! ## Programs that keep more than another -/

/-- The first program does what the second does, on a larger state. -/
def Erases (proj : τ → σ) (m : Prog π τ ε α) (m' : Prog π σ ε α) : Prop :=
  ∀ t, (m t).mapState proj = m' (proj t)

namespace Erases

variable {proj : τ → σ} {m : Prog π τ ε α} {m' : Prog π σ ε α}

theorem fail (e : ε) : Erases proj (Prog.fail e : Prog π τ ε α) (Prog.fail e) := fun _ => rfl

theorem gets (f : σ → α) :
    Erases proj (Prog.gets fun t => f (proj t) : Prog π τ ε α) (Prog.gets f) := fun _ => rfl

theorem zoom {put : τ → σ → τ} (h : ∀ t s, proj (put t s) = s) (m : Prog π σ ε α) :
    Erases proj (Prog.zoom proj put m) m := by
  intro t
  unfold Prog.zoom
  cases m (proj t) with
  | ok a s => exact congrArg (Outcome.ok a) (h t s)
  | err e s => exact congrArg (Outcome.err e) (h t s)
  | panic p => rfl

theorem bind {f : α → Prog π τ ε β} {f' : α → Prog π σ ε β} (hm : Erases proj m m')
    (hf : ∀ a, Erases proj (f a) (f' a)) : Erases proj (m >>= f) (m' >>= f') := by
  intro t
  show (Prog.bind m f t).mapState proj = Prog.bind m' f' (proj t)
  unfold Prog.bind
  rw [← hm t]
  cases m t with
  | ok a t' => exact hf a t'
  | err e t' => rfl
  | panic p => rfl

/-- A step that the second program does not see. -/
theorem skip {g : τ → τ} (hg : ∀ t, proj (g t) = proj t) (hm : Erases proj m m') :
    Erases proj (Prog.modify g >>= fun _ => m) m' := fun t => (hm (g t)).trans (congrArg m' (hg t))

theorem ite (c : Prop) [Decidable c] {m₁ : Prog π τ ε α} {m₁' : Prog π σ ε α}
    (h : Erases proj m m') (h₁ : Erases proj m₁ m₁') :
    Erases proj (if c then m else m₁) (if c then m' else m₁') := by
  split
  · exact h
  · exact h₁

/-- What holds of the second program holds of the first. -/
theorem wp_iff (h : Erases proj m m') {Q : α → σ → Prop} {E : ε → σ → Prop} {P : π → Prop}
    {t : τ} : m'.wp Q E P (proj t) ↔
      m.wp (fun a t' => Q a (proj t')) (fun e t' => E e (proj t')) P t := by
  unfold wp
  rw [← h t]
  cases m t <;> exact Iff.rfl

end Erases

/-! ## Two runs of one program -/

/-- The program ends in the same way from both states, and changes neither. -/
def Same (m : Prog π σ ε α) (s s' : σ) : Prop :=
  match m s, m s' with
  | .ok a t, .ok a' t' => a = a' ∧ t = s ∧ t' = s'
  | .err e t, .err e' t' => e = e' ∧ t = s ∧ t' = s'
  | .panic p, .panic p' => p = p'
  | _, _ => False

section TwoRuns

variable {s s' s'' : σ}

@[simp] theorem same_pure {a : α} : Same (pure a : Prog π σ ε α) s s' := ⟨rfl, rfl, rfl⟩

@[simp] theorem same_fail {e : ε} : Same (fail e : Prog π σ ε α) s s' := ⟨rfl, rfl, rfl⟩

@[simp] theorem same_panic {p : π} : Same (panic p : Prog π σ ε α) s s' := rfl

@[simp] theorem same_okOr {e : ε} {o : Option α} : Same (okOr e o : Prog π σ ε α) s s' := by
  cases o <;> exact ⟨rfl, rfl, rfl⟩

theorem same_gets {f : σ → α} (h : f s = f s') : Same (gets f : Prog π σ ε α) s s' :=
  ⟨h, rfl, rfl⟩

/-- Sequencing: the rest need only agree on what the first program can return. -/
theorem same_bind {m : Prog π σ ε α} {f : α → Prog π σ ε β} (hm : Same m s s')
    (hf : ∀ a, m s = .ok a s → Same (f a) s s') : Same (m >>= f) s s' := by
  show Same (Prog.bind m f) s s'
  unfold Same Prog.bind at *
  cases hs : m s <;> cases hs' : m s' <;> rw [hs, hs'] at hm
  case ok.ok a t a' t' =>
    obtain ⟨rfl, rfl, rfl⟩ := hm
    exact hf a hs
  case err.err => exact hm
  case panic.panic => exact hm
  all_goals exact hm.elim

theorem same_of_err {m : Prog π σ ε α} (e : ε) (h : m s = .err e s) (h' : m s' = .err e s') :
    Same m s s' := by
  unfold Same
  rw [h, h']
  exact ⟨rfl, rfl, rfl⟩

theorem same_ite {c : Prop} [Decidable c] {m m' : Prog π σ ε α} (h : c → Same m s s')
    (h' : ¬ c → Same m' s s') : Same (if c then m else m') s s' := by
  split
  · next hc => exact h hc
  · next hc => exact h' hc

theorem Same.ok {m : Prog π σ ε α} {a a' : α} {t t' : σ} (h : Same m s s') (hs : m s = .ok a t)
    (hs' : m s' = .ok a' t') : a = a' := by
  unfold Same at h
  rw [hs, hs'] at h
  exact h.1

/-- Two runs that end as a third one end alike. -/
theorem Same.left {m : Prog π σ ε α} (h : Same m s s') (h' : Same m s s'') : Same m s' s'' := by
  unfold Same at *
  cases hs : m s <;> cases hs' : m s' <;> cases hs'' : m s'' <;> rw [hs, hs'] at h <;>
    rw [hs, hs''] at h' <;> simp_all

end TwoRuns

end Prog

end Smos.Base
