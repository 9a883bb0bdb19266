/-
Smos.Base.Keeps — programs that keep an invariant, however they end.

`Keeps I Q m` says that from every state with `I` the program `m` ends in a
state with `I`, whether it returns or answers an error, and that a value it
returns satisfies `Q`. Nothing is said about panics. The rules follow the
combinators, so a proof that a long program keeps something is the list of
its steps; an intermediate value brings along what its program promised.

`Returns Q m` is the part about the value alone. `Gives P Q m` is the triple
for runs that return: from a state with `P` they end with a value and a
state that satisfy `Q`. What such a run does when it fails does not matter.
-/
import Smos.Base.Prog

namespace Smos.Base

namespace Prog

variable {π σ τ ε ε' α β : Type}

/-- Every returned value satisfies `Q`. -/
def Returns (Q : α → Prop) (m : Prog π σ ε α) : Prop :=
  ∀ s a s', m s = .ok a s' → Q a

/-- From a state with `P`, a run that returns ends with `Q`. -/
def Gives (P : σ → Prop) (Q : α → σ → Prop) (m : Prog π σ ε α) : Prop :=
  ∀ s a s', P s → m s = .ok a s' → Q a s'

/-- `I` is kept, and every returned value satisfies `Q`. -/
def Keeps (I : σ → Prop) (Q : α → Prop) (m : Prog π σ ε α) : Prop :=
  ∀ s, I s → m.wp (fun a s' => Q a ∧ I s') (fun _ s' => I s') (fun _ => True) s

namespace Returns

variable {Q : α → Prop}

theorem pure {a : α} (h : Q a) : Returns Q (Pure.pure a : Prog π σ ε α) := by
  rintro s b s' hb
  cases hb
  exact h

theorem fail (e : ε) : Returns Q (Prog.fail e : Prog π σ ε α) := fun _ _ _ h => nomatch h

theorem panic (p : π) : Returns Q (Prog.panic p : Prog π σ ε α) := fun _ _ _ h => nomatch h

/-- Only the last program returns. -/
theorem bind {m : Prog π σ ε β} {f : β → Prog π σ ε α} (h : ∀ b, Returns Q (f b)) :
    Returns Q (m >>= f) := by
  intro s a s' hm
  obtain ⟨b, s₁, -, hf⟩ := bind_ok hm
  exact h b s₁ a s' hf

theorem map {m : Prog π σ ε β} {f : β → α} (h : Returns (fun b => Q (f b)) m) :
    Returns Q (f <$> m) := by
  intro s a s' hm
  obtain ⟨b, s₁, hb, hf⟩ := bind_ok (m := m) (f := fun b => Pure.pure (f b)) hm
  cases hf
  exact h s b _ hb

/-- Only what can be returned matters to what comes next. -/
theorem bind_congr {m : Prog π σ ε α} {f g : α → Prog π σ ε β} (h : Returns Q m)
    (hfg : ∀ a, Q a → f a = g a) : m >>= f = m >>= g := by
  funext s
  show Prog.bind m f s = Prog.bind m g s
  unfold Prog.bind
  cases hm : m s with
  | ok a s' => exact congrFun (hfg a (h s a s' hm)) s'
  | err e s' => rfl
  | panic p => rfl

end Returns

namespace Keeps

variable {I : σ → Prop} {Q Q' : α → Prop}

/-- What a run that returns keeps. -/
theorem ok {m : Prog π σ ε α} {s s' : σ} {a : α} (h : Keeps I Q m) (hs : I s)
    (hm : m s = .ok a s') : Q a ∧ I s' := by
  have hwp := wp_ok (h s hs) hm
  exact hwp

theorem err {m : Prog π σ ε α} {s s' : σ} {e : ε} (h : Keeps I Q m) (hs : I s)
    (hm : m s = .err e s') : I s' := by
  have hwp := wp_err (h s hs) hm
  exact hwp

/-- A weaker condition on what is returned. -/
theorem mono {m : Prog π σ ε α} (h : Keeps I Q m) (hQ : ∀ a, Q a → Q' a) : Keeps I Q' m :=
  fun s hs => wp_mono (h s hs) (fun a _ ha => ⟨hQ a ha.1, ha.2⟩) (fun _ _ h => h) fun _ h => h

/-- The value does not matter. -/
theorem any {m : Prog π σ ε α} (h : Keeps I Q m) : Keeps I (fun _ => True) m :=
  h.mono fun _ _ => trivial

theorem pure {a : α} (h : Q a) : Keeps I Q (Pure.pure a : Prog π σ ε α) := fun _ hs => ⟨h, hs⟩

theorem prog_pure {a : α} (h : Q a) : Keeps I Q (Prog.pure a : Prog π σ ε α) :=
  fun _ hs => ⟨h, hs⟩

theorem fail (e : ε) : Keeps I Q (Prog.fail e : Prog π σ ε α) := fun _ hs => hs

theorem panic (p : π) : Keeps I Q (Prog.panic p : Prog π σ ε α) := fun _ _ => trivial

theorem gets {f : σ → α} (h : ∀ s, I s → Q (f s)) : Keeps I Q (Prog.gets f : Prog π σ ε α) :=
  fun s hs => ⟨h s hs, hs⟩

theorem gets_any {f : σ → α} : Keeps I (fun _ => True) (Prog.gets f : Prog π σ ε α) :=
  fun _ hs => ⟨trivial, hs⟩

/-- A step on the state that keeps `I`. -/
theorem modify {f : σ → σ} {Q : Unit → Prop} (hQ : Q ()) (h : ∀ s, I s → I (f s)) :
    Keeps I Q (Prog.modify f : Prog π σ ε Unit) := fun s hs => ⟨hQ, h s hs⟩

/-- What the first program returns may be used by the second. -/
theorem bind {m : Prog π σ ε β} {f : β → Prog π σ ε α} {R : β → Prop} (hm : Keeps I R m)
    (hf : ∀ b, R b → Keeps I Q (f b)) : Keeps I Q (m >>= f) := by
  intro s hs
  rw [wp_bind]
  exact wp_mono (hm s hs) (fun b s' hb => hf b hb.1 s' hb.2) (fun _ _ h => h) fun _ h => h

/-- The handler of an error starts where `I` holds. -/
theorem catchErr {m : Prog π σ ε' α} {h : ε' → Prog π σ ε α} (hm : Keeps I Q m)
    (hh : ∀ e, Keeps I Q (h e)) : Keeps I Q (m.catchErr h) := by
  intro s hs
  rw [wp_catchErr]
  exact wp_mono (hm s hs) (fun _ _ h => h) (fun e s' he => hh e s' he) fun _ h => h

theorem expect {m : Prog π σ ε' α} {p : π} (hm : Keeps I Q m) :
    Keeps I Q (m.expect p : Prog π σ ε α) := hm.catchErr fun _ => panic p

theorem attempt {m : Prog π σ ε' α} (hm : Keeps I Q m) :
    Keeps I (fun _ => True) (m.attempt : Prog π σ ε (Except ε' α)) := by
  intro s hs
  rw [wp_attempt]
  exact wp_mono (hm s hs) (fun _ _ h => ⟨trivial, h.2⟩) (fun _ _ h => ⟨trivial, h⟩) fun _ h => h

theorem ofExcept {f : σ → Except ε σ} (h : ∀ s s', I s → f s = .ok s' → I s') :
    Keeps I (fun _ => True) (Prog.ofExcept f : Prog π σ ε Unit) := by
  intro s hs
  rw [wp_ofExcept]
  exact ⟨fun s' hf => ⟨trivial, h s s' hs hf⟩, fun _ _ => hs⟩

theorem okOr {e : ε} {o : Option α} (h : ∀ a, o = some a → Q a) :
    Keeps I Q (Prog.okOr e o : Prog π σ ε α) := by
  cases o with
  | none => exact fail e
  | some a => exact prog_pure (h a rfl)

theorem unwrap {p : π} {o : Option α} (h : ∀ a, o = some a → Q a) :
    Keeps I Q (Prog.unwrap p o : Prog π σ ε α) := by
  cases o with
  | none => exact panic p
  | some a => exact prog_pure (h a rfl)

theorem assert {p : π} {c : Bool} : Keeps I (fun _ => True) (Prog.assert p c : Prog π σ ε Unit) := by
  cases c with
  | false => exact panic p
  | true => exact prog_pure trivial

theorem ite {c : Prop} [Decidable c] {m m' : Prog π σ ε α} (h : c → Keeps I Q m)
    (h' : ¬ c → Keeps I Q m') : Keeps I Q (if c then m else m') := by
  split
  · next hc => exact h hc
  · next hc => exact h' hc

theorem forEach {f : β → Prog π σ ε Unit} {xs : List β}
    (h : ∀ x ∈ xs, Keeps I (fun _ => True) (f x)) :
    Keeps I (fun _ => True) (Prog.forEach f xs) := by
  intro s hs
  refine wp_mono (wp_forEach (E := fun _ => I) (P := fun _ => True) hs fun x hx s hs => ?_)
    (fun _ _ h => ⟨trivial, h⟩) (fun _ _ h => h) fun _ h => h
  exact wp_mono (h x hx s hs) (fun _ _ h => h.2) (fun _ _ h => h) fun _ h => h

/-- On a component: what the component keeps, the whole keeps. -/
theorem zoom {proj : τ → σ} {put : τ → σ → τ} {m : Prog π σ ε α} {J : τ → Prop}
    (hm : Keeps I Q m) (hproj : ∀ t, J t → I (proj t)) (hput : ∀ t s, J t → I s → J (put t s)) :
    Keeps J Q (Prog.zoom proj put m) := by
  intro t ht
  rw [wp_zoom]
  exact wp_mono (hm _ (hproj t ht)) (fun _ s h => ⟨h.1, hput t s ht h.2⟩)
    (fun _ s h => hput t s ht h) fun _ h => h

end Keeps

namespace Gives

variable {P : σ → Prop} {Q : α → σ → Prop}

/-- An invariant is a condition before and after. -/
theorem of_keeps {I : σ → Prop} {R : α → Prop} {m : Prog π σ ε α} (h : Keeps I R m) :
    Gives I (fun a s => R a ∧ I s) m := fun _ _ _ hs hm => h.ok hs hm

/-- The value does not matter. -/
theorem kept {R : α → Prop} {m : Prog π σ ε α} (h : Keeps P R m) : Gives P (fun _ s => P s) m :=
  fun _ _ _ hs hm => (h.ok hs hm).2

theorem pure {a : α} (h : ∀ s, P s → Q a s) : Gives P Q (Pure.pure a : Prog π σ ε α) := by
  intro s b s' hs hb
  cases hb
  exact h s hs

theorem fail (e : ε) : Gives P Q (Prog.fail e : Prog π σ ε α) := fun _ _ _ _ h => nomatch h

theorem panic (p : π) : Gives P Q (Prog.panic p : Prog π σ ε α) := fun _ _ _ _ h => nomatch h

theorem bind {m : Prog π σ ε β} {f : β → Prog π σ ε α} {R : β → σ → Prop} (hm : Gives P R m)
    (hf : ∀ b, Gives (R b) Q (f b)) : Gives P Q (m >>= f) := by
  intro s a s' hs h
  obtain ⟨b, s₁, hb, hf'⟩ := bind_ok h
  exact hf b s₁ a s' (hm s b s₁ hs hb) hf'

/-- Fix the state that the program starts from. -/
theorem start {m : Prog π σ ε α} (h : ∀ s, P s → Gives (· = s) Q m) : Gives P Q m :=
  fun s a s' hs hm => h s hs s a s' rfl hm

/-- A stronger condition before. -/
theorem weaken {P' : σ → Prop} {m : Prog π σ ε α} (h : Gives P Q m) (hP : ∀ s, P' s → P s) :
    Gives P' Q m := fun s a s' hs hm => h s a s' (hP s hs) hm

/-- Go on from whatever the first program leaves. -/
theorem skip {m : Prog π σ ε β} {f : β → Prog π σ ε α}
    (hf : ∀ b, Gives (fun _ => True) Q (f b)) : Gives P Q (m >>= f) :=
  bind (R := fun _ _ => True) (fun _ _ _ _ _ => trivial) hf

/-- Go on after a program that keeps the precondition. -/
theorem next {m : Prog π σ ε β} {f : β → Prog π σ ε α} {R : β → Prop} (hm : Keeps P R m)
    (hf : ∀ b, R b → Gives P Q (f b)) : Gives P Q (m >>= f) :=
  bind (of_keeps hm) fun b s a s' h => hf b h.1 s a s' h.2

theorem ite {c : Prop} [Decidable c] {m m' : Prog π σ ε α} (h : Gives P Q m)
    (h' : Gives P Q m') : Gives P Q (if c then m else m') := by
  split
  · exact h
  · exact h'

/-- The clean-up after an error, which ends in an error too. -/
theorem catchErr {m : Prog π σ ε' α} {h : ε' → Prog π σ ε α} (hm : Gives P Q m)
    (hh : ∀ e, Gives (fun _ => True) Q (h e)) : Gives P Q (m.catchErr h) := by
  intro s a s' hs hr
  unfold Prog.catchErr at hr
  split at hr
  · next hok =>
    cases hr
    exact hm s a s' hs hok
  · exact hh _ _ a s' trivial hr
  · cases hr

theorem expect {m : Prog π σ ε' α} {p : π} (hm : Gives P Q m) :
    Gives P Q (m.expect p : Prog π σ ε α) := hm.catchErr fun _ => panic p

/-- On a component. -/
theorem zoom {proj : τ → σ} {put : τ → σ → τ} {m : Prog π σ ε α} {J : τ → Prop}
    {K : α → τ → Prop} (hm : Gives P Q m) (hproj : ∀ t, J t → P (proj t))
    (hput : ∀ t a s, Q a s → K a (put t s)) : Gives J K (Prog.zoom proj put m) := by
  intro t a t' ht hr
  unfold Prog.zoom at hr
  split at hr
  · next hok =>
    cases hr
    exact hput t a _ (hm _ _ _ (hproj t ht) hok)
  all_goals cases hr

end Gives

end Prog

end Smos.Base
