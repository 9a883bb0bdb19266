/-
Smos.RootServer.Grow — what an allocation leaves alone.

`Grow r r'` says that `r'` came from `r` by making new things only: slots
that were allocated stay so and keep their capabilities, frames that
existed keep their bytes, user address spaces keep their mappings, and
every frame capability or mapping that is new is of an object that did
not exist in `r`. It is a preorder, and the allocators of
`Smos.RootServer.Resources` move along it on success and on failure.

The proofs fix the resources `r` a function starts from and show that each
primitive step keeps `Grow r`, where a step may touch a slot only if `r`
did not have it allocated.
-/
import Smos.RootServer.KernelSpecs
import Smos.RootServer.Resources

namespace Smos.RootServer

open Smos.Base

/-- `r'` has everything `r` has, unchanged. -/
structure Grow (r r' : Res) : Prop where
  allocated : ∀ c, r.cspace.Allocated c → r'.cspace.Allocated c
  caps : ∀ c, r.cspace.Allocated c → r'.kernel.caps c = r.kernel.caps c
  frames : ∀ c obj orig access m, r'.kernel.caps c = some (.frame obj orig access m) →
    r.kernel.caps c = some (.frame obj orig access m) ∨ r.kernel.nextObj ≤ obj
  nextObj : r.kernel.nextObj ≤ r'.kernel.nextObj
  mem : ∀ obj, obj < r.kernel.nextObj → r'.kernel.mem obj = r.kernel.mem obj
  pages : ∀ vs vaddr, vs ≠ rootVSpace → r'.kernel.pages vs vaddr = r.kernel.pages vs vaddr
  rootPages : ∀ vaddr e, r.kernel.pages rootVSpace vaddr = some e →
    r'.kernel.pages rootVSpace vaddr = some e
  newRootPages : ∀ vaddr e, r'.kernel.pages rootVSpace vaddr = some e →
    r.kernel.pages rootVSpace vaddr = some e ∨ r.kernel.nextObj ≤ e.obj
  waiting : r'.kernel.waiting = r.kernel.waiting
  userTop : r'.kernel.userTop = r.kernel.userTop
  log : ∃ evs, r'.kernel.log = r.kernel.log ++ evs ∧
    ∀ ev ∈ evs, ∃ slot vaddr e, ev = .map slot rootVSpace vaddr e

/-- The root server's address space is where it expects it. -/
structure Rooted (r : Res) : Prop where
  allocated : r.cspace.Allocated rootVSpaceSlot
  cap : r.kernel.caps rootVSpaceSlot = some (.vspace rootVSpace)

namespace Grow

variable {r r₁ r₂ : Res}

protected theorem refl (r : Res) : Grow r r where
  allocated _ h := h
  caps _ _ := rfl
  frames _ _ _ _ _ h := .inl h
  nextObj := Nat.le_refl _
  mem _ _ := rfl
  pages _ _ _ := rfl
  rootPages _ _ h := h
  newRootPages _ _ h := .inl h
  waiting := rfl
  userTop := rfl
  log := ⟨[], by simp, by simp⟩

protected theorem trans (h : Grow r r₁) (h' : Grow r₁ r₂) : Grow r r₂ where
  allocated c hc := h'.allocated c (h.allocated c hc)
  caps c hc := (h'.caps c (h.allocated c hc)).trans (h.caps c hc)
  frames c obj orig access m hc := by
    rcases h'.frames c obj orig access m hc with hc | hc
    · exact h.frames c obj orig access m hc
    · exact .inr (Nat.le_trans h.nextObj hc)
  nextObj := Nat.le_trans h.nextObj h'.nextObj
  mem obj ho := (h'.mem obj (Nat.lt_of_lt_of_le ho h.nextObj)).trans (h.mem obj ho)
  pages vs va hne := (h'.pages vs va hne).trans (h.pages vs va hne)
  rootPages va e he := h'.rootPages va e (h.rootPages va e he)
  newRootPages va e he := by
    rcases h'.newRootPages va e he with he | he
    · exact h.newRootPages va e he
    · exact .inr (Nat.le_trans h.nextObj he)
  waiting := h'.waiting.trans h.waiting
  userTop := h'.userTop.trans h.userTop
  log := by
    obtain ⟨evs, hl, hevs⟩ := h.log
    obtain ⟨evs', hl', hevs'⟩ := h'.log
    refine ⟨evs ++ evs', by rw [hl', hl, List.append_assoc], fun ev hev => ?_⟩
    rcases List.mem_append.mp hev with hev | hev
    · exact hevs ev hev
    · exact hevs' ev hev

theorem rooted (h : Grow r r₁) (hr : Rooted r) : Rooted r₁ :=
  ⟨h.allocated _ hr.allocated, (h.caps _ hr.allocated).trans hr.cap⟩

/-! ## The primitive steps -/

/-- Only the kernel and the slot allocator matter. -/
theorem congr (h : Grow r r₁) (hk : r₂.kernel = r₁.kernel) (hc : r₂.cspace = r₁.cspace) :
    Grow r r₂ := by
  obtain ⟨h1, h2, h3, h4, h5, h6, h7, h8, h9, h10, h11⟩ := h
  constructor <;> simpa only [hk, hc]

/-- The slot allocator may change any slot that `r` did not have. -/
theorem cspace (h : Grow r r₁) {cs : CSpace}
    (hcs : ∀ c, r.cspace.Allocated c → r₁.cspace.Allocated c → cs.Allocated c) :
    Grow r { r₁ with cspace := cs } :=
  { h with allocated := fun c hc => hcs c hc (h.allocated c hc) }

/-- A slot that `r` did not have may get a capability of a new object. -/
theorem setCap (h : Grow r r₁) {c : Slot} (hc : ¬ r.cspace.Allocated c) (cap : Option Cap)
    (hcap : ∀ obj orig access m, cap = some (.frame obj orig access m) →
      r.kernel.nextObj ≤ obj) :
    Grow r { r₁ with kernel := r₁.kernel.setCap c cap } :=
  { h with
    caps := fun c' hc' => by
      have hne : c' ≠ c := fun heq => hc (heq ▸ hc')
      simpa [Kernel.setCap, Function.update_of_ne hne] using h.caps c' hc'
    frames := fun c' obj orig access m hc' => by
      by_cases heq : c' = c
      · subst heq
        exact .inr (hcap obj orig access m (by simpa [Kernel.setCap] using hc'))
      · exact h.frames c' obj orig access m
          (by simpa [Kernel.setCap, Function.update_of_ne heq] using hc') }

theorem untypedRetype (h : Grow r r₁) {c : Slot} (hc : ¬ r.cspace.Allocated c)
    {bp : ObjectBlueprint} {k : Kernel} (hk : r₁.kernel.untypedRetype bp c = .ok k) :
    Grow r { r₁ with kernel := k } := by
  obtain ⟨-, rfl⟩ := Kernel.untypedRetype_ok hk
  have hset := h.setCap hc (some (bp.newCap r₁.kernel.nextObj)) (by
    intro obj orig access m hcap
    cases bp <;> cases hcap
    exact h.nextObj)
  exact { hset with
    nextObj := Nat.le_succ_of_le h.nextObj
    mem := fun obj ho =>
      (Kernel.newObject_mem bp c (Nat.lt_of_lt_of_le ho h.nextObj)).trans (h.mem obj ho) }

theorem deviceRetype (h : Grow r r₁) {ut c : Slot} (hc : ¬ r.cspace.Allocated c)
    {k : Kernel} (hk : r₁.kernel.deviceRetype ut c = .ok k) :
    Grow r { r₁ with kernel := k } := by
  unfold Kernel.deviceRetype at hk
  split at hk
  · cases hk
  split at hk
  · cases hk
  simp only [Except.ok.injEq] at hk
  subst hk
  have hg := h.setCap hc (some (.frame r₁.kernel.nextObj true ⟨true, true⟩ none)) (by
    intro obj orig access m hcap
    cases hcap
    exact h.nextObj)
  exact { hg with nextObj := Nat.le_succ_of_le h.nextObj }

theorem ptMap (h : Grow r r₁) {c vspace : Slot} {vaddr : Nat} (hc : ¬ r.cspace.Allocated c)
    {k : Kernel} (hk : r₁.kernel.ptMap c vspace vaddr = .ok k) :
    Grow r { r₁ with kernel := k } := by
  have hg := h.setCap hc (some (.pageTable true)) (by simp)
  unfold Kernel.ptMap at hk
  split at hk
  · split at hk
    · cases hk
    · simp only [Except.ok.injEq] at hk
      subst hk
      exact { hg with }
  · cases hk
  · cases hk

/-- Deleting an unmapped capability of a slot that `r` did not have. -/
theorem delete (h : Grow r r₁) {c : Slot} (hc : ¬ r.cspace.Allocated c)
    (hdel : r₁.kernel.delete c = r₁.kernel.setCap c none) :
    Grow r { r₁ with kernel := r₁.kernel.delete c } := by
  rw [hdel]
  exact h.setCap hc none (by simp)

end Grow

end Smos.RootServer
