/-
Smos.RootServer.Calm — the allocators wake nobody up.

`Calm X k k'` says that between two states of the kernel no thread began or
stopped to wait for a reply, and that the events logged are mappings, or
events `X` allows. Everything the root server does to get and give back
slots, untyped memory and frames is calm, whether it succeeds or not.
-/
import Smos.RootServer.Allocators
import Smos.RootServer.KernelSpecs

namespace Smos.RootServer

open Smos.Base

/-- No waiting thread more or less, and no events but mappings and those of `X`. -/
structure Calm (X : KernelEvent → Prop) (k k' : Kernel) : Prop where
  waiting : k'.waiting = k.waiting
  log : ∃ evs, k'.log = k.log ++ evs ∧
    ∀ ev ∈ evs, (∃ slot vs vaddr e, ev = .map slot vs vaddr e) ∨ X ev

namespace Calm

variable {X : KernelEvent → Prop} {k k₁ k₂ : Kernel}

protected theorem refl (k : Kernel) : Calm X k k := ⟨rfl, [], by simp, by simp⟩

/-- Neither field was touched. -/
theorem same (h : Calm X k k₁) (hw : k₂.waiting = k₁.waiting) (hl : k₂.log = k₁.log) :
    Calm X k k₂ := by
  obtain ⟨hwait, evs, hevs, hX⟩ := h
  exact ⟨hw.trans hwait, evs, hl.trans hevs, hX⟩

/-- One more event. -/
theorem event (h : Calm X k k₁) {ev : KernelEvent}
    (hev : (∃ slot vs vaddr e, ev = .map slot vs vaddr e) ∨ X ev)
    (hw : k₂.waiting = k₁.waiting) (hl : k₂.log = k₁.log ++ [ev]) : Calm X k k₂ := by
  obtain ⟨hwait, evs, hevs, hX⟩ := h
  refine ⟨hw.trans hwait, evs ++ [ev], by rw [hl, hevs, List.append_assoc], fun x hx => ?_⟩
  rcases List.mem_append.mp hx with hx | hx
  · exact hX x hx
  · rw [List.mem_singleton.mp hx]
    exact hev

/-! ## Kernel calls -/

/-- Unmapping is not logged. -/
theorem unmap (h : Calm X k k₁) (obj : Nat) (m : Option (VSpaceId × Nat)) :
    Calm X k (k₁.unmap obj m) := by
  unfold Kernel.unmap
  split
  · exact h
  · split <;> exact h.same rfl rfl

theorem delete (h : Calm X k k₁) (c : Slot) : Calm X k (k₁.delete c) := by
  unfold Kernel.delete
  split
  · exact h
  · exact (h.unmap _ _).same rfl rfl
  all_goals exact h.same rfl rfl

theorem revoke (h : Calm X k k₁) (c : Slot) : Calm X k (k₁.revoke c) := by
  unfold Kernel.revoke
  split <;> exact h.same rfl rfl

/-- Copying makes a capability, and wakes nobody up. -/
theorem copy (h : Calm X k k₁) {dst src : Slot} {rights : CapRights}
    (hk : k₁.copy dst src rights = .ok k₂) : Calm X k k₂ := by
  unfold Kernel.copy at hk
  split at hk
  · cases hk
  · split at hk
    · cases hk
    · split at hk <;> cases hk <;> exact h.same rfl rfl

theorem mint (h : Calm X k k₁) {dst src : Slot} {rights : CapRights} {badge : Nat}
    (hk : k₁.mint dst src rights badge = .ok k₂) : Calm X k k₂ := by
  unfold Kernel.mint at hk
  split at hk
  · cases hk
  · split at hk <;> cases hk
    exact h.same rfl rfl
  · cases hk

/-- A new object has no thread waiting on it. -/
theorem untypedRetype (h : Calm X k k₁) {bp : ObjectBlueprint} {c : Slot}
    (hk : k₁.untypedRetype bp c = .ok k₂) : Calm X k k₂ := by
  obtain ⟨-, rfl⟩ := Kernel.untypedRetype_ok hk
  exact h.same rfl rfl

theorem ptMap (h : Calm X k k₁) {c vspace : Slot} {vaddr : Nat}
    (hk : k₁.ptMap c vspace vaddr = .ok k₂) : Calm X k k₂ := by
  unfold Kernel.ptMap at hk
  split at hk
  · split at hk <;> cases hk
    exact h.same rfl rfl
  all_goals cases hk

/-- A mapping is logged, and is no grant and no reply. -/
theorem frameMap (h : Calm X k k₁) {c vspace : Slot} {vaddr : Nat} {rights : CapRights}
    (hk : k₁.frameMap c vspace vaddr rights = .ok k₂) : Calm X k k₂ := by
  obtain ⟨obj, orig, access, m, vs, -, -, -, -, rfl⟩ := Kernel.frameMap_ok hk
  exact h.event (.inl ⟨_, _, _, _, rfl⟩) rfl rfl

end Calm

/-! ## Programs -/

section Programs

variable {ε : Type} {X : KernelEvent → Prop} {k : Kernel}

/-- So the allocators are calm. -/
instance stable_calm : Stable (Calm X k) where
  delete h := h.delete
  untypedRetype h := h.untypedRetype
  ptMap h := h.ptMap
  frameMap h := h.frameMap
  writeMem h _ _ := h.same rfl rfl

/-- The program over the resources is calm. -/
abbrev CalmProg (X : KernelEvent → Prop) (k : Kernel) {ε α : Type} (m : RProg ε α) : Prop :=
  KernelProg (Calm X k) m

theorem copyCap_calm (dst src : Slot) (rights : CapRights) :
    CalmProg X k (copyCap dst src rights) :=
  kcall_keeps fun _ _ h hk => h.copy hk

theorem mintCap_calm (dst src : Slot) (rights : CapRights) (badge : Nat) :
    CalmProg X k (mintCap dst src rights badge) :=
  kcall_keeps fun _ _ h hk => h.mint hk

end Programs

end Smos.RootServer
