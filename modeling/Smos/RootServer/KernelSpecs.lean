/-
Smos.RootServer.KernelSpecs — what the kernel calls do to capabilities.

Each call that can fail has one lemma about its success; each call that
cannot has the equations of the components it touches. The models of the
handlers' effects use these and never unfold a kernel call again.
-/
import Smos.RootServer.Kernel

namespace Smos.RootServer

namespace Kernel

variable {k k' : Kernel} {c c' : Slot}

/-! ## Setting and deleting -/

@[simp] theorem setCap_caps_self (cap : Option Cap) : (k.setCap c cap).caps c = cap := by
  simp [setCap]

theorem setCap_caps_of_ne (h : c' ≠ c) (cap : Option Cap) :
    (k.setCap c cap).caps c' = k.caps c' := by
  simp [setCap, Function.update_of_ne h]

@[simp] theorem unmap_caps (k : Kernel) (obj : Nat) (m : Option (VSpaceId × Nat)) :
    (k.unmap obj m).caps = k.caps := by
  unfold unmap
  split
  · rfl
  · split <;> rfl

theorem delete_caps (k : Kernel) (c : Slot) :
    (k.delete c).caps = Function.update k.caps c none := by
  unfold delete
  split
  · rename_i h
    exact (Function.update_eq_self_iff.mpr h.symm).symm
  · simp [setCap]
  · simp [setCap]
  · rfl
  · rfl

@[simp] theorem delete_caps_self (k : Kernel) (c : Slot) : (k.delete c).caps c = none := by
  rw [delete_caps, Function.update_self]

theorem delete_caps_of_ne (h : c' ≠ c) : (k.delete c).caps c' = k.caps c' := by
  rw [delete_caps, Function.update_of_ne h]

/-- Deleting resumes nobody, and maps nothing. -/
theorem delete_quiet (k : Kernel) (c : Slot) :
    (k.delete c).waiting = k.waiting ∧ (k.delete c).log = k.log := by
  unfold delete unmap
  split
  · exact ⟨rfl, rfl⟩
  · split
    · exact ⟨rfl, rfl⟩
    · split <;> exact ⟨rfl, rfl⟩
  all_goals exact ⟨rfl, rfl⟩

/-- Revoking only takes frame capabilities away. -/
theorem revoke_caps_of_not_frame {cap : Cap} (h : k.caps c' = some cap)
    (hcap : ∀ obj orig access m, cap ≠ .frame obj orig access m) :
    (k.revoke c).caps c' = some cap := by
  unfold revoke
  split
  · rename_i obj _ _ _
    have : k.isCopyOf obj c c' = false := by
      unfold isCopyOf
      rw [h]
      cases cap with
      | frame obj orig access m => exact absurd rfl (hcap obj orig access m)
      | _ => rfl
    simp [this, h]
  · exact h

/-! ## New objects -/

/-- A retype into an empty slot makes the next object, unless there is no room for it. -/
theorem untypedRetype_ok {bp : ObjectBlueprint} (h : k.untypedRetype bp c = .ok k') :
    k.caps c = none ∧ k' = k.newObject bp c := by
  unfold untypedRetype at h
  split at h
  · cases h
  rename_i hc
  split at h
  · cases h
  cases h
  exact ⟨by simpa using hc, rfl⟩

theorem untypedRetype_error {bp : ObjectBlueprint} {e : Sel4Error} (hc : k.caps c = none)
    (h : k.untypedRetype bp c = .error e) : e = .notEnoughMemory := by
  unfold untypedRetype at h
  rw [hc] at h
  split at h
  · contradiction
  split at h <;> cases h
  rfl

@[simp] theorem newObject_caps (k : Kernel) (bp : ObjectBlueprint) (c : Slot) :
    (k.newObject bp c).caps = Function.update k.caps c (some (bp.newCap k.nextObj)) := rfl

@[simp] theorem newObject_nextObj (k : Kernel) (bp : ObjectBlueprint) (c : Slot) :
    (k.newObject bp c).nextObj = k.nextObj + 1 := rfl

/-- Retype writes to no object that is there. -/
theorem newObject_mem (bp : ObjectBlueprint) (c : Slot) {obj : Nat} (h : obj < k.nextObj) :
    (k.newObject bp c).mem obj = k.mem obj := by
  unfold newObject
  split
  · exact Function.update_of_ne (Nat.ne_of_lt h) _ _
  · rfl

/-! ## Copying and mapping -/

/-- A copy of a frame capability is unmapped and not an original; any other
capability is copied as it is. -/
theorem copy_ok {src dst : Slot} {rights : CapRights} (h : k.copy dst src rights = .ok k') :
    ∃ cap cap', k.caps src = some cap ∧ k.caps dst = none ∧ k' = k.setCap dst (some cap') ∧
      ((∃ obj orig access m, cap = .frame obj orig access m ∧
        cap' = .frame obj false (access.mask rights) none) ∨
      ((∀ obj orig access m, cap ≠ .frame obj orig access m) ∧ cap' = cap)) := by
  unfold copy at h
  split at h
  · cases h
  rename_i cap hcap
  split at h
  · cases h
  rename_i hdst
  have hdst' : k.caps dst = none := by simpa using hdst
  split at h
  · cases h
    exact ⟨_, _, hcap, hdst', rfl, .inl ⟨_, _, _, _, rfl, rfl⟩⟩
  · cases h
  · rename_i hf _
    cases h
    exact ⟨_, _, hcap, hdst', rfl, .inr ⟨hf, rfl⟩⟩

/-- What is minted is the object of the source, with the badge and the rights asked for. -/
theorem mint_ok {src dst : Slot} {rights : CapRights} {badge : Nat}
    (h : k.mint dst src rights badge = .ok k') :
    ∃ obj kind, k.caps src = some (.object obj kind) ∧ k.caps dst = none ∧
      k' = k.setCap dst (some (.badged obj kind badge rights)) := by
  unfold mint at h
  split at h
  · cases h
  · rename_i obj kind hsrc
    split at h
    · cases h
    · rename_i hdst
      cases h
      exact ⟨obj, kind, hsrc, by simpa using hdst, rfl⟩
  · cases h

theorem irqControlGet_ok {dst irq : Nat} (h : k.irqControlGet dst irq = .ok k') :
    k'.caps = Function.update k.caps dst (some (.irqHandler irq)) := by
  unfold irqControlGet at h
  split at h
  · cases h
  · split at h <;> cases h
    rfl

theorem irqHandlerSetNotification_ok {handler ntfn : Slot}
    (h : k.irqHandlerSetNotification handler ntfn = .ok k') : k' = k := by
  unfold irqHandlerSetNotification at h
  split at h
  · split at h <;> cases h
    rfl
  · cases h

/-- In the root server's own address space every page that is mapped is refused. -/
theorem free_of_refuses {vs : VSpaceId} {vaddr : Nat}
    (h : ¬ ((k.pages vs vaddr).isSome ∧ k.refuses vs = true)) (hvs : vs = rootVSpace) :
    k.pages vs vaddr = none := by
  have hrefuses : k.refuses vs = true := by simp [refuses, hvs]
  simpa [hrefuses] using h

/-- A frame is mapped at an aligned page: one that is not mapped, in the root server's own address
space where nothing is; or a mapped one where it is already. -/
theorem frameMap_ok {vspace : Slot} {vaddr : Nat} {rights : CapRights}
    (h : k.frameMap c vspace vaddr rights = .ok k') :
    ∃ obj orig access m vs, k.caps c = some (.frame obj orig access m) ∧
      k.caps vspace = some (.vspace vs) ∧ vaddr % pageSize4K = 0 ∧
      (m = none ∧ (vs = rootVSpace → k.pages vs vaddr = none) ∨ m = some (vs, vaddr)) ∧
      k' = k.enterPage c obj orig access vs vaddr rights := by
  unfold frameMap at h
  split at h
  · rename_i obj orig access m vs hc hv
    split at h
    · cases h
    rename_i hal
    split at h
    · rename_i vs' vaddr'
      split at h
      · cases h
      rename_i hvs
      split at h
      · cases h
      rename_i hva
      simp only [Except.ok.injEq] at h
      refine ⟨obj, orig, access, _, vs, hc, hv, by simpa using hal, .inr ?_, h.symm⟩
      simp only [not_not] at hvs hva
      rw [hvs, hva]
    · split at h
      · cases h
      split at h
      · cases h
      split at h
      · cases h
      rename_i hfree
      simp only [Except.ok.injEq] at h
      exact ⟨obj, orig, access, none, vs, hc, hv, by simpa using hal,
        .inl ⟨rfl, free_of_refuses hfree⟩, h.symm⟩
  · cases h

theorem enterPage_caps (obj : Nat) (orig : Bool) (access : Access) (vs : VSpaceId) (vaddr : Nat)
    (rights : CapRights) :
    (k.enterPage c obj orig access vs vaddr rights).caps =
      Function.update k.caps c (some (.frame obj orig access (some (vs, vaddr)))) := rfl

theorem enterPage_pages (obj : Nat) (orig : Bool) (access : Access) (vs : VSpaceId) (vaddr : Nat)
    (rights : CapRights) (vs' : VSpaceId) (vaddr' : Nat) :
    (k.enterPage c obj orig access vs vaddr rights).pages vs' vaddr' =
      if vs' = vs ∧ vaddr' = vaddr then some ⟨obj, access.mask rights⟩
      else k.pages vs' vaddr' := by
  simp only [enterPage, setPage, setCap]
  by_cases hvs : vs' = vs
  · subst hvs
    by_cases hva : vaddr' = vaddr
    · subst hva; simp
    · simp [hva]
  · simp [hvs]

/-! ## Threads -/

theorem bindNotification_ok {tcb : Slot} (h : k.bindNotification tcb = .ok k') :
    k'.caps = k.caps ∧ k'.nextObj = k.nextObj := by
  unfold bindNotification at h
  split at h
  · split at h <;> cases h
    exact ⟨rfl, rfl⟩
  · cases h

theorem replySend_eq (k : Kernel) (c : Slot) :
    k.replySend c = { k with waiting := (k.replySend c).waiting, log := (k.replySend c).log } := by
  unfold replySend
  split <;> rfl

@[simp] theorem replySend_caps (k : Kernel) (c : Slot) : (k.replySend c).caps = k.caps := by
  rw [replySend_eq]

@[simp] theorem replySend_pages (k : Kernel) (c : Slot) : (k.replySend c).pages = k.pages := by
  rw [replySend_eq]

@[simp] theorem replySend_nextObj (k : Kernel) (c : Slot) :
    (k.replySend c).nextObj = k.nextObj := by
  rw [replySend_eq]

@[simp] theorem replySend_mem (k : Kernel) (c : Slot) : (k.replySend c).mem = k.mem := by
  rw [replySend_eq]

end Kernel

end Smos.RootServer
