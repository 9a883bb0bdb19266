/-
Smos.RootServer.UtSpecs — what the allocators do to the untyped table.

A kernel call and the slot allocator leave the table alone. `mapFrame` takes
a page off the 4K list for each page table it tries to install, and gives
none back. The only panics of all of them are those of the slot allocator.
-/
import Smos.RootServer.Resources

namespace Smos.RootServer

open Smos.Base

/-- Where the slot allocator gives up. -/
def Panic.InSlots (p : Panic) : Prop := p = .notImplemented ∨ p = .indexOutOfBounds

namespace UTTable

/-- Take some pages off the 4K list. -/
def dropPages (t : UTTable) (k : Nat) : UTTable :=
  { t with
    freeUntypeds :=
      Function.update t.freeUntypeds pageBits4K ((t.freeUntypeds pageBits4K).drop k) }

@[simp] theorem dropPages_zero (t : UTTable) : t.dropPages 0 = t := by
  simp [dropPages]

@[simp] theorem dropPages_dropPages (t : UTTable) (k k' : Nat) :
    (t.dropPages k).dropPages k' = t.dropPages (k + k') := by
  simp [dropPages]

/-- Some pages have been taken off the 4K list, and nothing else. -/
def Dropped (t t' : UTTable) : Prop := ∃ k, t' = t.dropPages k

theorem Dropped.refl (t : UTTable) : Dropped t t := ⟨0, (dropPages_zero t).symm⟩

theorem Dropped.trans {t t₁ t₂ : UTTable} (h : Dropped t t₁) (h' : Dropped t₁ t₂) :
    Dropped t t₂ := by
  obtain ⟨k, rfl⟩ := h
  obtain ⟨k', rfl⟩ := h'
  exact ⟨k + k', dropPages_dropPages t k k'⟩

end UTTable

section Specs

variable {ε : Type} (r : Res)

/-! ## Slots and kernel calls -/

theorem allocSlot_ut : allocSlot.wp (fun _ r' => r'.ut = r.ut) (fun _ r' => r'.ut = r.ut)
    Panic.InSlots r := by
  simp only [allocSlot, CSpace.allocSlot, Prog.wp_zoom, Prog.wp_bind, Prog.wp_gets, Prog.wp_okOr,
    Prog.wp_ite, Prog.wp_fail, Prog.wp_unwrap, Prog.wp_modify, Prog.wp_pure]
  simp [Panic.InSlots]

theorem freeSlot_ut (c : Slot) : (freeSlot c : RProg ε Unit).wp (fun _ r' => r'.ut = r.ut)
    (fun _ _ => False) Panic.InSlots r := by
  simp only [freeSlot, CSpace.freeSlot, Prog.wp_zoom, Prog.wp_bind, Prog.wp_gets, Prog.wp_ite,
    Prog.wp_unwrap, Prog.wp_modify, Prog.wp_pure]
  refine ⟨fun _ => trivial, fun _ => ⟨fun _ => trivial, fun _ => ⟨fun bf _ => ?_, fun _ => .inr rfl⟩⟩⟩
  cases ({ r.cspace with topBf := bf } : CSpace).botLvl c with
  | none => trivial
  | some b =>
    simp only [Prog.wp_bind, Prog.wp_unwrap, Prog.wp_modify]
    exact ⟨fun _ _ => trivial, fun _ => .inr rfl⟩

theorem kcall_ut (f : Kernel → Except Sel4Error Kernel) :
    (kcall f).wp (fun _ r' => r'.ut = r.ut) (fun _ r' => r' = r) Panic.InSlots r := by
  simp only [kcall, Prog.wp_zoom, Prog.wp_ofExcept]
  exact ⟨fun _ _ => trivial, fun _ _ => trivial⟩

/-! ## Mapping -/

theorem alloc4kUntyped_ut : alloc4kUntyped.wp
    (fun ut r' => ∃ rest, r.ut.freeUntypeds pageBits4K = ut :: rest ∧
      r' = { r with ut := r.ut.dropPages 1 })
    (fun _ r' => r.ut.freeUntypeds pageBits4K = [] ∧ r' = r) Panic.InSlots r := by
  simp only [alloc4kUntyped, Prog.wp_bind, Prog.wp_gets]
  cases h : r.ut.freeUntypeds pageBits4K with
  | nil => exact ⟨rfl, rfl⟩
  | cons ut rest =>
    refine ⟨rest, rfl, ?_⟩
    simp [UTTable.dropPages, h]

/-- The loop stops with an answer, or on an error of its own. -/
theorem mapFrameLoop_ut (c vspace : Slot) (vaddr : Nat) (rights : CapRights) :
    ∀ (n : Nat) (err : Except Sel4Error Unit) (r₁ : Res), r.ut.Dropped r₁.ut →
      (mapFrameLoop c vspace vaddr rights n err).wp (fun _ r' => r.ut.Dropped r'.ut)
        (fun _ r' => r.ut.Dropped r'.ut) Panic.InSlots r₁
  | 0, err, r₁, h => by
      unfold mapFrameLoop
      exact h
  | n + 1, .ok (), r₁, h => by
      unfold mapFrameLoop
      exact h
  | n + 1, .error e, r₁, h => by
      cases e with
      | failedLookup =>
        simp only [mapFrameLoop, Prog.wp_bind]
        refine Prog.wp_mono (alloc4kUntyped_ut r₁) ?_ (fun _ _ h' => h'.2 ▸ h) fun _ hp => hp
        intro _ r₂ hpost
        rcases hpost with ⟨-, -, hr₂⟩
        have h₂ : r.ut.Dropped r₂.ut := h.trans ⟨1, congrArg Res.ut hr₂⟩
        refine Prog.wp_mono (allocSlot_ut r₂) ?_ (fun _ _ h' => h'.symm ▸ h₂) fun _ hp => hp
        intro slot r₃ h₃
        have h₃ : r.ut.Dropped r₃.ut := h₃.symm ▸ h₂
        simp only [Prog.wp_ite, Prog.wp_fail, Prog.wp_bind, Prog.wp_attempt, retypeMapPt]
        refine ⟨fun _ => h₃, fun _ => ?_⟩
        refine Prog.wp_mono (kcall_ut r₃ _) ?_ ?_ fun _ hp => hp
        · intro _ r₄ h₄
          have h₄ : r.ut.Dropped r₄.ut := h₄.symm ▸ h₃
          refine Prog.wp_mono (kcall_ut r₄ _) ?_ ?_ fun _ hp => hp
          · intro _ r₅ h₅
            have h₅ : r.ut.Dropped r₅.ut := h₅.symm ▸ h₄
            refine Prog.wp_mono (kcall_ut r₅ _) ?_ ?_ fun _ hp => hp
            · intro _ r₆ h₆
              exact mapFrameLoop_ut c vspace vaddr rights n _ r₆ (h₆.symm ▸ h₅)
            · intro e r₆ h₆
              exact mapFrameLoop_ut c vspace vaddr rights n _ r₆ (h₆.symm ▸ h₅)
          · intro e r₅ h₅
            exact mapFrameLoop_ut c vspace vaddr rights n _ r₅ (h₅.symm ▸ h₄)
        · intro e r₄ h₄
          exact mapFrameLoop_ut c vspace vaddr rights n _ r₄ (h₄.symm ▸ h₃)
      | _ =>
        unfold mapFrameLoop
        exact h

theorem mapFrame_ut (c vspace : Slot) (vaddr : Nat) (rights : CapRights) :
    (mapFrame c vspace vaddr rights).wp (fun _ r' => r.ut.Dropped r'.ut)
      (fun _ r' => r.ut.Dropped r'.ut) Panic.InSlots r := by
  simp only [mapFrame, Prog.wp_bind, Prog.wp_attempt, frameMap]
  refine Prog.wp_mono (kcall_ut r _) ?_ ?_ fun _ hp => hp
  -- the loop is the same, however the first call ended
  all_goals
    intro _ r₁ h₁
    refine Prog.wp_mono (mapFrameLoop_ut r c vspace vaddr rights _ _ r₁ (h₁.symm ▸ .refl _)) ?_
      (fun _ _ h => h) fun _ hp => hp
    intro err r₂ h
    cases err with
    | ok a => exact h
    | error e => exact h

/-! ## Frames -/

/-- How many pages are free. -/
def UTTable.freePages (t : UTTable) : Nat := (t.freeUntypeds pageBits4K).length

theorem UTTable.Dropped.freePages_le {t t' : UTTable} (h : t.Dropped t') :
    t'.freePages ≤ t.freePages := by
  obtain ⟨k, rfl⟩ := h
  simp [freePages, dropPages]

theorem utFree_freePages (ut : UT) : (utFree ut : RProg ε Unit).wp
    (fun _ r' => r'.ut.freePages ≤ r.ut.freePages + 1) (fun _ _ => False) (fun _ => False) r := by
  simp only [utFree, modifyUt, Prog.wp_modify, UTTable.freePages, Function.update_apply]
  split
  · next h => simp [h]
  · exact Nat.le_succ _

/-- A frame costs a page; a failure may cost page tables, and gives back no more than it took. -/
theorem allocFrameAt_freePages (vaddr : Nat) : (allocFrameAt vaddr).wp
    (fun _ r' => r'.ut.freePages + 1 ≤ r.ut.freePages)
    (fun _ r' => r'.ut.freePages ≤ r.ut.freePages) Panic.InSlots r := by
  simp only [allocFrameAt, Prog.wp_bind, Prog.wp_catchErr, Prog.wp_fail, Prog.wp_pure]
  refine Prog.wp_mono (alloc4kUntyped_ut r) ?_ (fun _ _ h => h.2 ▸ Nat.le_refl _) fun _ hp => hp
  intro ut r₁ hpost
  rcases hpost with ⟨rest, hlist, hr₁⟩
  have h₁ : r₁.ut.freePages + 1 ≤ r.ut.freePages := by
    rw [hr₁]
    simp [UTTable.freePages, UTTable.dropPages, hlist]
  have hfree : ∀ r₂ : Res, r₂.ut.freePages ≤ r₁.ut.freePages →
      (utFree ut : RProg Sel4Error Unit).wp (fun _ r' => r'.ut.freePages ≤ r.ut.freePages)
        (fun _ r' => r'.ut.freePages ≤ r.ut.freePages) Panic.InSlots r₂ := by
    intro r₂ h₂
    exact Prog.wp_mono (utFree_freePages r₂ ut) (fun _ _ h => by omega) (fun _ _ h => h.elim)
      fun _ h => h.elim
  refine Prog.wp_mono (allocSlot_ut r₁) ?_ (fun _ r₂ h => hfree r₂ (h ▸ Nat.le_refl _)) fun _ hp => hp
  intro c r₂ h₂
  refine Prog.wp_mono (kcall_ut r₂ _) ?_ ?_ fun _ hp => hp
  · intro _ r₃ h₃
    refine Prog.wp_mono (mapFrame_ut r₃ c rootVSpaceSlot vaddr .all) ?_ ?_ fun _ hp => hp
    · intro _ r₄ h₄
      have := h₄.freePages_le
      rw [h₃, h₂] at this
      omega
    · intro _ r₄ h₄
      have hle := h₄.freePages_le
      rw [h₃, h₂] at hle
      simp only [deleteCap, kmodify, Prog.wp_modify]
      refine Prog.wp_mono (freeSlot_ut _ c) ?_ (fun _ _ h => h.elim) fun _ hp => hp
      intro _ r₅ h₅
      exact hfree r₅ (by rw [h₅]; exact hle)
  · intro _ r₃ h₃
    refine Prog.wp_mono (freeSlot_ut _ c) ?_ (fun _ _ h => h.elim) fun _ hp => hp
    intro _ r₄ h₄
    refine hfree r₄ (Nat.le_of_eq ?_)
    rw [h₄, h₃, h₂]

end Specs

end Smos.RootServer
