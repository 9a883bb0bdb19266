/-
Smos.RootServer.FrameBytes — whose bytes are in which frame.

The root server writes to a frame through its own address space, at the
address of the frame's reference, and maps the frame into another address
space through a copy of its capability. That both are the same memory is an
invariant of the frame table: every created frame is `Shown` at its address
by its original capability, and no two frames are the same object.

`Adds vs A r r'` says what filling the pages in `A` of the address space
`vs` leaves alone: slots in use, frames in use and their bytes, and all other
pages. It composes, and each step of the loader moves along it.
-/
import Smos.RootServer.Effects
import Smos.RootServer.KernelSpecs

namespace Smos.RootServer

open Smos.Base

/-! ## The frame table's invariant -/

/-- The frame with the reference `f` is the object `obj`: its original capability is where the
table says, and the root server sees its bytes at its address. -/
structure Shown (r : Res) (f obj : Nat) : Prop where
  allocated : r.cspace.Allocated (r.frameTable.cap f)
  cap : r.kernel.caps (r.frameTable.cap f) =
    some (.frame obj true ⟨true, true⟩ (some (rootVSpace, frameDataAddr f)))
  page : r.kernel.pages rootVSpace (frameDataAddr f) = some ⟨obj, ⟨true, true⟩⟩
  old : obj < r.kernel.nextObj

/-- Every created frame is shown, no two are the same object, and each is in the lists once. -/
structure Frames (r : Res) : Prop where
  rooted : Rooted r
  shown : ∀ f, f < r.frameTable.used → ∃ obj, Shown r f obj
  distinct : ∀ f g obj, f < r.frameTable.used → g < r.frameTable.used → Shown r f obj →
    Shown r g obj → f = g
  created : ∀ f ∈ r.frameTable.free ++ r.frameTable.allocated, f < r.frameTable.used
  once : (r.frameTable.free ++ r.frameTable.allocated).Nodup

/-- Nothing changes but the pages in `A` of `vs`, and what was free. -/
structure Adds (vs : VSpaceId) (A : Set Nat) (r r' : Res) : Prop where
  allocated : ∀ c, r.cspace.Allocated c → r'.cspace.Allocated c
  caps : ∀ c, r.cspace.Allocated c → r'.kernel.caps c = r.kernel.caps c
  shown : ∀ f obj, f < r.frameTable.used → Shown r f obj → Shown r' f obj
  used : r.frameTable.used ≤ r'.frameTable.used
  frameCap : ∀ f, f < r.frameTable.used → r'.frameTable.cap f = r.frameTable.cap f
  held : ∀ f ∈ r.frameTable.allocated, f ∈ r'.frameTable.allocated
  mem : ∀ f ∈ r.frameTable.allocated, ∀ obj, Shown r f obj → r'.kernel.mem obj = r.kernel.mem obj
  pages : ∀ vs' va, vs' ≠ rootVSpace → ¬ (vs' = vs ∧ va ∈ A) →
    r'.kernel.pages vs' va = r.kernel.pages vs' va

section Invariant

variable {r r' r₁ r₂ : Res} {f g obj obj' : Nat} {vs : VSpaceId} {A B : Set Nat}

theorem Shown.unique (h : Shown r f obj) (h' : Shown r f obj') : obj = obj' := by
  have hcap := h.cap.symm.trans h'.cap
  simpa using hcap

theorem Frames.held_used (h : Frames r) (hf : f ∈ r.frameTable.allocated) :
    f < r.frameTable.used :=
  h.created f (List.mem_append_right _ hf)

/-- Different frames are different objects. -/
theorem Frames.ne_of_ne (h : Frames r) (hf : f < r.frameTable.used) (hg : g < r.frameTable.used)
    (hne : g ≠ f) (hs : Shown r f obj) (hs' : Shown r g obj') : obj' ≠ obj := by
  rintro rfl
  exact hne (h.distinct g f obj' hg hf hs' hs)

/-- The lists and the number of the frames are the old ones, and the frames are still shown. -/
theorem Frames.carry (h : Frames r) (hroot : Rooted r')
    (hused : r'.frameTable.used = r.frameTable.used)
    (hlists : (r'.frameTable.free ++ r'.frameTable.allocated).Perm
      (r.frameTable.free ++ r.frameTable.allocated))
    (hshown : ∀ f obj, f < r.frameTable.used → Shown r f obj → Shown r' f obj) : Frames r' where
  rooted := hroot
  shown f hf := by
    obtain ⟨obj, hs⟩ := h.shown f (hused ▸ hf)
    exact ⟨obj, hshown f obj (hused ▸ hf) hs⟩
  distinct f g obj hf hg hs hs' := by
    rw [hused] at hf hg
    obtain ⟨obj₁, h₁⟩ := h.shown f hf
    obtain ⟨obj₂, h₂⟩ := h.shown g hg
    obtain rfl := (hshown f obj₁ hf h₁).unique hs
    obtain rfl := (hshown g obj₂ hg h₂).unique hs'
    exact h.distinct f g _ hf hg h₁ h₂
  created f hf := by
    rw [hused]
    exact h.created f (hlists.mem_iff.mp hf)
  once := hlists.nodup_iff.mpr h.once

namespace Adds

protected theorem refl (r : Res) : Adds vs A r r where
  allocated _ h := h
  caps _ _ := rfl
  shown _ _ _ h := h
  used := Nat.le_refl _
  frameCap _ _ := rfl
  held _ h := h
  mem _ _ _ _ := rfl
  pages _ _ _ _ := rfl

protected theorem trans (hr : Frames r) (h : Adds vs A r r₁) (h' : Adds vs B r₁ r₂) :
    Adds vs (A ∪ B) r r₂ where
  allocated c hc := h'.allocated c (h.allocated c hc)
  caps c hc := (h'.caps c (h.allocated c hc)).trans (h.caps c hc)
  shown f obj hf hs := h'.shown f obj (hf.trans_le h.used) (h.shown f obj hf hs)
  used := h.used.trans h'.used
  frameCap f hf := (h'.frameCap f (hf.trans_le h.used)).trans (h.frameCap f hf)
  held f hf := h'.held f (h.held f hf)
  mem f hf obj hs :=
    (h'.mem f (h.held f hf) obj (h.shown f obj (hr.held_used hf) hs)).trans (h.mem f hf obj hs)
  pages vs' va hne hno :=
    (h'.pages vs' va hne fun hB => hno ⟨hB.1, .inr hB.2⟩).trans
      (h.pages vs' va hne fun hA => hno ⟨hA.1, .inl hA.2⟩)

theorem mono (h : Adds vs A r r') (hAB : A ⊆ B) : Adds vs B r r' :=
  { h with pages := fun vs' va hne hno => h.pages vs' va hne fun hA => hno ⟨hA.1, hAB hA.2⟩ }

theorem rooted (h : Adds vs A r r') (hr : Rooted r) : Rooted r' :=
  ⟨h.allocated _ hr.allocated, (h.caps _ hr.allocated).trans hr.cap⟩

end Adds

/-! ## Growing -/

/-- What grew with the frame table left alone still shows the frames. -/
theorem Grow.shown (h : Grow r r') (hcap : r'.frameTable.cap f = r.frameTable.cap f)
    (hs : Shown r f obj) : Shown r' f obj where
  allocated := by
    rw [hcap]
    exact h.allocated _ hs.allocated
  cap := by
    rw [hcap]
    exact (h.caps _ hs.allocated).trans hs.cap
  page := h.rootPages _ _ hs.page
  old := hs.old.trans_le h.nextObj

theorem Grow.adds (h : Grow r r') (hused : r.frameTable.used ≤ r'.frameTable.used)
    (hcap : ∀ f, f < r.frameTable.used → r'.frameTable.cap f = r.frameTable.cap f)
    (hheld : ∀ f ∈ r.frameTable.allocated, f ∈ r'.frameTable.allocated) : Adds vs A r r' where
  allocated := h.allocated
  caps := h.caps
  shown f _ hf hs := h.shown (hcap f hf) hs
  used := hused
  frameCap := hcap
  held := hheld
  mem _ _ _ hs := h.mem _ hs.old
  pages vs' va hne _ := h.pages vs' va hne

theorem Quiet.adds (h : Quiet r r') : Adds vs A r r' := by
  have ht := h.frameTable
  exact h.grow.adds (by rw [ht]) (fun f _ => by rw [ht]) fun f hf => by rwa [ht]

theorem Quiet.frames (h : Quiet r r') (hr : Frames r) : Frames r' := by
  have ht := h.frameTable
  refine hr.carry (h.grow.rooted hr.rooted) (by rw [ht]) (by rw [ht]) fun f _ hf hs => ?_
  exact h.grow.shown (by rw [ht]) hs

theorem Adds.quiet (h : Adds vs A r r₁) (hr : Frames r) (hq : Quiet r₁ r₂) : Adds vs A r r₂ := by
  have hadds : Adds vs (A ∪ A) r r₂ := h.trans hr hq.adds
  rwa [Set.union_self] at hadds

/-- A new frame: its table is sound, and nobody had the frame. -/
theorem FrameAllocated.frames (h : FrameAllocated r f r') (hr : Frames r) :
    Frames r' ∧ Adds vs A r r' ∧ f ∉ r.frameTable.allocated ∧ f ∈ r'.frameTable.allocated := by
  cases h with
  | recycled rest hfree =>
    have hmem : f ∈ r.frameTable.free := hfree ▸ List.mem_cons_self
    have hperm : (rest ++ (r.frameTable.allocated ++ [f])).Perm
        (r.frameTable.free ++ r.frameTable.allocated) := by
      rw [hfree, ← List.append_assoc]
      exact (List.perm_append_singleton f _).trans (List.Perm.refl _)
    refine ⟨?_, ?_, ?_, List.mem_append_right _ (List.mem_singleton_self f)⟩
    · exact hr.carry ⟨hr.rooted.allocated, hr.rooted.cap⟩ rfl hperm fun _ _ _ hs =>
        ⟨hs.allocated, hs.cap, hs.page, hs.old⟩
    · exact Grow.adds ((Grow.refl r).congr rfl rfl) (Nat.le_refl _) (fun _ _ => rfl) fun g hg =>
        List.mem_append_left [f] hg
    · exact fun hf => (List.disjoint_of_nodup_append hr.once) hmem hf
  | fresh r' c obj hfree href hgrow hframe hfree' hallocated hused hcap =>
    have hlt : ∀ g, g < r.frameTable.used → g ≠ f := fun g hg => by omega
    have hcap' : ∀ g, g < r.frameTable.used → r'.frameTable.cap g = r.frameTable.cap g := by
      intro g hg
      rw [hcap, Function.update_of_ne (hlt g hg)]
    have hnew : Shown r' f obj := by
      have hc : r'.frameTable.cap f = c := by rw [hcap, Function.update_self]
      exact ⟨hc ▸ hframe.allocated, hc ▸ hframe.cap, hframe.page, hframe.lt_nextObj⟩
    have hfresh : f ∉ r.frameTable.allocated := fun hf => hlt f (hr.held_used hf) rfl
    have hadds : Adds vs A r r' := hgrow.adds (by omega) hcap' fun g hg => by
      rw [hallocated]
      exact List.mem_append_left _ hg
    have hmem : f ∈ r'.frameTable.allocated := by
      rw [hallocated]
      exact List.mem_append_right _ (List.mem_singleton_self f)
    refine ⟨?_, hadds, hfresh, hmem⟩
    have hold : ∀ g, g < r'.frameTable.used → g = f ∨ g < r.frameTable.used := fun g hg => by omega
    -- an older frame is an older object
    have holder : ∀ g, g < r.frameTable.used → ¬ Shown r' g obj := by
      intro g hg hs
      obtain ⟨o, ho⟩ := hr.shown g hg
      obtain rfl := (hadds.shown g o hg ho).unique hs
      exact absurd ho.old (Nat.not_lt.mpr hframe.newObj)
    have hlists : r'.frameTable.free ++ r'.frameTable.allocated = r.frameTable.allocated ++ [f] := by
      rw [hfree', hallocated, List.nil_append]
    have honce := hr.once
    rw [hfree, List.nil_append] at honce
    refine ⟨hgrow.rooted hr.rooted, ?_, ?_, ?_, ?_⟩
    · intro g hg
      rcases hold g hg with rfl | hg
      · exact ⟨obj, hnew⟩
      · obtain ⟨o, ho⟩ := hr.shown g hg
        exact ⟨o, hadds.shown g o hg ho⟩
    · intro g₁ g₂ o h₁ h₂ hs₁ hs₂
      rcases hold g₁ h₁ with rfl | h₁ <;> rcases hold g₂ h₂ with rfl | h₂
      · rfl
      · obtain rfl := hnew.unique hs₁
        exact absurd hs₂ (holder g₂ h₂)
      · obtain rfl := hnew.unique hs₂
        exact absurd hs₁ (holder g₁ h₁)
      · obtain ⟨o₁, ho₁⟩ := hr.shown g₁ h₁
        obtain ⟨o₂, ho₂⟩ := hr.shown g₂ h₂
        obtain rfl := (hadds.shown g₁ o₁ h₁ ho₁).unique hs₁
        obtain rfl := (hadds.shown g₂ o₂ h₂ ho₂).unique hs₂
        exact hr.distinct g₁ g₂ _ h₁ h₂ ho₁ ho₂
    · intro g hg
      rw [hlists] at hg
      rcases List.mem_append.mp hg with hg | hg
      · have := hr.held_used hg
        omega
      · obtain rfl := List.mem_singleton.mp hg
        omega
    · rw [hlists]
      exact honce.append (List.nodup_singleton f) (List.disjoint_singleton.mpr hfresh)

/-! ## Steps that touch one slot -/

/-- The slot is empty, or holds a copy. -/
def Loose (k : Kernel) (c : Slot) : Prop :=
  ∀ cap, k.caps c = some cap → ∃ obj access m, cap = .frame obj false access m

/-- Only the slot `c` and the pages in `A` of `vs` change. -/
structure Slotted (vs : VSpaceId) (A : Set Nat) (c : Slot) (r r' : Res) : Prop where
  allocated : ∀ c', c' ≠ c → r.cspace.Allocated c' → r'.cspace.Allocated c'
  caps : ∀ c', c' ≠ c → r'.kernel.caps c' = r.kernel.caps c'
  pages : ∀ vs' va, ¬ (vs' = vs ∧ va ∈ A) → r'.kernel.pages vs' va = r.kernel.pages vs' va
  mem : r'.kernel.mem = r.kernel.mem
  nextObj : r'.kernel.nextObj = r.kernel.nextObj
  frameTable : r'.frameTable = r.frameTable

namespace Slotted

variable {c : Slot} {cap : Cap}

theorem ne_of_cap (hc : Loose r.kernel c) {c' : Slot} (h : r.kernel.caps c' = some cap)
    (hcap : ∀ obj access m, cap ≠ .frame obj false access m) : c' ≠ c := by
  rintro rfl
  obtain ⟨obj, access, m, rfl⟩ := hc cap h
  exact hcap obj access m rfl

theorem shown (h : Slotted vs A c r r') (hvs : vs ≠ rootVSpace) (hc : Loose r.kernel c)
    (hs : Shown r f obj) : Shown r' f obj := by
  have hne : r.frameTable.cap f ≠ c := ne_of_cap hc hs.cap (by simp)
  have ht := h.frameTable
  refine ⟨?_, ?_, ?_, ?_⟩
  · rw [ht]
    exact h.allocated _ hne hs.allocated
  · rw [ht, h.caps _ hne]
    exact hs.cap
  · rw [h.pages _ _ fun hA => hvs hA.1.symm]
    exact hs.page
  · rw [h.nextObj]
    exact hs.old

theorem frames (h : Slotted vs A c r r') (hvs : vs ≠ rootVSpace) (hc : Loose r.kernel c)
    (hr : Frames r) : Frames r' := by
  have ht := h.frameTable
  have hroot : rootVSpaceSlot ≠ c := ne_of_cap hc hr.rooted.cap (by simp)
  refine hr.carry ⟨h.allocated _ hroot hr.rooted.allocated, ?_⟩ (by rw [ht]) (by rw [ht])
    fun f obj _ hs => h.shown hvs hc hs
  exact (h.caps _ hroot).trans hr.rooted.cap

/-- A slot that was not in use at the start. -/
theorem adds (h : Slotted vs A c r₁ r₂) (hvs : vs ≠ rootVSpace) (hc : Loose r₁.kernel c)
    (hb : Adds vs A r r₁) (hfresh : ¬ r.cspace.Allocated c) : Adds vs A r r₂ := by
  have ht := h.frameTable
  have hne : ∀ c', r.cspace.Allocated c' → c' ≠ c := fun c' hc' heq => hfresh (heq ▸ hc')
  exact {
    allocated := fun c' hc' => h.allocated c' (hne c' hc') (hb.allocated c' hc')
    caps := fun c' hc' => (h.caps c' (hne c' hc')).trans (hb.caps c' hc')
    shown := fun f obj hf hs => h.shown hvs hc (hb.shown f obj hf hs)
    used := by
      rw [ht]
      exact hb.used
    frameCap := fun f hf => by
      rw [ht]
      exact hb.frameCap f hf
    held := fun f hf => by
      rw [ht]
      exact hb.held f hf
    mem := fun f hf obj hs => by
      rw [h.mem]
      exact hb.mem f hf obj hs
    pages := fun vs' va hne hno => (h.pages vs' va hno).trans (hb.pages vs' va hne hno) }

/-- Mapping a copy enters one page. -/
theorem enterPage {va : Nat} {obj : Nat} {access : Access} {rights : CapRights} (r : Res)
    (hva : va ∈ A) : Slotted vs A c r
      { r with kernel := r.kernel.enterPage c obj false access vs va rights } where
  allocated _ _ h := h
  caps c' hne := Function.update_of_ne hne _ _
  pages vs' va' hno := by
    simp only [Kernel.enterPage, Kernel.setPage]
    by_cases hvs : vs' = vs
    · subst hvs
      have hva' : va' ≠ va := fun heq => hno ⟨rfl, heq ▸ hva⟩
      rw [Function.update_self, Function.update_of_ne hva']
      rfl
    · rw [Function.update_of_ne hvs]
      rfl
  mem := rfl
  nextObj := rfl
  frameTable := rfl

/-- Deleting a copy that is not mapped. -/
theorem delete {obj : Nat} {access : Access}
    (hc : r.kernel.caps c = some (.frame obj false access none)) :
    Slotted vs A c r { r with kernel := r.kernel.delete c } := by
  have heq : r.kernel.delete c = r.kernel.setCap c none := by
    unfold Kernel.delete
    rw [hc]
    rfl
  exact {
    allocated := fun _ _ h => h
    caps := fun c' hne => Kernel.delete_caps_of_ne hne
    pages := fun _ _ _ => by rw [heq]; rfl
    mem := by rw [heq]; rfl
    nextObj := by rw [heq]; rfl
    frameTable := rfl }

theorem slotFreed (h : SlotFreed c r r') : Slotted vs A c r r' where
  allocated c' hne hc' := (h.others c' hne).mpr hc'
  caps _ _ := by rw [h.eq]
  pages _ _ _ := by rw [h.eq]
  mem := by rw [h.eq]
  nextObj := by rw [h.eq]
  frameTable := by rw [h.eq]

end Slotted

/-! ## Bytes and the free list -/

theorem Frames.write (hr : Frames r) (obj : Nat) (bytes : Nat → Nat) :
    Frames { r with kernel := r.kernel.writeMem obj bytes } :=
  hr.carry ⟨hr.rooted.allocated, hr.rooted.cap⟩ rfl (.refl _) fun _ _ _ hs =>
    ⟨hs.allocated, hs.cap, hs.page, hs.old⟩

/-- Writing to a frame that was not in use at the start. -/
theorem Adds.write (h : Adds vs A r r₁) (hr : Frames r) (hr₁ : Frames r₁)
    (hf : f < r₁.frameTable.used) (hs : Shown r₁ f obj) (hnew : f ∉ r.frameTable.allocated)
    (bytes : Nat → Nat) : Adds vs A r { r₁ with kernel := r₁.kernel.writeMem obj bytes } :=
  { h with
    shown := fun g o hg ho =>
      have hs' := h.shown g o hg ho
      ⟨hs'.allocated, hs'.cap, hs'.page, hs'.old⟩
    mem := fun g hg o ho => by
      have hused := hr.held_used hg
      have hne : o ≠ obj := hr₁.ne_of_ne hf (hused.trans_le h.used)
        (fun heq => hnew (heq ▸ hg)) hs (h.shown g o hused ho)
      exact (Function.update_of_ne hne _ _).trans (h.mem g hg o ho) }

/-- `free_frame` on the lists. -/
def Res.freed (r : Res) (f : Nat) : Res :=
  { r with frameTable :=
      { r.frameTable with
        free := f :: r.frameTable.free
        allocated := r.frameTable.allocated.erase f } }

theorem Frames.freed (hr : Frames r) (hf : f ∈ r.frameTable.allocated) : Frames (r.freed f) := by
  have hperm : (f :: r.frameTable.free ++ r.frameTable.allocated.erase f).Perm
      (r.frameTable.free ++ r.frameTable.allocated) :=
    List.perm_middle.symm.trans ((List.perm_cons_erase hf).symm.append_left _)
  exact hr.carry ⟨hr.rooted.allocated, hr.rooted.cap⟩ rfl hperm fun _ _ _ hs =>
    ⟨hs.allocated, hs.cap, hs.page, hs.old⟩

theorem Adds.freed (h : Adds vs A r r₁) (hnew : f ∉ r.frameTable.allocated) :
    Adds vs A r (r₁.freed f) :=
  { h with
    shown := fun g o hg ho =>
      have hs' := h.shown g o hg ho
      ⟨hs'.allocated, hs'.cap, hs'.page, hs'.old⟩
    held := fun g hg => by
      have hne : g ≠ f := fun heq => hnew (heq ▸ hg)
      exact (List.mem_erase_of_ne hne).mpr (h.held g hg) }

theorem freeFrame_freed {ε : Type} (f : Nat) : (freeFrame f : RProg ε Unit).wp
    (fun _ r' => f ∈ r.frameTable.allocated ∧ r' = r.freed f) (fun _ _ => False) Panic.Low r := by
  simp only [freeFrame, Prog.wp_bind, Prog.wp_gets, Prog.wp_assert, modifyFrameTable,
    Prog.wp_modify, decide_eq_true_eq]
  exact ⟨fun _ => ⟨fun hf => ⟨hf, rfl⟩, fun _ => by decide⟩, fun _ => by decide⟩

end Invariant

end Smos.RootServer
