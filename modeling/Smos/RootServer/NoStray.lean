/-
Smos.RootServer.NoStray — capabilities only in slots that are in use.

The kernel refuses to put a capability into a slot that holds one. So if no
capability is left in a slot that `alloc_slot` may hand out, retyping into a
new slot succeeds, and when `map_frame` answers `DeleteFirst` it is because
the page is mapped already.
-/
import Smos.RootServer.Allocators
import Smos.RootServer.KernelSpecs
import Smos.RootServer.ResourceSpecs

namespace Smos.RootServer

open Smos.Base

/-- A slot that holds a capability is in use. -/
def NoStray (r : Res) : Prop := ∀ c, r.kernel.caps c ≠ none → r.cspace.Allocated c

namespace NoStray

variable {r r' r₁ : Res} {c vspace : Slot}

theorem empty (h : NoStray r) (hc : ¬ r.cspace.Allocated c) : r.kernel.caps c = none := by
  by_contra hne
  exact hc (h c hne)

/-- Slots were taken, and the slot `c`, which is in use, was given a capability. -/
theorem set (h : NoStray r) (hall : ∀ c', r.cspace.Allocated c' → r'.cspace.Allocated c')
    (hc : r'.cspace.Allocated c) (hcaps : ∀ c', c' ≠ c → r'.kernel.caps c' = r.kernel.caps c') :
    NoStray r' := by
  intro c' hc'
  by_cases heq : c' = c
  · rwa [heq]
  · rw [hcaps c' heq] at hc'
    exact hall c' (h c' hc')

theorem congr (h : NoStray r) (hall : ∀ c', r.cspace.Allocated c' → r'.cspace.Allocated c')
    (hcaps : ∀ c', r'.kernel.caps c' ≠ none → r.kernel.caps c' ≠ none) : NoStray r' :=
  fun c' hc' => hall c' (h c' (hcaps c' hc'))

/-! ## The steps of the allocators -/

theorem alloc4kUntyped (h : NoStray r) : alloc4kUntyped.wp
    (fun _ r' => NoStray r' ∧ r'.kernel = r.kernel ∧ r'.cspace = r.cspace)
    (fun e r' => NoStray r' ∧ e = .notEnoughMemory) (fun _ => True) r := by
  simp only [RootServer.alloc4kUntyped, Prog.wp_bind, Prog.wp_gets]
  cases r.ut.freeUntypeds pageBits4K with
  | nil => exact ⟨h, rfl⟩
  | cons ut rest => exact ⟨h, rfl, rfl⟩

theorem allocSlot (h : NoStray r) : allocSlot.wp
    (fun c r' => NoStray r' ∧ r'.kernel = r.kernel ∧ r'.cspace.Allocated c ∧
      r'.kernel.caps c = none)
    (fun _ r' => NoStray r') (fun _ => True) r := by
  refine Prog.wp_mono (allocSlot_spec (.refl r)) ?_ ?_ fun _ _ => trivial
  · rintro c r' ⟨hq, hfresh, -, hheld, hk, -⟩
    refine ⟨h.congr hq.grow.allocated (fun c' => by rw [hk]; exact id), hk, hheld, ?_⟩
    rw [hk]
    exact h.empty hfresh
  · rintro e r' ⟨hq, hk⟩
    exact h.congr hq.grow.allocated fun c' => by rw [hk]; exact id

theorem freeSlot {ε : Type} (h : NoStray r) (hc : r.kernel.caps c = none) :
    (freeSlot c : RProg ε Unit).wp (fun _ r' => NoStray r') (fun _ _ => False) (fun _ => True) r := by
  simp only [RootServer.freeSlot, Prog.wp_zoom]
  refine Prog.wp_mono (CSpace.freeSlot_spec r.cspace c) ?_ (fun _ _ hf => hf) fun _ _ => trivial
  rintro _ cs ⟨hothers, -⟩ c' hc'
  have hne : c' ≠ c := by
    rintro rfl
    exact hc' hc
  exact (hothers c' hne).mpr (h c' hc')

theorem deleteCap {ε : Type} (h : NoStray r) : (deleteCap c : RProg ε Unit).wp
    (fun _ r' => NoStray r' ∧ r'.kernel.caps c = none) (fun _ _ => False) (fun _ => True) r := by
  simp only [RootServer.deleteCap, kmodify, Prog.wp_modify]
  refine ⟨h.congr (fun _ hc => hc) fun c' hc' => ?_, Kernel.delete_caps_self _ _⟩
  intro hnone
  refine hc' ?_
  show (r.kernel.delete c).caps c' = none
  rw [Kernel.delete_caps]
  by_cases heq : c' = c
  · rw [heq, Function.update_self]
  · rw [Function.update_of_ne heq, hnone]

/-- Retyping into an empty slot succeeds, if there is room. -/
theorem untypedRetype (h : NoStray r) {bp : ObjectBlueprint} (hc : r.cspace.Allocated c)
    (hnone : r.kernel.caps c = none) : (untypedRetype bp c).wp
    (fun _ r' => NoStray r' ∧ r.kernel.untypedRetype bp c = .ok r'.kernel ∧ r'.cspace = r.cspace)
    (fun e r' => r' = r ∧ e = .notEnoughMemory) (fun _ => True) r := by
  simp only [RootServer.untypedRetype, kcall, Prog.wp_zoom, Prog.wp_ofExcept]
  refine ⟨fun k hk => ⟨?_, hk, trivial⟩, fun e he =>
    ⟨trivial, Kernel.untypedRetype_error hnone he⟩⟩
  obtain ⟨-, rfl⟩ := Kernel.untypedRetype_ok hk
  exact h.set (fun _ hc => hc) hc fun c' hne => Function.update_of_ne hne _ _

/-! ## Mapping a frame -/

/-- A frame in the slot `c`, not mapped yet, is to be mapped at a page of the address space in
`vspace`, which is not the root server's. -/
structure Mappable (r : Res) (c vspace : Slot) (vs : VSpaceId) : Prop where
  cap : ∃ obj orig access, r.kernel.caps c = some (.frame obj orig access none)
  capHeld : r.cspace.Allocated c
  space : r.kernel.caps vspace = some (.vspace vs)
  spaceHeld : r.cspace.Allocated vspace
  user : vs ≠ rootVSpace

theorem Mappable.quiet {vs : VSpaceId} (h : Mappable r c vspace vs) (hq : Quiet r r₁) :
    Mappable r₁ c vspace vs where
  cap := by
    obtain ⟨obj, orig, access, hc⟩ := h.cap
    exact ⟨obj, orig, access, (hq.grow.caps c h.capHeld).trans hc⟩
  capHeld := hq.grow.allocated _ h.capHeld
  space := (hq.grow.caps _ h.spaceHeld).trans h.space
  spaceHeld := hq.grow.allocated _ h.spaceHeld
  user := h.user

/-- Why a frame that is not mapped yet cannot be mapped. -/
theorem frameMap_error {vs : VSpaceId} {vaddr : Nat} {rights : CapRights} {e : Sel4Error}
    (h : Mappable r c vspace vs) (he : r.kernel.frameMap c vspace vaddr rights = .error e) :
    (e = .failedLookup → r.kernel.hasTables vs vaddr = false) ∧
      (e = .deleteFirst → r.kernel.pages vs vaddr ≠ none) := by
  obtain ⟨obj, orig, access, hc⟩ := h.cap
  unfold Kernel.frameMap at he
  rw [hc, h.space] at he
  simp only at he
  split at he
  · cases he
    exact ⟨fun h => (by cases h), fun h => (by cases h)⟩
  split at he
  · cases he
    exact ⟨fun h => (by cases h), fun h => (by cases h)⟩
  split at he
  · next htables =>
    cases he
    exact ⟨fun _ => htables, fun h => (by cases h)⟩
  split at he
  · next hpage =>
    cases he
    refine ⟨fun h => (by cases h), fun _ hnone => ?_⟩
    rw [hnone] at hpage
    cases hpage.1
  · cases he

theorem frameMap (h : NoStray r) (vaddr : Nat) (rights : CapRights) :
    (frameMap c vspace vaddr rights).wp (fun _ r' => NoStray r')
      (fun e r' => r' = r ∧ r.kernel.frameMap c vspace vaddr rights = .error e)
      (fun _ => True) r := by
  simp only [RootServer.frameMap, kcall, Prog.wp_zoom, Prog.wp_ofExcept]
  refine ⟨fun k hk => ?_, fun e he => ⟨trivial, he⟩⟩
  obtain ⟨obj, orig, access, m, vs, hc, -, -, -, rfl⟩ := Kernel.frameMap_ok hk
  refine h.set (fun _ hc => hc) (h c (by rw [hc]; simp)) fun c' hne => ?_
  exact Function.update_of_ne hne _ _

theorem ptMap_caps {k k' : Kernel} {vaddr : Nat} (hk : k.ptMap c vspace vaddr = .ok k') :
    k.caps c ≠ none ∧ ∀ c', c' ≠ c → k'.caps c' = k.caps c' := by
  unfold Kernel.ptMap at hk
  split at hk
  · next hc _ =>
    split at hk
    · cases hk
    · cases hk
      exact ⟨by rw [hc]; simp, fun c' hne => Kernel.setCap_caps_of_ne hne _⟩
  all_goals cases hk

/-- A table in hand is installed if one is missing. -/
theorem ptMap_missing {k : Kernel} {vs : VSpaceId} {vaddr : Nat}
    (hc : k.caps c = some (.pageTable false)) (hspace : k.caps vspace = some (.vspace vs))
    (hmissing : k.hasTables vs vaddr = false) : ∃ k', k.ptMap c vspace vaddr = .ok k' := by
  unfold Kernel.hasTables at hmissing
  rw [List.all_eq_false] at hmissing
  obtain ⟨sh, hsh, hno⟩ := hmissing
  have hfind : (Kernel.tableShifts.find? fun sh => !k.tables vs sh (vaddr >>> sh)).isSome :=
    List.find?_isSome.mpr ⟨sh, hsh, by simpa using hno⟩
  obtain ⟨sh', hsh'⟩ := Option.isSome_iff_exists.mp hfind
  unfold Kernel.ptMap
  rw [hc, hspace]
  simp only [hsh']
  exact ⟨_, rfl⟩

/-- A page table in a new slot. -/
theorem retypeMapPt (h : NoStray r) (hc : r.cspace.Allocated c) (hnone : r.kernel.caps c = none)
    (vaddr : Nat) : (retypeMapPt vspace vaddr c).wp (fun _ r' => NoStray r')
    (fun e r' => NoStray r' ∧ (e ≠ .notEnoughMemory → ∀ vs,
      r.kernel.caps vspace = some (.vspace vs) → r.kernel.hasTables vs vaddr = true))
    (fun _ => True) r := by
  simp only [RootServer.retypeMapPt, Prog.wp_bind]
  refine Prog.wp_mono (h.untypedRetype hc hnone) ?_ ?_ fun _ _ => trivial
  swap
  · rintro e _ ⟨rfl, rfl⟩
    exact ⟨h, fun hne => absurd rfl hne⟩
  rintro _ r₁ ⟨h₁, hk, hcs⟩
  simp only [kcall, Prog.wp_zoom, Prog.wp_ofExcept]
  refine ⟨fun k hpt => ?_, fun _ hpt => ⟨h₁, fun _ vs hspace => ?_⟩⟩
  · exact h₁.set (fun _ hc => hc) (h₁ c (ptMap_caps hpt).1) (ptMap_caps hpt).2
  · by_contra hmissing
    have hne : vspace ≠ c := by
      rintro rfl
      rw [hnone] at hspace
      cases hspace
    obtain ⟨-, heq⟩ := Kernel.untypedRetype_ok hk
    have hmissing₁ : r₁.kernel.hasTables vs vaddr = false := by
      rw [heq]
      exact Bool.eq_false_iff.mpr hmissing
    have hc₁ : r₁.kernel.caps c = some (.pageTable false) := by
      rw [heq]
      exact Function.update_self ..
    have hspace₁ : r₁.kernel.caps vspace = some (.vspace vs) := by
      rw [heq]
      exact (Function.update_of_ne hne _ _).trans hspace
    obtain ⟨k', hok⟩ := ptMap_missing hc₁ hspace₁ hmissing₁
    rw [hok] at hpt
    cases hpt

theorem retypeMapPt_quiet (h : Quiet r r₁) (hc : ¬ r.cspace.Allocated c) (vaddr : Nat) :
    (RootServer.retypeMapPt vspace vaddr c).wp (fun _ r₂ => Quiet r r₂) (fun _ r₂ => Quiet r r₂)
      (fun _ => True) r₁ := by
  simp only [RootServer.retypeMapPt, Prog.wp_bind]
  refine Prog.wp_mono (untypedRetype_spec h hc) ?_ ?_ fun _ _ => trivial
  · rintro _ r₂ ⟨h₂, -, -⟩
    simp only [kcall, Prog.wp_zoom, Prog.wp_ofExcept]
    exact ⟨fun k hk => h₂.kernel (h₂.grow.ptMap hc hk), fun _ _ => h₂⟩
  · rintro e r₂ rfl
    exact h

/-- `DeleteFirst` is not an answer of `alloc_slot`. -/
theorem allocSlot_error : RootServer.allocSlot.wp (fun _ _ => True) (fun e _ => e ≠ .deleteFirst)
    (fun _ => True) r := by
  simp [RootServer.allocSlot, CSpace.allocSlot]

/-- What the answer so far says: nothing is mapped yet, and why. -/
structure Pending (r : Res) (c vspace : Slot) (vaddr : Nat) (err : Except Sel4Error Unit)
    (r₁ : Res) : Prop where
  noStray : NoStray r₁
  quiet : ∀ e, err = .error e → Quiet r r₁
  missing : ∀ vs, Mappable r c vspace vs → err = .error .failedLookup →
    r₁.kernel.hasTables vs vaddr = false
  taken : ∀ vs, Mappable r c vspace vs → err = .error .deleteFirst →
    r.kernel.pages vs vaddr ≠ none

variable {vaddr : Nat} {rights : CapRights}

/-- An attempt to map the frame after some quiet steps. -/
theorem frameMap_pending (h : NoStray r₁) (hq : Quiet r r₁) :
    (RootServer.frameMap c vspace vaddr rights).wp
      (fun u r₂ => Pending r c vspace vaddr (.ok u) r₂)
      (fun e r₂ => Pending r c vspace vaddr (.error e) r₂) (fun _ => True) r₁ := by
  refine Prog.wp_mono (h.frameMap vaddr rights) ?_ ?_ fun _ _ => trivial
  · intro u r₂ h₂
    exact ⟨h₂, fun _ he => (by cases he), fun _ _ he => (by cases he), fun _ _ he => (by cases he)⟩
  · rintro e r₂ ⟨rfl, he⟩
    refine ⟨h, fun _ _ => hq, fun vs hm heq => ?_, fun vs hm heq => ?_⟩
    · cases heq
      exact (frameMap_error (hm.quiet hq) he).1 rfl
    · cases heq
      rw [← hq.grow.pages vs vaddr hm.user]
      exact (frameMap_error (hm.quiet hq) he).2 rfl

theorem mapFrameLoop : ∀ (n : Nat) {err : Except Sel4Error Unit} {r₁ : Res},
    Pending r c vspace vaddr err r₁ →
    (mapFrameLoop c vspace vaddr rights n err).wp
      (fun err r₂ => Pending r c vspace vaddr err r₂)
      (fun e r₂ => NoStray r₂ ∧ e ≠ .deleteFirst) (fun _ => True) r₁
  | 0, err, r₁, h => by
    unfold RootServer.mapFrameLoop
    exact h
  | n + 1, .ok (), r₁, h => by
    unfold RootServer.mapFrameLoop
    exact h
  | n + 1, .error e, r₁, h => by
    cases e with
    | failedLookup =>
      have hq := h.quiet _ rfl
      simp only [RootServer.mapFrameLoop, Prog.wp_bind]
      refine Prog.wp_mono (Prog.wp_and (alloc4kUntyped_spec hq) h.noStray.alloc4kUntyped) ?_ ?_
        fun _ _ => trivial
      · rintro ut r₂ ⟨⟨hq₂, -, -⟩, h₂, hk₂, -⟩
        refine Prog.wp_mono (Prog.wp_and (allocSlot_spec hq₂) (Prog.wp_and h₂.allocSlot
          allocSlot_error)) ?_ ?_ fun _ _ => trivial
        · rintro slot r₃ ⟨⟨hq₃, hfresh, -, -, hk₃, -⟩, ⟨h₃, -, hheld, hnone⟩, -⟩
          simp only [Prog.wp_ite, Prog.wp_fail]
          refine ⟨fun _ => ⟨h₃, by decide⟩, fun _ => ?_⟩
          simp only [Prog.wp_bind, Prog.wp_attempt]
          refine Prog.wp_mono (Prog.wp_and (retypeMapPt_quiet hq₃ hfresh vaddr)
            (h₃.retypeMapPt hheld hnone vaddr)) ?_ ?_ fun _ _ => trivial
          · rintro _ r₄ ⟨hq₄, h₄⟩
            exact Prog.wp_mono (frameMap_pending h₄ hq₄) (fun _ _ h₅ => mapFrameLoop n h₅)
              (fun _ _ h₅ => mapFrameLoop n h₅) fun _ _ => trivial
          · rintro e r₄ ⟨hq₄, h₄, htables⟩
            -- a table was missing, so it could be installed, or there was no room for it
            have hno : ∀ vs, Mappable r c vspace vs → e = .notEnoughMemory := by
              intro vs hm
              by_contra hne
              have hmissing := h.missing vs hm rfl
              have htrue := htables hne vs (hm.quiet hq₃).space
              rw [hk₃, hk₂, hmissing] at htrue
              cases htrue
            refine mapFrameLoop n ⟨h₄, fun _ _ => hq₄, fun vs hm he => ?_, fun vs hm he => ?_⟩
            all_goals
              rw [hno vs hm] at he
              cases he
        · rintro e r₃ ⟨-, h₃, hne⟩
          exact ⟨h₃, hne⟩
      · rintro e r₂ ⟨-, h₂, rfl⟩
        exact ⟨h₂, by decide⟩
    | _ =>
      unfold RootServer.mapFrameLoop
      exact h

/-- `map_frame` answers `DeleteFirst` only if the page is mapped already. -/
theorem mapFrame (h : NoStray r) : (mapFrame c vspace vaddr rights).wp (fun _ r' => NoStray r')
    (fun e r' => NoStray r' ∧ ∀ vs, Mappable r c vspace vs → e = .deleteFirst →
      r.kernel.pages vs vaddr ≠ none) (fun _ => True) r := by
  unfold RootServer.mapFrame
  simp only [Prog.wp_bind, Prog.wp_attempt]
  refine Prog.wp_mono (frameMap_pending h (.refl r)) (fun _ _ h₁ => ?_) (fun _ _ h₁ => ?_)
    fun _ _ => trivial
  -- the loop is the same, however the first call ended
  all_goals
    refine Prog.wp_mono (mapFrameLoop mappingSlots h₁) ?_ ?_ fun _ _ => trivial
    · intro err r₂ h₂
      cases err with
      | ok u => exact h₂.noStray
      | error e => exact ⟨h₂.noStray, fun vs hm he => h₂.taken vs hm (by rw [he])⟩
    · intro e r₂ hpost
      exact ⟨hpost.1, fun _ _ he => absurd he hpost.2⟩

/-! ## Frames -/

theorem allocFrameAt (h : NoStray r) (vaddr : Nat) : (allocFrameAt vaddr).wp
    (fun _ r' => NoStray r') (fun _ r' => NoStray r') (fun _ => True) r := by
  have hfree : ∀ {r' : Res} (ut : UT), NoStray r' → NoStray { r' with ut := { r'.ut with
      freeUntypeds := Function.update r'.ut.freeUntypeds ut.sizeBits
        (ut :: r'.ut.freeUntypeds ut.sizeBits) } } := fun _ h' => h'
  simp only [RootServer.allocFrameAt, Prog.wp_bind, Prog.wp_catchErr, utFree, modifyUt,
    Prog.wp_modify, Prog.wp_fail]
  refine Prog.wp_mono h.alloc4kUntyped ?_ (fun _ _ h' => h'.1) fun _ _ => trivial
  rintro ut r₁ ⟨h₁, -, -⟩
  refine Prog.wp_mono h₁.allocSlot ?_ (fun _ _ h' => hfree ut h') fun _ _ => trivial
  rintro c r₂ ⟨h₂, -, hheld, hnone⟩
  refine Prog.wp_mono (h₂.untypedRetype hheld hnone) ?_ ?_ fun _ _ => trivial
  swap
  · rintro _ _ ⟨rfl, -⟩
    refine Prog.wp_mono (h₂.freeSlot hnone) ?_ (fun _ _ hf => hf.elim) fun _ _ => trivial
    exact fun _ r₃ h₃ => hfree ut h₃
  rintro _ r₃ ⟨h₃, -, -⟩
  refine Prog.wp_mono (h₃.mapFrame) (fun _ _ h' => h') ?_ fun _ _ => trivial
  rintro e r₄ ⟨h₄, -⟩
  refine Prog.wp_mono h₄.deleteCap ?_ (fun _ _ hf => hf.elim) fun _ _ => trivial
  rintro _ r₅ ⟨h₅, hnone₅⟩
  refine Prog.wp_mono (h₅.freeSlot hnone₅) ?_ (fun _ _ hf => hf.elim) fun _ _ => trivial
  exact fun _ r₆ h₆ => hfree ut h₆

theorem allocFrame (h : NoStray r) : allocFrame.wp
    (fun _ r' => NoStray r') (fun _ r' => NoStray r') (fun _ => True) r := by
  have hat : ∀ vaddr, ResProg NoStray (RootServer.allocFrameAt vaddr) := fun vaddr r hr =>
    Prog.wp_mono (hr.allocFrameAt vaddr) (fun _ _ h' => ⟨trivial, h'⟩) (fun _ _ h' => h')
      fun _ hp => hp
  exact Prog.wp_mono (allocFrame_keeps_of hat (fun _ _ h => h) r h) (fun _ _ h' => h'.2)
    (fun _ _ h' => h') fun _ hp => hp

end NoStray

end Smos.RootServer
