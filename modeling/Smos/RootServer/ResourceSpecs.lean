/-
Smos.RootServer.ResourceSpecs — one specification for each allocator.

Every allocator moves along `Grow`, whether it succeeds or fails; `Quiet`
adds that it leaves the frame table and the device ranges alone. Beyond
that, `allocSlot` answers a slot nobody had, `mapFrame` is one `frameMap`
after some quiet steps, and `allocFrame` takes the first free frame or
makes one. None of them panics at an insertion into a radix table.
-/
import Smos.RootServer.Grow

namespace Smos.RootServer

open Smos.Base

/-- `Grow`, with the frame table and the device ranges left alone. -/
structure Quiet (r r' : Res) : Prop where
  grow : Grow r r'
  frameTable : r'.frameTable = r.frameTable
  devices : r'.deviceAllocations = r.deviceAllocations

namespace Quiet

variable {r r₁ r₂ : Res}

protected theorem refl (r : Res) : Quiet r r := ⟨.refl r, rfl, rfl⟩

protected theorem trans (h : Quiet r r₁) (h' : Quiet r₁ r₂) : Quiet r r₂ :=
  ⟨h.grow.trans h'.grow, h'.frameTable.trans h.frameTable, h'.devices.trans h.devices⟩

theorem ut (h : Quiet r r₁) (u : UTTable) : Quiet r { r₁ with ut := u } :=
  ⟨h.grow.congr rfl rfl, h.frameTable, h.devices⟩

theorem kernel (h : Quiet r r₁) {k : Kernel} (hg : Grow r { r₁ with kernel := k }) :
    Quiet r { r₁ with kernel := k } := ⟨hg, h.frameTable, h.devices⟩

end Quiet

section Specs

variable {r r₁ : Res} {ε : Type}

/-! ## Slots and untypeds -/

theorem allocSlot_spec (h : Quiet r r₁) :
    allocSlot.wp
      (fun c r₂ => Quiet r r₂ ∧ ¬ r.cspace.Allocated c ∧ ¬ r₁.cspace.Allocated c ∧
        r₂.cspace.Allocated c ∧ r₂.kernel = r₁.kernel ∧
        ∀ c', r₂.cspace.Allocated c' ↔ r₁.cspace.Allocated c' ∨ c' = c)
      (fun _ r₂ => Quiet r r₂ ∧ r₂.kernel = r₁.kernel) Panic.Low r₁ := by
  simp only [allocSlot, Prog.wp_zoom]
  refine Prog.wp_mono (CSpace.allocSlot_spec r₁.cspace) ?_ ?_ fun _ hp => hp
  · rintro c cs ⟨hn, hall⟩
    exact ⟨⟨h.grow.cspace fun c' _ hc' => (hall c').mpr (.inl hc'), h.frameTable, h.devices⟩,
      fun hc => hn (h.grow.allocated c hc), hn, (hall c).mpr (.inr rfl), trivial, hall⟩
  · intro _ cs hmono
    exact ⟨⟨h.grow.cspace fun c' _ hc' => hmono c' hc', h.frameTable, h.devices⟩, trivial⟩

/-- `alloc_slot` on its own. -/
theorem allocSlot_cspace (r : Res) :
    allocSlot.wp
      (fun c r₂ => r₂ = { r with cspace := r₂.cspace } ∧ ¬ r.cspace.Allocated c ∧
        ∀ c', r₂.cspace.Allocated c' ↔ r.cspace.Allocated c' ∨ c' = c)
      (fun _ _ => True) Panic.Low r := by
  simp only [allocSlot, Prog.wp_zoom]
  refine Prog.wp_mono (CSpace.allocSlot_spec r.cspace) ?_ (fun _ _ _ => trivial) fun _ hp => hp
  rintro c cs ⟨hn, hall⟩
  exact ⟨trivial, hn, hall⟩

theorem freeSlot_spec (h : Quiet r r₁) {c : Slot} (hc : ¬ r.cspace.Allocated c) :
    (freeSlot c : RProg ε Unit).wp
      (fun _ r₂ => Quiet r r₂ ∧ r₂.kernel = r₁.kernel) (fun _ _ => False) Panic.Low r₁ := by
  simp only [freeSlot, Prog.wp_zoom]
  refine Prog.wp_mono (CSpace.freeSlot_spec r₁.cspace c) ?_ (fun _ _ hf => hf) fun _ hp => hp
  rintro _ cs ⟨hall, -⟩
  refine ⟨⟨h.grow.cspace fun c' hr hc' => ?_, h.frameTable, h.devices⟩, trivial⟩
  exact (hall c' fun heq => hc (heq ▸ hr)).mpr hc'

theorem alloc4kUntyped_spec (h : Quiet r r₁) :
    alloc4kUntyped.wp
      (fun _ r₂ => Quiet r r₂ ∧ r₂.kernel = r₁.kernel ∧ r₂.cspace = r₁.cspace)
      (fun _ r₂ => r₂ = r₁) Panic.Low r₁ := by
  simp only [alloc4kUntyped, Prog.wp_bind, Prog.wp_gets]
  cases r₁.ut.freeUntypeds pageBits4K with
  | nil => exact rfl
  | cons ut rest => exact ⟨h.ut _, rfl, rfl⟩

/-- Retyping into a slot that `r` did not have. -/
theorem untypedRetype_spec (h : Quiet r r₁) {bp : ObjectBlueprint} {c : Slot}
    (hc : ¬ r.cspace.Allocated c) :
    (untypedRetype bp c).wp
      (fun _ r₂ => Quiet r r₂ ∧ r₁.kernel.untypedRetype bp c = .ok r₂.kernel ∧
        r₂.cspace = r₁.cspace)
      (fun _ r₂ => r₂ = r₁) Panic.Low r₁ := by
  simp only [untypedRetype, kcall, Prog.wp_zoom, Prog.wp_ofExcept]
  exact ⟨fun k hk => ⟨h.kernel (h.grow.untypedRetype hc hk), hk, trivial⟩, fun _ _ => trivial⟩

/-! ## Mapping -/

/-- `r₂` is what one `frameMap` makes of resources that grew from `r`. -/
def MapsFrom (r : Res) (c vspace : Slot) (vaddr : Nat) (rights : CapRights) (r₂ : Res) : Prop :=
  ∃ r' k, Quiet r r' ∧ r'.kernel.frameMap c vspace vaddr rights = .ok k ∧
    r₂ = { r' with kernel := k }

theorem mapFrameLoop_spec (c vspace : Slot) (vaddr : Nat) (rights : CapRights)
    {Post : Except Sel4Error Unit → Res → Prop}
    (hPost : ∀ res r₂, Post res r₂ ↔
      (∀ e, res = .error e → Quiet r r₂) ∧
      (res = .ok () → MapsFrom r c vspace vaddr rights r₂)) :
    ∀ (n : Nat) {err : Except Sel4Error Unit} {r₁ : Res}, Post err r₁ →
      (mapFrameLoop c vspace vaddr rights n err).wp Post (fun _ r₂ => Quiet r r₂) Panic.Low r₁
  | 0, err, r₁, h => by
      unfold mapFrameLoop
      simpa using h
  | n + 1, .ok (), r₁, h => by
      unfold mapFrameLoop
      simpa using h
  | n + 1, .error e, r₁, h => by
      have hq : Quiet r r₁ := ((hPost _ _).mp h).1 e rfl
      cases e with
      | failedLookup =>
        simp only [mapFrameLoop, Prog.wp_bind]
        refine Prog.wp_mono (alloc4kUntyped_spec hq) ?_ (fun _ _ h => h ▸ hq) fun _ hp => hp
        rintro _ r₂ ⟨hq₂, -, -⟩
        refine Prog.wp_mono (allocSlot_spec hq₂) ?_ (fun _ _ h => h.1) fun _ hp => hp
        rintro slot r₃ ⟨hq₃, hslot, -, -, -⟩
        simp only [Prog.wp_ite, Prog.wp_fail]
        refine ⟨fun _ => hq₃, fun _ => ?_⟩
        simp only [Prog.wp_bind, Prog.wp_attempt, retypeMapPt]
        refine Prog.wp_mono (untypedRetype_spec hq₃ hslot) ?_ ?_ fun _ hp => hp
        · rintro _ r₄ ⟨hq₄, -, -⟩
          simp only [kcall, Prog.wp_zoom, Prog.wp_ofExcept]
          refine ⟨fun k hk => ?_, fun e _ => ?_⟩
          · have hq₅ : Quiet r { r₄ with kernel := k } := hq₄.kernel (hq₄.grow.ptMap hslot hk)
            simp only [frameMap, kcall, Prog.wp_zoom, Prog.wp_ofExcept]
            refine ⟨fun k' hk' => mapFrameLoop_spec c vspace vaddr rights hPost n ?_, fun e _ => mapFrameLoop_spec c vspace vaddr rights hPost n ?_⟩
            · exact (hPost _ _).mpr ⟨by simp, fun _ => ⟨_, k', hq₅, hk', rfl⟩⟩
            · exact (hPost _ _).mpr ⟨fun _ _ => hq₅, by simp⟩
          · exact mapFrameLoop_spec c vspace vaddr rights hPost n ((hPost _ _).mpr ⟨fun _ _ => hq₄, by simp⟩)
        · rintro e r₄ rfl
          exact mapFrameLoop_spec c vspace vaddr rights hPost n ((hPost _ _).mpr ⟨fun _ _ => hq₃, by simp⟩)
      | _ =>
        unfold mapFrameLoop
        simpa using h

/-- `map_frame` is one successful `frameMap`, after the page tables it needed. -/
theorem mapFrame_spec (r : Res) (c vspace : Slot) (vaddr : Nat) (rights : CapRights) :
    (mapFrame c vspace vaddr rights).wp
      (fun _ r₂ => MapsFrom r c vspace vaddr rights r₂) (fun _ r₂ => Quiet r r₂)
      Panic.Low r := by
  simp only [mapFrame, Prog.wp_bind, Prog.wp_attempt, frameMap, kcall, Prog.wp_zoom,
    Prog.wp_ofExcept]
  refine ⟨fun k hk => ?_, fun e _ => ?_⟩
  · refine Prog.wp_mono (mapFrameLoop_spec c vspace vaddr rights (fun _ _ => Iff.rfl)
      mappingSlots ⟨by simp, fun _ => ?_⟩) ?_ (fun _ _ h => h) fun _ hp => hp
    · exact ⟨r, k, .refl r, hk, rfl⟩
    · intro err r₂ h
      cases err with
      | error e => exact h.1 e rfl
      | ok u => exact h.2 rfl
  · refine Prog.wp_mono (mapFrameLoop_spec c vspace vaddr rights (fun _ _ => Iff.rfl)
      mappingSlots ⟨fun _ _ => .refl r, by simp⟩) ?_ (fun _ _ h => h) fun _ hp => hp
    intro err r₂ h
    cases err with
    | error e => exact h.1 e rfl
    | ok u => exact h.2 rfl

/-- A successful `frameMap` of an unmapped frame. -/
theorem frameMap_unmapped {k k' : Kernel} {c vspace : Slot} {vaddr : Nat} {rights : CapRights}
    {obj : Nat} {orig : Bool} {access : Access}
    (hc : k.caps c = some (.frame obj orig access none))
    (h : k.frameMap c vspace vaddr rights = .ok k') :
    ∃ vs, k.caps vspace = some (.vspace vs) ∧ (vs = rootVSpace → k.pages vs vaddr = none) ∧
      k' = k.enterPage c obj orig access vs vaddr rights := by
  obtain ⟨obj', orig', access', m, vs, hcap, hvs, -, hfree, rfl⟩ := Kernel.frameMap_ok h
  obtain ⟨rfl, rfl, rfl, rfl⟩ : obj = obj' ∧ orig = orig' ∧ access = access' ∧ none = m := by
    simpa using hc.symm.trans hcap
  rcases hfree with ⟨-, hnone⟩ | hmapped
  · exact ⟨vs, hvs, hnone, rfl⟩
  · cases hmapped

/-- A frame of the root server's own: made in a slot `c` that `r` did not
have, holding zeros, and mapped where the root server wants it. -/
structure RootFrame (r : Res) (c : Slot) (vaddr : Nat) (r' : Res) (obj : Nat) : Prop where
  fresh : ¬ r.cspace.Allocated c
  allocated : r'.cspace.Allocated c
  newObj : r.kernel.nextObj ≤ obj
  lt_nextObj : obj < r'.kernel.nextObj
  cap : r'.kernel.caps c = some (.frame obj true ⟨true, true⟩ (some (rootVSpace, vaddr)))
  page : r'.kernel.pages rootVSpace vaddr = some ⟨obj, ⟨true, true⟩⟩
  zero : r'.kernel.mem obj = zeroPage

theorem untypedRetype_smallPage {k k' : Kernel} {c : Slot}
    (h : k.untypedRetype .smallPage c = .ok k') :
    k'.caps c = some (.frame k.nextObj true ⟨true, true⟩ none) ∧
      k'.nextObj = k.nextObj + 1 ∧ k'.mem k.nextObj = zeroPage := by
  obtain ⟨-, rfl⟩ := Kernel.untypedRetype_ok h
  exact ⟨Function.update_self .., rfl, Function.update_self ..⟩

/-- Mapping a new frame into the root server's address space. -/
theorem mapsFrom_root {r₂ : Res} {c : Slot} {vaddr obj : Nat} (hr : Rooted r)
    (h : Quiet r r₁) (hc : ¬ r.cspace.Allocated c) (hc₁ : r₁.cspace.Allocated c)
    (hobj : r.kernel.nextObj ≤ obj) (hlt : obj < r₁.kernel.nextObj)
    (hcap : r₁.kernel.caps c = some (.frame obj true ⟨true, true⟩ none))
    (hzero : r₁.kernel.mem obj = zeroPage)
    (hm : MapsFrom r₁ c rootVSpaceSlot vaddr .all r₂) :
    Quiet r r₂ ∧ RootFrame r c vaddr r₂ obj := by
  obtain ⟨r', k, hq, hk, rfl⟩ := hm
  have hcap' : r'.kernel.caps c = some (.frame obj true ⟨true, true⟩ none) :=
    (hq.grow.caps c hc₁).trans hcap
  obtain ⟨vs, hvs, hfree, rfl⟩ := frameMap_unmapped hcap' hk
  have hroot := (h.trans hq).grow.rooted hr
  have hvs' : vs = rootVSpace := by
    have := hroot.cap.symm.trans hvs
    simpa using this.symm
  subst hvs'
  have hnone := hfree rfl
  have hqr := h.trans hq
  have hset := hqr.grow.setCap hc (some (.frame obj true ⟨true, true⟩ (some (rootVSpace, vaddr)))) (by
      intro obj' _ _ _ heq
      cases heq
      exact hobj)
  have hpage : ∀ va, (r'.kernel.enterPage c obj true ⟨true, true⟩ rootVSpace vaddr .all).pages
      rootVSpace va =
        if va = vaddr then some ⟨obj, ⟨true, true⟩⟩ else r'.kernel.pages rootVSpace va := by
    intro va
    by_cases hva : va = vaddr
    · subst hva
      simp [Kernel.enterPage, Kernel.setPage, Access.mask, CapRights.all]
    · simp [Kernel.enterPage, Kernel.setPage, Kernel.setCap, hva]
  refine ⟨⟨{ hset with
      pages := ?_, rootPages := ?_, newRootPages := ?_, log := ?_ },
      hqr.frameTable, hqr.devices⟩, ?_⟩
  · intro vs va hne
    simpa [Kernel.enterPage, Kernel.setPage, Kernel.setCap, Function.update_of_ne hne]
      using hqr.grow.pages vs va hne
  · intro va e he
    have he' := hqr.grow.rootPages va e he
    have hva : va ≠ vaddr := by
      rintro rfl
      rw [hnone] at he'
      cases he'
    exact (hpage va).trans (by rw [if_neg hva]; exact he')
  · intro va e he
    rw [show (r'.kernel.enterPage c obj true ⟨true, true⟩ rootVSpace vaddr .all).pages
      rootVSpace va = _ from hpage va] at he
    by_cases hva : va = vaddr
    · rw [if_pos hva] at he
      cases he
      exact .inr hobj
    · rw [if_neg hva] at he
      exact hqr.grow.newRootPages va e he
  · obtain ⟨evs, hl, hevs⟩ := hqr.grow.log
    refine ⟨evs ++ [.map c rootVSpace vaddr ⟨obj, Access.mask ⟨true, true⟩ .all⟩], ?_, ?_⟩
    · show r'.kernel.log ++ [_] = _
      rw [hl, List.append_assoc]
    · intro ev hev
      rcases List.mem_append.mp hev with hev | hev
      · exact hevs ev hev
      · exact ⟨_, _, _, List.mem_singleton.mp hev⟩
  · exact {
      fresh := hc
      allocated := hq.grow.allocated c hc₁
      newObj := hobj
      lt_nextObj := Nat.lt_of_lt_of_le hlt hq.grow.nextObj
      cap := by simp [Kernel.enterPage, Kernel.setPage, Kernel.setCap]
      page := by simpa using hpage vaddr
      zero := (hq.grow.mem obj hlt).trans hzero }

/-! ## Smaller untypeds -/

theorem delete_of_object {k k' : Kernel} {kind : ObjectKind} {c : Slot}
    (hk : k.untypedRetype (.other kind) c = .ok k') : k'.delete c = k'.setCap c none := by
  obtain ⟨-, rfl⟩ := Kernel.untypedRetype_ok hk
  simp [Kernel.delete, ObjectBlueprint.newCap]

theorem popStructure_spec (h : Quiet r r₁) :
    popStructure.wp
      (fun _ r₂ => Quiet r r₂ ∧ r₂.kernel = r₁.kernel ∧ r₂.cspace = r₁.cspace)
      (fun _ r₂ => r₂ = r₁) Panic.Low r₁ := by
  simp only [popStructure, Prog.wp_bind, Prog.wp_gets]
  cases r₁.ut.freeStructures with
  | nil => exact rfl
  | cons ptr rest => exact ⟨h.ut _, rfl, rfl⟩

theorem ensureNewStructures_spec (hr : Rooted r) (h : Quiet r r₁) :
    ensureNewStructures.wp (fun _ r₂ => Quiet r r₂) (fun _ r₂ => Quiet r r₂) Panic.Low r₁ := by
  simp only [ensureNewStructures, Prog.wp_bind, Prog.wp_gets, Prog.wp_ite, Prog.wp_pure]
  refine ⟨fun _ => ?_, fun _ => h⟩
  refine Prog.wp_mono (alloc4kUntyped_spec h) ?_ (fun _ _ h' => h' ▸ h) fun _ hp => hp
  rintro _ r₂ ⟨h₂, -, -⟩
  refine Prog.wp_mono (allocSlot_spec h₂) ?_ (fun _ _ h' => h'.1) fun _ hp => hp
  rintro c r₃ ⟨h₃, hc, -, hc₃, -⟩
  refine Prog.wp_mono (untypedRetype_spec h₃ hc) ?_ (fun _ _ h' => h' ▸ h₃) fun _ hp => hp
  rintro _ r₄ ⟨h₄, hk, hcs⟩
  obtain ⟨hcap, hnext, hzero⟩ := untypedRetype_smallPage hk
  have hc₄ : r₄.cspace.Allocated c := hcs ▸ hc₃
  simp only [mapFrameToNextFreeVaddr, Prog.wp_bind, Prog.wp_gets]
  refine Prog.wp_mono (mapFrame_spec r₄ c rootVSpaceSlot _ .all) ?_
    (fun _ _ h' => h₄.trans h') fun _ hp => hp
  intro _ r₅ hm
  have h₅ : Quiet r r₅ := (mapsFrom_root hr h₄ hc hc₄ h₃.grow.nextObj
    (by rw [hnext]; exact Nat.lt_succ_self _) hcap hzero hm).1
  simp only [wp_addU, modifyUt, Prog.wp_modify, Prog.wp_pure]
  refine ⟨fun _ => ?_, fun _ => by decide⟩
  exact Prog.wp_forEach (I := fun r₂ => Quiet r r₂) (h₅.ut _) fun _ _ _ h₆ => h₆.ut _

/-- Splitting keeps `Quiet` on each of its eight ways out. -/
theorem utSplit_spec (hr : Rooted r) (h : Quiet r r₁) (larger : UT) (sizeBits : Nat) :
    (utSplit larger sizeBits).wp (fun _ r₂ => Quiet r r₂) (fun _ r₂ => Quiet r r₂)
      Panic.Low r₁ := by
  simp only [utSplit, Prog.wp_bind, Prog.wp_catchErr, utFree, pushStructure, modifyUt,
    Prog.wp_modify, Prog.wp_fail]
  refine Prog.wp_mono (ensureNewStructures_spec hr h) ?_ (fun _ _ h' => h'.ut _) fun _ hp => hp
  intro _ r₂ h₂
  refine Prog.wp_mono (popStructure_spec h₂) ?_ (fun _ _ h' => h' ▸ h₂.ut _) fun _ hp => hp
  rintro new1 r₃ ⟨h₃, -, -⟩
  refine Prog.wp_mono (allocSlot_spec h₃) ?_ (fun _ _ h' => (h'.1.ut _).ut _) fun _ hp => hp
  rintro c₁ r₄ ⟨h₄, hc₁, -, -, -⟩
  refine Prog.wp_mono (popStructure_spec h₄) ?_ ?_ fun _ hp => hp
  swap
  · rintro _ _ rfl
    exact Prog.wp_mono (freeSlot_spec ((h₄.ut _).ut _) hc₁) (fun _ _ h' => h'.1)
      (fun _ _ => False.elim) fun _ hp => hp
  rintro new2 r₅ ⟨h₅, -, -⟩
  refine Prog.wp_mono (allocSlot_spec h₅) ?_ ?_ fun _ hp => hp
  swap
  · rintro _ r₆ ⟨h₆, -⟩
    exact Prog.wp_mono (freeSlot_spec ((h₆.ut _).ut _) hc₁) (fun _ _ h' => h'.1.ut _)
      (fun _ _ => False.elim) fun _ hp => hp
  rintro c₂ r₆ ⟨h₆, hc₂, -, -, -⟩
  refine Prog.wp_mono (untypedRetype_spec h₆ hc₁) ?_ ?_ fun _ hp => hp
  swap
  · rintro _ _ rfl
    refine Prog.wp_mono (freeSlot_spec ((h₆.ut _).ut _) hc₁) ?_ (fun _ _ => False.elim)
      fun _ hp => hp
    rintro _ r₇ ⟨h₇, -⟩
    exact Prog.wp_mono (freeSlot_spec (h₇.ut _) hc₂) (fun _ _ h' => h'.1)
      (fun _ _ => False.elim) fun _ hp => hp
  rintro _ r₇ ⟨h₇, hk, -⟩
  refine Prog.wp_mono (untypedRetype_spec h₇ hc₂) ?_ ?_ fun _ hp => hp
  swap
  · rintro _ _ rfl
    have hdel := h₇.kernel (h₇.grow.delete hc₁ (delete_of_object hk))
    simp only [deleteCap, kmodify, Prog.wp_modify]
    refine Prog.wp_mono (freeSlot_spec (hdel.ut _) hc₁) ?_ (fun _ _ => False.elim) fun _ hp => hp
    rintro _ r₈ ⟨h₈, -⟩
    exact Prog.wp_mono (freeSlot_spec (h₈.ut _) hc₂) (fun _ _ h' => h'.1)
      (fun _ _ => False.elim) fun _ hp => hp
  rintro _ r₈ ⟨h₈, -, -⟩
  exact (h₈.ut _).ut _

theorem utAllocBelow_spec (hr : Rooted r) : ∀ n : Nat,
    (utAllocBelow n).wp (fun _ r₂ => Quiet r r₂) (fun _ r₂ => Quiet r r₂) Panic.Low r
  | 0 => Prog.wp_mono (alloc4kUntyped_spec (.refl r)) (fun _ _ h => h.1)
      (fun _ _ h => h ▸ .refl r) fun _ hp => hp
  | n + 1 => by
      simp only [utAllocBelow, Prog.wp_bind, Prog.wp_gets, Prog.wp_ite]
      refine ⟨fun _ => ?_, fun _ => ?_⟩
      · refine Prog.wp_mono (utAllocBelow_spec hr n) ?_ (fun _ _ h => h) fun _ hp => hp
        intro larger r₁ h₁
        refine Prog.wp_mono (utSplit_spec hr h₁ larger _) ?_ (fun _ _ h => h) fun _ hp => hp
        intro _ r₂ h₂
        cases r₂.ut.freeUntypeds (pageBits4K - (n + 1)) with
        | nil => exact (by decide : Panic.Low .unwrapNone)
        | cons ut rest => exact h₂.ut _
      · cases r.ut.freeUntypeds (pageBits4K - (n + 1)) with
        | nil => exact (by decide : Panic.Low .unwrapNone)
        | cons ut rest => exact (Quiet.refl r).ut _

theorem utAlloc_spec (hr : Rooted r) (sizeBits : Nat) :
    (utAlloc sizeBits).wp (fun _ r₂ => Quiet r r₂) (fun _ r₂ => Quiet r r₂) Panic.Low r := by
  simp only [utAlloc, Prog.wp_ite, Prog.wp_fail]
  exact ⟨fun _ => .refl r, fun _ => ⟨fun _ => .refl r, fun _ => utAllocBelow_spec hr _⟩⟩

/-- `alloc_retype` answers a slot that `r` did not have, holding the new object. -/
theorem allocRetype_spec (hr : Rooted r) (bp : ObjectBlueprint) :
    (allocRetype bp).wp
      (fun x r₂ => Quiet r r₂ ∧ ¬ r.cspace.Allocated x.1 ∧ r₂.cspace.Allocated x.1 ∧
        ∃ k : Kernel, k.untypedRetype bp x.1 = .ok r₂.kernel ∧
          r.kernel.nextObj ≤ k.nextObj)
      (fun _ r₂ => Quiet r r₂) Panic.Low r := by
  simp only [allocRetype, Prog.wp_bind, Prog.wp_catchErr, Prog.wp_fail, Prog.wp_pure]
  refine Prog.wp_mono (utAlloc_spec hr _) ?_ (fun _ _ h => h) fun _ hp => hp
  intro ut r₁ h₁
  simp only [utFree, modifyUt, Prog.wp_modify]
  refine Prog.wp_mono (allocSlot_spec h₁) ?_ (fun _ _ h => h.1.ut _) fun _ hp => hp
  rintro c r₂ ⟨h₂, hc, -, hc₂, -⟩
  refine Prog.wp_mono (untypedRetype_spec h₂ hc) ?_ ?_ fun _ hp => hp
  · rintro _ r₃ ⟨h₃, hk, hcs⟩
    exact ⟨h₃, hc, hcs ▸ hc₂, r₂.kernel, hk, h₂.grow.nextObj⟩
  · rintro _ _ rfl
    exact Prog.wp_mono (freeSlot_spec (h₂.ut _) hc) (fun _ _ h' => h'.1)
      (fun _ _ => False.elim) fun _ hp => hp

/-! ## The frame table -/

theorem allocFrameAt_spec (hr : Rooted r) (h : Grow r r₁) (vaddr : Nat) :
    (allocFrameAt vaddr).wp
      (fun c r₂ => Quiet r₁ r₂ ∧ ∃ obj, RootFrame r₁ c vaddr r₂ obj)
      (fun _ r₂ => Quiet r₁ r₂) Panic.Low r₁ := by
  have hr₁ := h.rooted hr
  simp only [allocFrameAt, Prog.wp_bind, Prog.wp_catchErr, utFree, modifyUt, Prog.wp_modify,
    Prog.wp_fail, Prog.wp_pure]
  refine Prog.wp_mono (alloc4kUntyped_spec (.refl r₁)) ?_ (fun _ _ h' => h' ▸ .refl r₁)
    fun _ hp => hp
  rintro ut r₂ ⟨h₂, -, -⟩
  refine Prog.wp_mono (allocSlot_spec h₂) ?_ (fun _ _ h' => h'.1.ut _) fun _ hp => hp
  rintro c r₃ ⟨h₃, hc, -, hc₃, -⟩
  refine Prog.wp_mono (untypedRetype_spec h₃ hc) ?_ ?_ fun _ hp => hp
  swap
  · rintro _ _ rfl
    exact Prog.wp_mono (freeSlot_spec h₃ hc) (fun _ _ h' => h'.1.ut _) (fun _ _ => False.elim)
      fun _ hp => hp
  rintro _ r₄ ⟨h₄, hk, hcs⟩
  obtain ⟨hcap, hnext, hzero⟩ := untypedRetype_smallPage hk
  have hc₄ : r₄.cspace.Allocated c := hcs ▸ hc₃
  refine Prog.wp_mono (mapFrame_spec r₄ c rootVSpaceSlot vaddr .all) ?_ ?_ fun _ hp => hp
  · intro _ r₅ hm
    obtain ⟨hq, hf⟩ := mapsFrom_root hr₁ h₄ hc hc₄ h₃.grow.nextObj
      (by rw [hnext]; exact Nat.lt_succ_self _) hcap hzero hm
    exact ⟨hq, _, hf⟩
  · intro _ r₅ hq
    have h₅ := h₄.trans hq
    have hcap₅ := (hq.grow.caps c hc₄).trans hcap
    have hdel := h₅.kernel (h₅.grow.delete hc (by simp [Kernel.delete, hcap₅, Kernel.unmap]))
    simp only [deleteCap, kmodify, Prog.wp_modify]
    exact Prog.wp_mono (freeSlot_spec hdel hc) (fun _ _ h' => h'.1.ut _) (fun _ _ => False.elim)
      fun _ hp => hp

/-- What `alloc_frame` can do to the frame table. -/
inductive FrameAllocated (r : Res) (f : Nat) : Res → Prop
  | recycled (rest : List Nat) (free : r.frameTable.free = f :: rest) :
    FrameAllocated r f
      { r with
        frameTable :=
          { r.frameTable with free := rest, allocated := r.frameTable.allocated ++ [f] } }
  | fresh (r' : Res) (c : Slot) (obj : Nat) (free : r.frameTable.free = [])
    (ref : f = r.frameTable.used) (grow : Grow r r') (frame : RootFrame r c (frameDataAddr f) r' obj)
    (free' : r'.frameTable.free = []) (allocated : r'.frameTable.allocated = r.frameTable.allocated ++ [f])
    (used : r'.frameTable.used = f + 1)
    (cap : r'.frameTable.cap = Function.update r.frameTable.cap f c)
    (devices : r'.deviceAllocations = r.deviceAllocations) :
    FrameAllocated r f r'

theorem FrameAllocated.grow {f : Nat} {r' : Res} (h : FrameAllocated r f r') : Grow r r' := by
  cases h with
  | recycled rest _ => exact (Grow.refl r).congr rfl rfl
  | fresh _ _ _ _ _ hg => exact hg

/-- The lists and the recorded capabilities are the same. -/
structure SameFrames (t t' : FrameTable) : Prop where
  free : t'.free = t.free
  allocated : t'.allocated = t.allocated
  used : t'.used = t.used
  cap : t'.cap = t.cap

theorem bumpCapacity_spec (hr : Rooted r) :
    bumpCapacity.wp
      (fun _ r₂ => Grow r r₂ ∧ SameFrames r.frameTable r₂.frameTable ∧
        r₂.deviceAllocations = r.deviceAllocations)
      (fun _ r₂ => Quiet r r₂) Panic.Low r := by
  simp only [bumpCapacity, Prog.wp_bind, Prog.wp_gets, modifyFrameTable, Prog.wp_modify]
  refine Prog.wp_mono (allocFrameAt_spec hr (.refl r) _) ?_ (fun _ _ h => h) fun _ hp => hp
  rintro c r₂ ⟨hq, -⟩
  refine ⟨hq.grow.congr rfl rfl, ?_, hq.devices⟩
  rw [hq.frameTable]
  exact ⟨rfl, rfl, rfl, rfl⟩

theorem allocFreshFrame_spec (hr : Rooted r) :
    allocFreshFrame.wp
      (fun f r₂ => f = r.frameTable.used ∧ Grow r r₂ ∧
        r₂.deviceAllocations = r.deviceAllocations ∧
        ∃ c obj, RootFrame r c (frameDataAddr f) r₂ obj ∧
          r₂.frameTable.free = r.frameTable.free ∧
          r₂.frameTable.allocated = r.frameTable.allocated ∧ r₂.frameTable.used = f + 1 ∧
          r₂.frameTable.cap = Function.update r.frameTable.cap f c)
      (fun _ r₂ => Grow r r₂ ∧ SameFrames r.frameTable r₂.frameTable ∧
        r₂.deviceAllocations = r.deviceAllocations) Panic.Low r := by
  -- the second half, from resources whose capacity is large enough
  have hrest : ∀ r₁ : Res, Grow r r₁ → SameFrames r.frameTable r₁.frameTable →
      r₁.deviceAllocations = r.deviceAllocations → Prog.wp
      (do
        let t ← Prog.gets Res.frameTable
        Prog.assert .assertionFailed (t.used < t.capacity)
        let frameRef := t.used
        modifyFrameTable fun t => { t with used := t.used + 1 }
        let cap ← (allocFrameAt (frameDataAddr frameRef)).catchErr fun e => do
          modifyFrameTable fun t => { t with used := t.used - 1 }
          Prog.fail e
        modifyFrameTable fun t => { t with cap := Function.update t.cap frameRef cap }
        pure frameRef : RProg Sel4Error Nat)
      (fun f r₂ => f = r.frameTable.used ∧ Grow r r₂ ∧
        r₂.deviceAllocations = r.deviceAllocations ∧
        ∃ c obj, RootFrame r c (frameDataAddr f) r₂ obj ∧
          r₂.frameTable.free = r.frameTable.free ∧
          r₂.frameTable.allocated = r.frameTable.allocated ∧ r₂.frameTable.used = f + 1 ∧
          r₂.frameTable.cap = Function.update r.frameTable.cap f c)
      (fun _ r₂ => Grow r r₂ ∧ SameFrames r.frameTable r₂.frameTable ∧
        r₂.deviceAllocations = r.deviceAllocations) Panic.Low r₁ := by
    intro r₁ hg hs hd
    simp only [Prog.wp_bind, Prog.wp_gets, Prog.wp_assert, modifyFrameTable, Prog.wp_modify,
      Prog.wp_catchErr, Prog.wp_fail, Prog.wp_pure]
    refine ⟨fun _ => ?_, fun _ => by decide⟩
    have hg' : Grow r { r₁ with
        frameTable := { r₁.frameTable with used := r₁.frameTable.used + 1 } } := hg.congr rfl rfl
    refine Prog.wp_mono (allocFrameAt_spec hr hg' _) ?_ ?_ fun _ hp => hp
    · rintro c r₂ ⟨hq, obj, hf⟩
      refine ⟨hs.used, (hg'.trans hq.grow).congr rfl rfl, hq.devices.trans hd, c, obj, ?_, ?_⟩
      · exact {
          fresh := fun hc => hf.fresh (hg.allocated c hc)
          allocated := hf.allocated
          newObj := Nat.le_trans hg.nextObj hf.newObj
          lt_nextObj := hf.lt_nextObj
          cap := hf.cap
          page := hf.page
          zero := hf.zero }
      · simp [hq.frameTable, hs.free, hs.allocated, hs.cap]
    · intro _ r₂ hq
      refine ⟨(hg'.trans hq.grow).congr rfl rfl, ?_, hq.devices.trans hd⟩
      simp only [hq.frameTable]
      exact ⟨hs.free, hs.allocated, hs.used, hs.cap⟩
  simp only [allocFreshFrame, Prog.wp_bind, Prog.wp_gets, Prog.wp_assert, Prog.wp_ite]
  refine ⟨fun _ => ⟨fun _ => ?_, fun _ => ?_⟩, fun _ => by decide⟩
  · refine Prog.wp_mono (bumpCapacity_spec hr) ?_ ?_ fun _ hp => hp
    · rintro _ r₁ ⟨hg, hs, hd⟩
      simpa only [Prog.wp_bind, Prog.wp_gets, Prog.wp_assert] using hrest r₁ hg hs hd
    · intro _ r₁ hq
      exact ⟨hq.grow, hq.frameTable ▸ ⟨rfl, rfl, rfl, rfl⟩, hq.devices⟩
  · simpa only [Prog.wp_bind, Prog.wp_gets, Prog.wp_assert] using
      hrest r (.refl r) ⟨rfl, rfl, rfl, rfl⟩ rfl

theorem allocFrame_spec (hr : Rooted r) :
    allocFrame.wp (fun f r₂ => FrameAllocated r f r₂)
      (fun _ r₂ => Grow r r₂ ∧ SameFrames r.frameTable r₂.frameTable ∧
        r₂.deviceAllocations = r.deviceAllocations) Panic.Low r := by
  simp only [allocFrame, Prog.wp_bind, Prog.wp_gets]
  cases hfree : r.frameTable.free with
  | cons f rest => exact .recycled rest hfree
  | nil =>
    simp only [Prog.wp_bind, Prog.wp_catchErr, Prog.wp_fail, modifyFrameTable, Prog.wp_modify,
      Prog.wp_pure]
    refine Prog.wp_mono (allocFreshFrame_spec hr) ?_ (fun _ _ h => h) fun _ hp => hp
    rintro f r₂ ⟨hf, hg, hd, c, obj, hframe, hfr, hal, hused, hcap⟩
    refine .fresh _ c obj hfree hf (hg.congr rfl rfl) ?_ (hfr.trans hfree) ?_ hused hcap hd
    · exact ⟨hframe.fresh, hframe.allocated, hframe.newObj, hframe.lt_nextObj, hframe.cap,
        hframe.page, hframe.zero⟩
    · rw [← hal]

/-! ## Device memory -/

theorem deviceRetype_cap {k k' : Kernel} {ut c : Slot} (h : k.deviceRetype ut c = .ok k') :
    k'.caps c = some (.frame k.nextObj true ⟨true, true⟩ none) ∧ k'.nextObj = k.nextObj + 1 := by
  unfold Kernel.deviceRetype at h
  split at h
  · cases h
  split at h
  · cases h
  simp only [Except.ok.injEq] at h
  subst h
  exact ⟨by simp [Kernel.setCap], rfl⟩

/-- The frames of a new device range: in new slots, with capabilities of new
objects, and with the placeholder reference. -/
structure DeviceFrames (r : Res) (fs : List (Slot × Nat)) (r' : Res) : Prop where
  quiet : Quiet r r'
  refs : ∀ f ∈ fs, f.2 = 0
  fresh : ∀ f ∈ fs, ¬ r.cspace.Allocated f.1 ∧ r'.cspace.Allocated f.1
  caps : ∀ f ∈ fs, ∃ obj, r.kernel.nextObj ≤ obj ∧ obj < r'.kernel.nextObj ∧
    r'.kernel.caps f.1 = some (.frame obj true ⟨true, true⟩ none)
  nodup : (fs.map Prod.fst).Nodup

theorem allocDevicePage_spec (r : Res) (paddr : Nat) :
    (allocDevicePage paddr : RProg ε Slot).wp
      (fun c r' => DeviceFrames r [(c, 0)] r') (fun _ _ => False) Panic.Low r := by
  simp only [allocDevicePage, alloc4kDevice, Prog.wp_bind, Prog.wp_expect, Prog.wp_gets, wp_subU,
    Prog.wp_unwrap, Prog.wp_ite, Prog.wp_pure, Prog.wp_fail]
  refine ⟨fun _ => ⟨fun ut _ => ⟨fun _ => ?_, fun _ => by decide⟩, fun _ => by decide⟩,
    fun _ => by decide⟩
  refine Prog.wp_mono (allocSlot_spec (.refl r)) ?_ (fun _ _ _ => by decide) fun _ hp => hp
  rintro c r₁ ⟨h₁, hc, -, hc₁, -⟩
  simp only [kcall, Prog.wp_zoom, Prog.wp_ofExcept]
  refine ⟨fun k hk => ?_, fun _ _ => by decide⟩
  obtain ⟨hcap, hnext⟩ := deviceRetype_cap hk
  refine ⟨h₁.kernel (h₁.grow.deviceRetype hc hk), by simp, by simpa using ⟨hc, hc₁⟩, ?_, by simp⟩
  simp only [List.mem_singleton, forall_eq]
  exact ⟨_, h₁.grow.nextObj, by rw [hnext]; exact Nat.lt_succ_self _, hcap⟩

theorem allocDevicePages_spec : ∀ (paddrs : List Nat) (r : Res),
    (allocDevicePages paddrs : RProg ε (List (Slot × Nat))).wp (fun fs r' => DeviceFrames r fs r')
      (fun _ _ => False) Panic.Low r
  | [], r => ⟨.refl r, by simp, by simp, by simp, by simp⟩
  | paddr :: paddrs, r => by
      simp only [allocDevicePages, Prog.wp_bind, Prog.wp_pure]
      refine Prog.wp_mono (allocDevicePage_spec r paddr) ?_ (fun _ _ => False.elim) fun _ hp => hp
      intro c r₁ h₁
      refine Prog.wp_mono (allocDevicePages_spec paddrs r₁) ?_ (fun _ _ => False.elim)
        fun _ hp => hp
      intro fs r₂ h₂
      have hc := h₁.fresh (c, 0) (List.mem_singleton_self _)
      obtain ⟨obj, hle, hlt, hcap⟩ := h₁.caps (c, 0) (List.mem_singleton_self _)
      refine ⟨h₁.quiet.trans h₂.quiet, ?_, ?_, ?_, ?_⟩
      · rintro f (_ | ⟨_, hf⟩)
        · rfl
        · exact h₂.refs f hf
      · rintro f (_ | ⟨_, hf⟩)
        · exact ⟨hc.1, h₂.quiet.grow.allocated _ hc.2⟩
        · exact ⟨fun h => (h₂.fresh f hf).1 (h₁.quiet.grow.allocated _ h), (h₂.fresh f hf).2⟩
      · rintro f (_ | ⟨_, hf⟩)
        · exact ⟨obj, hle, Nat.lt_of_lt_of_le hlt h₂.quiet.grow.nextObj,
            (h₂.quiet.grow.caps _ hc.2).trans hcap⟩
        · obtain ⟨obj', hle', hlt', hcap'⟩ := h₂.caps f hf
          exact ⟨obj', Nat.le_trans h₁.quiet.grow.nextObj hle', hlt', hcap'⟩
      · refine List.nodup_cons.mpr ⟨fun hmem => ?_, h₂.nodup⟩
        obtain ⟨f, hf, heq⟩ := List.mem_map.mp hmem
        exact (h₂.fresh f hf).1 (heq ▸ hc.2)

/-- A device range that is known already, or is made. -/
inductive DeviceMemory (paddr size : Nat) (fs : List (Slot × Nat)) (r : Res) : Res → Prop
  | cached (a : DeviceMemAllocation) (mem : a ∈ r.deviceAllocations) (paddr_eq : a.paddr = paddr)
    (size_le : size ≤ a.size) (frames_eq : fs = a.frames) : DeviceMemory paddr size fs r r
  | made (r₁ : Res) (frames : DeviceFrames r fs r₁) : DeviceMemory paddr size fs r
    { r₁ with deviceAllocations := r₁.deviceAllocations ++ [⟨paddr, size, fs⟩] }

theorem allocDeviceMem_spec (r : Res) (paddr size : Nat) :
    (allocDeviceMem paddr size : RProg ε (List (Slot × Nat))).wp
      (fun fs r' => DeviceMemory paddr size fs r r') (fun _ _ => False) Panic.Low r := by
  simp only [allocDeviceMem, Prog.wp_bind, Prog.wp_gets]
  cases hfind : r.deviceAllocations.find? fun a => paddr == a.paddr && size ≤ a.size with
  | some a =>
    have hmem := List.mem_of_find?_eq_some hfind
    have ha := List.find?_some hfind
    simp only [Bool.and_eq_true, beq_iff_eq, decide_eq_true_eq] at ha
    exact .cached a hmem ha.1.symm ha.2 rfl
  | none =>
    simp only [Prog.wp_bind, wp_addU, Prog.wp_gets, Prog.wp_ite, Prog.wp_modify, Prog.wp_pure,
      Prog.wp_panic]
    refine ⟨fun _ => ?_, fun _ => by decide⟩
    refine Prog.wp_mono (allocDevicePages_spec _ r) ?_ (fun _ _ => False.elim) fun _ hp => hp
    intro fs r₁ h₁
    exact ⟨fun _ => .made r₁ h₁, fun _ => by decide⟩

end Specs

end Smos.RootServer
