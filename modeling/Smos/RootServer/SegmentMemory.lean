/-
Smos.RootServer.SegmentMemory — one page of a segment in memory.

A turn of the loop in `load_segment_into_vspace` is `placePage`: it takes a
frame, enters it in the object and a copy of its capability in the view, maps
the copy, and writes the page through the root server's own mapping. If the
page was mapped before, the copy goes away and the frame back to the table,
where it is written all the same.

The first part follows the state through these steps: the frame is new, so
writing it leaves the frames in use alone (`placePage_spec`). The second is
arithmetic: the position, the address and the page number advance together,
and what is written to a page is the image there (`pageBytes_image`).
-/
import Smos.RootServer.FrameBytes
import Smos.RootServer.NoStray
import Smos.RootServer.PageTables
import Smos.RootServer.SegmentWindows

namespace Smos.RootServer

open Smos.Base

/-! ## One page -/

/-- The bytes of the page at `currVaddr`, `pos` bytes into the segment. -/
def pageBytes (x : Segment) (data : Nat → Nat) (pos currVaddr : Nat) : Nat → Nat :=
  let leadingZeroes := currVaddr % pageSize4K
  let fileBytes := min (pageSize4K - leadingZeroes) (x.pFilesz - pos)
  if pos < x.pFilesz then fun i =>
    if leadingZeroes ≤ i ∧ i < leadingZeroes + fileBytes then data (pos + (i - leadingZeroes))
    else 0
  else zeroPage

/-- A turn of the loop: a frame for page `i` of the region, mapped at `vaddr` and filled. -/
def placePage (o : ObjectRef) (v : ViewRef) (vspace : Slot) (vaddr i : Nat) (bytes : Nat → Nat) :
    SProg Sel4Error Unit := do
  let (frameRef, loadeeFrame) ← addPage o v i
  let view ← getView v
  match ← (onRes (mapFrame loadeeFrame vspace vaddr view.rights)).attempt with
  | .ok () => pure ()
  | .error .deleteFirst =>
    onRes (deleteCap loadeeFrame)
    onRes (freeSlot loadeeFrame)
    onRes (freeFrame frameRef)
  | .error e => Prog.fail e
  onRes (writeFrameData frameRef fun _ => bytes)

theorem loadPages_succ (w : WindowRef) (o : ObjectRef) (v : ViewRef) (vspace : Slot) (x : Segment)
    (data : Nat → Nat) (fuel i pos currVaddr : Nat) :
    loadPages w o v vspace x data (fuel + 1) i pos currVaddr =
      if pos < x.pMemsz then do
        placePage o v vspace (roundDown currVaddr) i (pageBytes x data pos currVaddr)
        let next ← addU pos (pageSize4K - currVaddr % pageSize4K)
        let nextVaddr ← addU currVaddr (pageSize4K - currVaddr % pageSize4K)
        loadPages w o v vspace x data fuel (i + 1) next nextVaddr
      else pure () := by
  conv_lhs => unfold loadPages
  unfold placePage
  split
  · simp only [Prog.bind_assoc]
    congr 1
    funext page
    congr 1
    funext view
    congr 1
    funext res
    by_cases hpos : pos < x.pFilesz
    · simp only [pageBytes, hpos, if_true]
      cases res with
      | ok u => rfl
      | error e =>
        cases e with
        | deleteFirst =>
          simp only [Prog.bind_assoc]
          rfl
        | _ => rfl
    · simp only [pageBytes, hpos, if_false]
      cases res with
      | ok u => rfl
      | error e =>
        cases e with
        | deleteFirst =>
          simp only [Prog.bind_assoc]
          rfl
        | _ => rfl
  · rfl

/-- The allocators are in order, and `vspace` is the address space `vs`, which is not the root
server's own. -/
structure Ready (vspace : Slot) (vs : VSpaceId) (r : Res) : Prop where
  frames : Frames r
  noStray : NoStray r
  user : vs ≠ rootVSpace
  held : r.cspace.Allocated vspace
  space : r.kernel.caps vspace = some (.vspace vs)

/-- The page at `va` is the frame of an object's page and of a view's capability, and holds the
bytes. -/
structure Backed (vs : VSpaceId) (va : Nat) (frame : ObjectFrame) (c : Slot) (rights : CapRights)
    (bytes : Nat → Nat) (r : Res) : Prop where
  held : frame.frameRef ∈ r.frameTable.allocated
  cap : frame.cap = r.frameTable.cap frame.frameRef
  slot : r.cspace.Allocated c
  page : ∃ obj, Shown r frame.frameRef obj ∧
    r.kernel.caps c = some (.frame obj false ⟨true, true⟩ (some (vs, va))) ∧
    r.kernel.pages vs va = some ⟨obj, Access.mask ⟨true, true⟩ rights⟩ ∧ r.kernel.mem obj = bytes

/-- A frame more in the region: frame `f` is page `i` of the object, and the copy of its
capability in `c` is page `i` of the view. -/
structure PageAdded (vs : VSpaceId) (A : Set Nat) (o : ObjectRef) (v : ViewRef) (i f : Nat)
    (c : Slot) (s s' : State) : Prop where
  frames : Frames s'.res
  noStray : NoStray s'.res
  adds : Adds vs A s.res s'.res
  fresh : f ∉ s.res.frameTable.allocated
  held : f ∈ s'.res.frameTable.allocated
  slotFresh : ¬ s.res.cspace.Allocated c
  slotHeld : s'.res.cspace.Allocated c
  cap : ∃ obj, Shown s'.res f obj ∧
    s'.res.kernel.caps c = some (.frame obj false ⟨true, true⟩ none)
  heaps : ∃ object view,
    (s.objects o).insertFrameAt (i * pageSize4K) ⟨s'.res.frameTable.cap f, f⟩ = .ok object ∧
    (s.views v).insertCapAt (i * pageSize4K) c = .ok view ∧
    s' = { s with
      res := s'.res
      objects := s.objects.update o fun _ => object
      views := s.views.update v fun _ => view }

section Page

variable {s s' : State} {o : ObjectRef} {v : ViewRef} {i f : Nat} {c : Slot} {vs : VSpaceId}
  {A : Set Nat}

/-- The copy of a frame's capability in a new slot. -/
theorem copy_shown {r : Res} {k : Kernel} {obj : Nat} (hs : Shown r f obj)
    (hk : r.kernel.copy c (r.frameTable.cap f) .all = .ok k) :
    Loose r.kernel c ∧ Slotted vs A c r { r with kernel := k } ∧
      k.caps c = some (.frame obj false ⟨true, true⟩ none) := by
  obtain ⟨cap, cap', hsrc, hdst, rfl, hcap⟩ := Kernel.copy_ok hk
  have hne : ∀ c', c' ≠ c → (r.kernel.setCap c (some cap')).caps c' = r.kernel.caps c' :=
    fun c' h => Kernel.setCap_caps_of_ne h _
  refine ⟨fun cap'' h => ?_, ⟨fun _ _ h => h, hne, fun _ _ _ => rfl, rfl, rfl, rfl⟩, ?_⟩
  · rw [hdst] at h
    cases h
  · rw [Kernel.setCap_caps_self]
    obtain rfl := Option.some.inj (hsrc.symm.trans hs.cap)
    rcases hcap with ⟨obj', orig, access, m, heq, rfl⟩ | ⟨hno, -⟩
    · cases heq
      rfl
    · exact absurd rfl (hno _ _ _ _)

theorem addPage_spec (hvs : vs ≠ rootVSpace) (hr : Frames s.res) (hn : NoStray s.res) :
    (addPage o v i).wp (fun page s' => PageAdded vs A o v i page.1 page.2 s s')
      (fun _ _ => True) (fun _ => True) s := by
  simp only [addPage, Prog.wp_bind, wp_onRes, Prog.wp_catchErr, Prog.wp_fail]
  refine Prog.wp_mono (Prog.wp_and (allocFrame_spec hr.rooted) hn.allocFrame) ?_
    (fun _ _ _ => trivial) fun _ _ => trivial
  rintro f r ⟨halloc, hn₁⟩
  obtain ⟨hr₁, hadds₁, hfresh, hheld⟩ : Frames r ∧ Adds vs A s.res r ∧
      f ∉ s.res.frameTable.allocated ∧ f ∈ r.frameTable.allocated := halloc.frames hr
  obtain ⟨obj, hs⟩ := hr₁.shown f (hr₁.held_used hheld)
  refine Prog.wp_mono (frameCap_spec r f) ?_ (fun _ _ _ => trivial) fun _ _ => trivial
  intro cap r' hpost
  rcases hpost with ⟨hsame, hcap⟩
  obtain rfl : r = r' := hsame.symm
  subst hcap
  simp only [insertFrame, Prog.wp_bind, wp_getObject]
  cases hobject : (s.objects o).insertFrameAt (i * pageSize4K) ⟨r.frameTable.cap f, f⟩ with
  | error e => trivial
  | ok object =>
    simp only [wp_modifyObject]
    refine Prog.wp_mono (Prog.wp_and (allocSlot_spec (.refl r)) hn₁.allocSlot) ?_
      (fun _ _ _ => trivial) fun _ _ => trivial
    rintro c r₂ ⟨⟨hq, hcfresh, -, hcheld, -, -⟩, hn₂, -⟩
    have hr₂ := hq.frames hr₁
    have hadds₂ : Adds vs A s.res r₂ := hadds₁.quiet hr hq
    have hs₂ : Shown r₂ f obj := hq.grow.shown (by rw [hq.frameTable]) hs
    simp only [copyCap, kcall, Prog.wp_expect, Prog.wp_zoom, Prog.wp_ofExcept]
    refine ⟨fun k hk => ?_, fun _ _ => trivial⟩
    rw [← hq.frameTable] at hk
    obtain ⟨hloose, hslot, hcopy⟩ : Loose r₂.kernel c ∧ Slotted vs A c r₂ { r₂ with kernel := k } ∧
        k.caps c = some (.frame obj false ⟨true, true⟩ none) := copy_shown hs₂ hk
    have hnew : ¬ s.res.cspace.Allocated c := fun h => hcfresh (hadds₁.allocated c h)
    simp only [insertCap, Prog.wp_bind, wp_getView]
    cases hview : (s.views v).insertCapAt (i * pageSize4K) c with
    | error e => trivial
    | ok view =>
      exact {
        frames := hslot.frames hvs hloose hr₂
        noStray := hn₂.set (fun _ h => h) hcheld hslot.caps
        adds := hslot.adds hvs hloose hadds₂ hnew
        fresh := hfresh
        held := by
          rw [hslot.frameTable, hq.frameTable]
          exact hheld
        slotFresh := hnew
        slotHeld := hcheld
        cap := ⟨obj, hslot.shown hvs hloose hs₂, hcopy⟩
        heaps := ⟨object, view, by rw [← hobject, ← hq.frameTable], hview, rfl⟩ }

/-- What a turn of the loop does: it fills page `i` of the object and of the view, and unless the
page was mapped before, it maps the frame there. -/
structure PagePlaced (vspace : Slot) (vs : VSpaceId) (o : ObjectRef) (v : ViewRef) (va i : Nat)
    (bytes : Nat → Nat) (s s' : State) : Prop where
  ready : Ready vspace vs s'.res
  adds : Adds vs {va} s.res s'.res
  heaps : ∃ frame c object view,
    (s.objects o).insertFrameAt (i * pageSize4K) frame = .ok object ∧
    (s.views v).insertCapAt (i * pageSize4K) c = .ok view ∧
    s' = { s with
      res := s'.res
      objects := s.objects.update o fun _ => object
      views := s.views.update v fun _ => view } ∧
    (s.res.kernel.pages vs va = none →
      Backed vs va frame c (s.views v).rights bytes s'.res)

theorem Ready.adds {vspace : Slot} {r r' : Res} (h : Ready vspace vs r) (ha : Adds vs A r r')
    (hf : Frames r') (hn : NoStray r') : Ready vspace vs r' :=
  ⟨hf, hn, h.user, ha.allocated _ h.held, (ha.caps _ h.held).trans h.space⟩

/-- The bytes of a frame that was not in use at the start. -/
theorem writeFrameData_shown {ε : Type} {r r₁ : Res} {obj : Nat} (hr : Frames r) (hr₁ : Frames r₁)
    (ha : Adds vs A r r₁) (hn : NoStray r₁) (hfresh : f ∉ r.frameTable.allocated)
    (hf : f < r₁.frameTable.used) (hs : Shown r₁ f obj) (bytes : Nat → Nat) :
    (writeFrameData f fun _ => bytes : RProg ε Unit).wp
      (fun _ r' => Frames r' ∧ Adds vs A r r' ∧ NoStray r' ∧
        r' = { r₁ with kernel := r₁.kernel.writeMem obj bytes })
      (fun _ _ => False) (fun _ => True) r₁ := by
  refine Prog.wp_mono (writeFrameData_spec r₁ f _) ?_ (fun _ _ hf => hf) fun _ _ => trivial
  rintro _ r' ⟨page, hpage, rfl⟩
  obtain rfl := Option.some.inj (hpage.symm.trans hs.page)
  exact ⟨hr₁.write _ _, ha.write hr hr₁ hf hs hfresh bytes, hn, rfl⟩

theorem loose_of_copy {k : Kernel} {obj : Nat} {access : Access} {m : Option (VSpaceId × Nat)}
    (hc : k.caps c = some (.frame obj false access m)) : Loose k c := by
  intro cap hcap
  obtain rfl := Option.some.inj (hcap.symm.trans hc)
  exact ⟨obj, access, m, rfl⟩

/-- The page is mapped and filled. -/
theorem fillMapped {vspace : Slot} {va : Nat} {bytes : Nat → Nat} {s₁ : State} {r' : Res}
    {k : Kernel} (hr : Ready vspace vs s.res) (hadd : PageAdded vs ∅ o v i f c s s₁)
    (hq : Quiet s₁.res r')
    (hk : r'.kernel.frameMap c vspace va (s.views v).rights = .ok k)
    (hn : NoStray { r' with kernel := k }) :
    (writeFrameData f fun _ => bytes : RProg Sel4Error Unit).wp
      (fun _ r => PagePlaced vspace vs o v va i bytes s { s₁ with res := r }) (fun _ _ => True)
      (fun _ => True) { r' with kernel := k } := by
  obtain ⟨obj, hs, hc⟩ := hadd.cap
  obtain ⟨object, view, hobject, hview, hs₁⟩ := hadd.heaps
  have ha := hadd.adds.mono (Set.empty_subset {va})
  have hready := (hr.adds ha hadd.frames hadd.noStray)
  have hc' := (hq.grow.caps c hadd.slotHeld).trans hc
  have hspace := (hq.grow.caps _ hready.held).trans hready.space
  obtain ⟨vs', hvs', -, rfl⟩ := frameMap_unmapped hc' hk
  obtain rfl : vs' = vs := by simpa using hvs'.symm.trans hspace
  have hloose := loose_of_copy hc'
  have hslot : Slotted vs' {va} c r'
      { r' with
        kernel := r'.kernel.enterPage c obj false ⟨true, true⟩ vs' va (s.views v).rights } :=
    .enterPage r' rfl
  have hf₂ := hslot.frames hr.user hloose (hq.frames hadd.frames)
  have ha₂ := hslot.adds hr.user hloose (ha.quiet hr.frames hq) hadd.slotFresh
  have hs₂ := hslot.shown hr.user hloose (hq.grow.shown (by rw [hq.frameTable]) hs)
  have hheld : f ∈ r'.frameTable.allocated := hq.frameTable ▸ hadd.held
  refine Prog.wp_mono (writeFrameData_shown hr.frames hf₂ ha₂ hn hadd.fresh
    (hf₂.held_used hheld) hs₂ bytes) ?_ (fun _ _ _ => trivial) fun _ _ => trivial
  rintro _ r₃ ⟨hf₃, ha₃, hn₃, rfl⟩
  refine ⟨hr.adds ha₃ hf₃ hn₃, ha₃, _, c, object, view, hobject, hview, ?_, fun _ => ?_⟩
  · rw [hs₁]
  · exact {
      held := hheld
      cap := by rw [hq.frameTable]
      slot := hq.grow.allocated c hadd.slotHeld
      page := ⟨obj, ⟨hs₂.allocated, hs₂.cap, hs₂.page, hs₂.old⟩, Function.update_self _ _ _,
        by simp [Kernel.writeMem, Kernel.enterPage, Kernel.setPage], Function.update_self _ _ _⟩ }

/-- The page was mapped already: the frame is given back, and filled all the same. -/
theorem fillTaken {vspace : Slot} {va : Nat} {bytes : Nat → Nat} {s₁ : State} {r : Res}
    (hr : Ready vspace vs s.res) (hadd : PageAdded vs ∅ o v i f c s s₁)
    (hq : Quiet s₁.res r) (hn : NoStray r) (htaken : s₁.res.kernel.pages vs va ≠ none) :
    (do
      onRes (deleteCap c)
      onRes (freeSlot c)
      onRes (freeFrame f)
      onRes (writeFrameData f fun _ => bytes) : SProg Sel4Error Unit).wp
      (fun _ s' => PagePlaced vspace vs o v va i bytes s s') (fun _ _ => True) (fun _ => True)
      { s₁ with res := r } := by
  obtain ⟨obj, hs, hc⟩ := hadd.cap
  obtain ⟨object, view, hobject, hview, hs₁⟩ := hadd.heaps
  have hc' := (hq.grow.caps c hadd.slotHeld).trans hc
  have hf := hq.frames hadd.frames
  have ha := (hadd.adds.mono (Set.empty_subset {va})).quiet hr.frames hq
  have hs₀ := hq.grow.shown (by rw [hq.frameTable]) hs
  -- the copy is deleted
  have hslot : Slotted vs {va} c r { r with kernel := r.kernel.delete c } := .delete hc'
  have hloose := loose_of_copy hc'
  have hf₁ := hslot.frames hr.user hloose hf
  have ha₁ := hslot.adds hr.user hloose ha hadd.slotFresh
  have hs₁' := hslot.shown hr.user hloose hs₀
  have hn₁ : NoStray { r with kernel := r.kernel.delete c } := by
    have hdelete : (deleteCap c : RProg Sel4Error Unit).wp (fun _ r' => NoStray r' ∧
        r'.kernel.caps c = none) (fun _ _ => False) (fun _ => True) r := hn.deleteCap
    simp only [deleteCap, kmodify, Prog.wp_modify] at hdelete
    exact hdelete.1
  have hnone : (r.kernel.delete c).caps c = none := Kernel.delete_caps_self _ _
  simp only [Prog.wp_bind, wp_onRes, deleteCap, kmodify, Prog.wp_modify]
  -- its slot is given back
  refine Prog.wp_mono (Prog.wp_and (freeSlot_freed _ c) (hn₁.freeSlot hnone)) ?_
    (fun _ _ _ => trivial) fun _ _ => trivial
  rintro _ r₂ ⟨hfreed, hn₂⟩
  have hslot₂ : Slotted vs {va} c { r with kernel := r.kernel.delete c } r₂ := .slotFreed hfreed
  have hempty : Loose (r.kernel.delete c) c := by
    intro cap hcap
    rw [hnone] at hcap
    cases hcap
  have hf₂ := hslot₂.frames hr.user hempty hf₁
  have ha₂ := hslot₂.adds hr.user hempty ha₁ hadd.slotFresh
  have hs₂ := hslot₂.shown hr.user hempty hs₁'
  -- and the frame to the frame table
  refine Prog.wp_mono (freeFrame_freed f) ?_ (fun _ _ _ => trivial) fun _ _ => trivial
  rintro _ _ ⟨hheld, rfl⟩
  have hs₃ : Shown (r₂.freed f) f obj := ⟨hs₂.allocated, hs₂.cap, hs₂.page, hs₂.old⟩
  refine Prog.wp_mono (writeFrameData_shown hr.frames (hf₂.freed hheld) (ha₂.freed hadd.fresh) hn₂
    hadd.fresh (hf₂.held_used hheld) hs₃ bytes) ?_ (fun _ _ _ => trivial) fun _ _ => trivial
  rintro _ r₃ ⟨hf₃, ha₃, hn₃, rfl⟩
  refine ⟨hr.adds ha₃ hf₃ hn₃, ha₃, _, c, object, view, hobject, hview, ?_, fun hfree => ?_⟩
  · rw [hs₁]
  · rw [hadd.adds.pages vs va hr.user fun h => h.2, hfree] at htaken
    exact absurd rfl htaken

theorem placePage_spec {vspace : Slot} {va : Nat} {bytes : Nat → Nat}
    (hr : Ready vspace vs s.res) : (placePage o v vspace va i bytes).wp
      (fun _ s' => PagePlaced vspace vs o v va i bytes s s') (fun _ _ => True) (fun _ => True) s := by
  unfold placePage
  rw [Prog.wp_bind]
  refine Prog.wp_mono (addPage_spec (A := ∅) hr.user hr.frames hr.noStray) ?_
    (fun _ _ _ => trivial) fun _ _ => trivial
  rintro ⟨f, c⟩ s₁ hadd
  obtain ⟨obj, hs, hc⟩ := hadd.cap
  have hready := hr.adds hadd.adds hadd.frames hadd.noStray
  have hrights : (s₁.views v).rights = (s.views v).rights := by
    obtain ⟨object, view, -, hview, hs₁⟩ := hadd.heaps
    obtain ⟨t, -, rfl⟩ := insertCapAt_ok hview
    rw [hs₁]
    simp
  have hmappable : NoStray.Mappable s₁.res c vspace vs :=
    ⟨⟨obj, false, _, hc⟩, hadd.slotHeld, hready.space, hready.held, hr.user⟩
  simp only [Prog.wp_bind, wp_getView, Prog.wp_attempt, wp_onRes, hrights]
  refine Prog.wp_mono (Prog.wp_and (mapFrame_spec s₁.res c vspace va (s.views v).rights)
    hadd.noStray.mapFrame) ?_ ?_ fun _ _ => trivial
  · rintro u _ ⟨⟨r', k, hq, hk, rfl⟩, hn⟩
    exact fillMapped hr hadd hq hk hn
  · rintro e r ⟨hq, hn, htaken⟩
    cases e with
    | deleteFirst => exact fillTaken hr hadd hq hn (htaken vs hmappable rfl)
    | _ => trivial

end Page

/-! ## The bytes of a page -/

namespace Segment

variable (x : Segment)

/-- How far into the segment its page `i` begins. -/
def pos (i : Nat) : Nat :=
  if i = 0 then 0 else (x.pVaddr / pageSize4K + i) * pageSize4K - x.pVaddr

/-- The address of page `i`. -/
def pageAddr (i : Nat) : Nat := (x.pVaddr / pageSize4K + i) * pageSize4K

/-- The byte of the image at an address: the file's, or zero. -/
def byte (data : Nat → Nat) (a : Nat) : Nat :=
  if x.pVaddr ≤ a ∧ a < x.pVaddr + x.pFilesz then data (a - x.pVaddr) else 0

variable {x} {i j : Nat}

theorem vaddr_lt_pageAddr : x.pVaddr < x.pageAddr (i + 1) := by
  unfold pageAddr pageSize4K
  omega

theorem vaddr_add_pos (h : i ≠ 0) : x.pVaddr + x.pos i = x.pageAddr i := by
  obtain ⟨j, rfl⟩ := Nat.exists_eq_add_one_of_ne_zero h
  have hlt := vaddr_lt_pageAddr (x := x) (i := j)
  unfold pos
  rw [if_neg h]
  unfold pageAddr at *
  omega

theorem pos_succ : x.pos (i + 1) =
    x.pos i + (pageSize4K - (x.pVaddr + x.pos i) % pageSize4K) := by
  have hnext := vaddr_add_pos (x := x) (i := i + 1) (by omega)
  by_cases h : i = 0
  · subst h
    unfold pageAddr at hnext
    have hpos : x.pos 0 = 0 := rfl
    rw [hpos]
    unfold pageSize4K at *
    omega
  · have hthis := vaddr_add_pos (x := x) h
    rw [hthis]
    unfold pageAddr pageSize4K at *
    omega

theorem roundDown_pos : roundDown (x.pVaddr + x.pos i) = x.pageAddr i := by
  by_cases h : i = 0
  · subst h
    rfl
  · rw [vaddr_add_pos h]
    unfold roundDown pageAddr
    rw [Nat.mul_div_cancel _ pageSize4K_pos]

theorem pos_lt_iff (hm : 0 < x.pMemsz) : x.pos i < x.pMemsz ↔
    x.pVaddr / pageSize4K + i ≤ (x.pVaddr + x.pMemsz - 1) / pageSize4K := by
  rw [Nat.le_div_iff_mul_le pageSize4K_pos]
  by_cases h : i = 0
  · subst h
    have hpos : x.pos 0 = 0 := rfl
    have hle := Nat.div_mul_le_self x.pVaddr pageSize4K
    rw [hpos, Nat.add_zero]
    omega
  · have hthis := vaddr_add_pos (x := x) h
    unfold pageAddr at hthis
    omega

theorem pos_mono (h : i ≤ j) : x.pos i ≤ x.pos j := by
  by_cases hi : i = 0
  · subst hi
    exact Nat.zero_le _
  · have h₁ := vaddr_add_pos (x := x) hi
    have h₂ := vaddr_add_pos (x := x) (i := j) (by omega)
    have h₃ : x.pageAddr i ≤ x.pageAddr j := Nat.mul_le_mul_right _ (by omega)
    omega

end Segment

/-- What the loop writes to a page is the image there. -/
theorem pageBytes_image (x : Segment) (data : Nat → Nat) {i t : Nat} (ht : t < pageSize4K) :
    pageBytes x data (x.pos i) (x.pVaddr + x.pos i) t = x.byte data (x.pageAddr i + t) := by
  have hbase : x.pVaddr + x.pos i = x.pageAddr i + (x.pVaddr + x.pos i) % pageSize4K := by
    rw [← Segment.roundDown_pos]
    unfold roundDown
    rw [Nat.mul_comm]
    exact (Nat.div_add_mod _ _).symm
  -- only the first page begins before the segment
  have hfirst : x.pos i = 0 ∨ (x.pVaddr + x.pos i) % pageSize4K = 0 := by
    by_cases hi : i = 0
    · subst hi
      exact .inl rfl
    · rw [Segment.vaddr_add_pos hi]
      exact .inr (Nat.mul_mod_left _ _)
  unfold pageBytes Segment.byte
  generalize (x.pVaddr + x.pos i) % pageSize4K = lead at hbase hfirst ⊢
  generalize x.pageAddr i = base at hbase ⊢
  by_cases hin : x.pVaddr ≤ base + t ∧ base + t < x.pVaddr + x.pFilesz
  · have hpos : x.pos i < x.pFilesz := by omega
    have hrange : lead ≤ t ∧ t < lead + min (pageSize4K - lead) (x.pFilesz - x.pos i) := by omega
    have hindex : x.pos i + (t - lead) = base + t - x.pVaddr := by omega
    rw [if_pos hpos, if_pos hin, if_pos hrange, hindex]
  · rw [if_neg hin]
    by_cases hpos : x.pos i < x.pFilesz
    · have hrange : ¬ (lead ≤ t ∧ t < lead + min (pageSize4K - lead) (x.pFilesz - x.pos i)) := by
        omega
      rw [if_pos hpos, if_neg hrange]
    · rw [if_neg hpos]
      rfl

end Smos.RootServer
