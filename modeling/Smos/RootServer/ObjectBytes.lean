/-
Smos.RootServer.ObjectBytes — what is in an object.

An object is bytes at offsets. The root server keeps it as a table of frames,
which it fills page by page when pages are asked for. `byteAt` reads the object
through the table: a page that has no frame yet reads as zero, which is what
the fault handler fills it with. So filling pages does not show
(`Remembers.byteAt`), and the frames of different pages are different memory
(`Tabled.frame_eq`).

The frames of device and contiguous objects are not the frame table's; these
objects are left out here.
-/
import Smos.RootServer.FrameBytes
import Smos.RootServer.FrameOwners
import Smos.RootServer.ForwardedFaults

namespace Smos.RootServer

open Smos.Base

/-! ## Frames in use -/

/-- The frames in use are where they were, with their bytes. -/
structure Unwritten (r r' : Res) : Prop where
  frames : Frames r'
  shown : ∀ f obj, f < r.frameTable.used → Shown r f obj → Shown r' f obj
  used : r.frameTable.used ≤ r'.frameTable.used
  frameCap : ∀ f, f < r.frameTable.used → r'.frameTable.cap f = r.frameTable.cap f
  held : ∀ f ∈ r.frameTable.allocated, f ∈ r'.frameTable.allocated
  mem : ∀ f ∈ r.frameTable.allocated, ∀ obj, Shown r f obj → r'.kernel.mem obj = r.kernel.mem obj

namespace Unwritten

variable {r r₁ r' : Res} {f obj : Nat}

protected theorem refl (hr : Frames r) : Unwritten r r :=
  ⟨hr, fun _ _ _ h => h, Nat.le_refl _, fun _ _ => rfl, fun _ h => h, fun _ _ _ _ => rfl⟩

protected theorem trans (hr : Frames r) (h : Unwritten r r₁) (h' : Unwritten r₁ r') :
    Unwritten r r' where
  frames := h'.frames
  shown f obj hf hs := h'.shown f obj (hf.trans_le h.used) (h.shown f obj hf hs)
  used := h.used.trans h'.used
  frameCap f hf := (h'.frameCap f (hf.trans_le h.used)).trans (h.frameCap f hf)
  held f hf := h'.held f (h.held f hf)
  mem f hf obj hs :=
    (h'.mem f (h.held f hf) obj (h.shown f obj (hr.held_used hf) hs)).trans (h.mem f hf obj hs)

theorem of_adds {vs : VSpaceId} {A : Set Nat} (h : Adds vs A r r') (hr' : Frames r') :
    Unwritten r r' :=
  ⟨hr', h.shown, h.used, h.frameCap, h.held, h.mem⟩

/-- Slots and pages that no frame in use is shown by have changed. -/
theorem of_shown (hr : Frames r) (hroot : Rooted r')
    (hshown : ∀ f obj, Shown r f obj → Shown r' f obj)
    (htable : SameFrames r.frameTable r'.frameTable) (hmem : r'.kernel.mem = r.kernel.mem) :
    Unwritten r r' where
  frames := hr.carry hroot htable.used (by rw [htable.free, htable.allocated])
    fun f obj _ => hshown f obj
  shown f obj _ := hshown f obj
  used := htable.used ▸ Nat.le_refl _
  frameCap f _ := by rw [htable.cap]
  held f hf := htable.allocated ▸ hf
  mem _ _ _ _ := by rw [hmem]

/-- The resources have grown, and the frame table is as it was. -/
theorem grown (hr : Frames r) (hg : Grow r r') (ht : SameFrames r.frameTable r'.frameTable) :
    Unwritten r r' := by
  have hcap := ht.cap
  have hshown : ∀ f obj, Shown r f obj → Shown r' f obj := fun f obj hs =>
    hg.shown (by rw [hcap]) hs
  exact {
    frames := hr.carry (hg.rooted hr.rooted) ht.used (by rw [ht.free, ht.allocated])
      fun f obj _ => hshown f obj
    shown := fun f obj _ => hshown f obj
    used := ht.used ▸ Nat.le_refl _
    frameCap := fun f _ => by rw [hcap]
    held := fun f hf => ht.allocated ▸ hf
    mem := fun f _ obj hs => hg.mem obj hs.old }

theorem quiet (hr : Frames r) (h : Quiet r r') : Unwritten r r' :=
  grown hr h.grow (.of_eq h.frameTable)

/-- Taking a frame leaves the others alone. -/
theorem frameAllocated (hr : Frames r) (h : FrameAllocated r f r') :
    Unwritten r r' ∧ f ∉ r.frameTable.allocated ∧ f ∈ r'.frameTable.allocated := by
  have hframes : Frames r' ∧ Adds rootVSpace ∅ r r' ∧ f ∉ r.frameTable.allocated ∧
      f ∈ r'.frameTable.allocated := h.frames hr
  obtain ⟨hr', hadds, hfresh, hheld⟩ := hframes
  exact ⟨of_adds hadds hr', hfresh, hheld⟩

/-- Writing to a frame that was not in use at the start. -/
theorem write (h : Unwritten r r₁) (hr : Frames r) (hf : f < r₁.frameTable.used)
    (hs : Shown r₁ f obj) (hnew : f ∉ r.frameTable.allocated) (bytes : Nat → Nat) :
    Unwritten r { r₁ with kernel := r₁.kernel.writeMem obj bytes } :=
  { h with
    frames := h.frames.write obj bytes
    shown := fun g o hg ho =>
      have hs' := h.shown g o hg ho
      ⟨hs'.allocated, hs'.cap, hs'.page, hs'.old⟩
    mem := fun g hg o ho => by
      have hused := hr.held_used hg
      have hne : o ≠ obj := h.frames.ne_of_ne hf (hused.trans_le h.used)
        (fun heq => hnew (heq ▸ hg)) hs (h.shown g o hused ho)
      exact (Function.update_of_ne hne _ _).trans (h.mem g hg o ho) }

/-- A capability is copied into a new slot. -/
theorem copied (hr : Frames r) {slot src : Slot} {cs : CSpace} {k : Kernel} {rights : CapRights}
    (hfresh : ¬ r.cspace.Allocated slot)
    (hall : ∀ c, cs.Allocated c ↔ r.cspace.Allocated c ∨ c = slot)
    (hcopy : r.kernel.copy slot src rights = .ok k) :
    Unwritten r { r with cspace := cs, kernel := k } := by
  obtain ⟨cap, cap', -, -, rfl, -⟩ := Kernel.copy_ok hcopy
  have hne : ∀ c, r.cspace.Allocated c → c ≠ slot := fun c hc heq => hfresh (heq ▸ hc)
  refine of_shown hr ⟨(hall _).mpr (.inl hr.rooted.allocated), ?_⟩ ?_ ⟨rfl, rfl, rfl, rfl⟩ rfl
  · exact (Kernel.setCap_caps_of_ne (hne _ hr.rooted.allocated) _).trans hr.rooted.cap
  · intro f obj hs
    exact ⟨(hall _).mpr (.inl hs.allocated),
      (Kernel.setCap_caps_of_ne (hne _ hs.allocated) _).trans hs.cap, hs.page, hs.old⟩

/-- A page is mapped for a process. -/
theorem mapsFrom (hr : Frames r) {c vspace : Slot} {vaddr : Nat} {rights : CapRights}
    {vs : VSpaceId} (hall : r.cspace.Allocated vspace)
    (hcap : r.kernel.caps vspace = some (.vspace vs)) (hvs : vs ≠ rootVSpace)
    (h : MapsFrom r c vspace vaddr rights r') : Unwritten r r' := by
  obtain ⟨r₁, k, hq, hmap, rfl⟩ := h
  have hr₁ := hq.frames hr
  obtain ⟨obj, orig, access, m, vs', hc, hspace, -, hm, rfl⟩ := Kernel.frameMap_ok hmap
  obtain rfl : vs' = vs := by
    have heq := hspace.symm.trans ((hq.grow.caps _ hall).trans hcap)
    simpa using heq
  refine (quiet hr hq).trans hr (of_shown hr₁ ⟨hr₁.rooted.allocated, ?_⟩ ?_ ⟨rfl, rfl, rfl, rfl⟩
    rfl)
  · have hne : rootVSpaceSlot ≠ c := by
      rintro rfl
      cases hc.symm.trans hr₁.rooted.cap
    exact (congrFun (Kernel.enterPage_caps ..) _).trans
      ((Function.update_of_ne hne _ _).trans hr₁.rooted.cap)
  · intro f obj' hs
    -- the frame's own capability is mapped for the root server
    have hne : r₁.frameTable.cap f ≠ c := by
      rintro rfl
      have heq := hc.symm.trans hs.cap
      simp only [Option.some.injEq, Cap.frame.injEq] at heq
      rcases hm with ⟨hnone, -⟩ | hsome
      · cases hnone.symm.trans heq.2.2.2
      · have hpage := hsome.symm.trans heq.2.2.2
        simp only [Option.some.injEq, Prod.mk.injEq] at hpage
        exact hvs hpage.1
    refine ⟨hs.allocated, ?_, ?_, hs.old⟩
    · exact (congrFun (Kernel.enterPage_caps ..) _).trans
        ((Function.update_of_ne hne _ _).trans hs.cap)
    · rw [Kernel.enterPage_pages, if_neg fun hA => hvs hA.1.symm]
      exact hs.page

/-- A reply object is given back. -/
theorem deallocated (hr : Frames r) {x : Alloc} (hx : r.HoldsObject x.1)
    (h : Deallocated x r r') : Unwritten r r' := by
  obtain ⟨-, obj, kind, hcap⟩ := hx
  obtain ⟨r₁, hf, heq⟩ := h.freed
  have hdelete : r.kernel.delete x.1 = r.kernel.setCap x.1 none := by
    unfold Kernel.delete
    rw [hcap]
  have hkernel : r'.kernel = r.kernel.setCap x.1 none := by
    rw [heq, hf.eq, ← hdelete]
  have htable : r'.frameTable = r.frameTable := h.frameTable
  have hall : ∀ c, c ≠ x.1 → r.cspace.Allocated c → r'.cspace.Allocated c := by
    intro c hne hc
    rw [heq]
    exact (hf.others c hne).mpr hc
  have hroot : rootVSpaceSlot ≠ x.1 := by
    intro heq'
    rw [← heq', hr.rooted.cap] at hcap
    cases hcap
  refine of_shown hr ⟨hall _ hroot hr.rooted.allocated, ?_⟩ ?_ (.of_eq htable) ?_
  · rw [hkernel, Kernel.setCap_caps_of_ne hroot]
    exact hr.rooted.cap
  · intro f obj' hs
    have hne : r.frameTable.cap f ≠ x.1 := by
      intro heq'
      rw [← heq', hs.cap] at hcap
      cases hcap
    refine ⟨?_, ?_, ?_, ?_⟩
    · rw [htable]
      exact hall _ hne hs.allocated
    · rw [htable, hkernel, Kernel.setCap_caps_of_ne hne]
      exact hs.cap
    · rw [hkernel]
      exact hs.page
    · rw [hkernel]
      exact hs.old
  · rw [hkernel]
    rfl

/-- Threads wait or are resumed. -/
theorem waits (hr : Frames r) {k : Kernel} (hcaps : k.caps = r.kernel.caps)
    (hpages : k.pages = r.kernel.pages) (hmem : k.mem = r.kernel.mem)
    (hnext : k.nextObj = r.kernel.nextObj) : Unwritten r { r with kernel := k } := by
  refine of_shown hr ⟨hr.rooted.allocated, ?_⟩ (fun f obj hs => ?_) ⟨rfl, rfl, rfl, rfl⟩ hmem
  · show k.caps _ = _
    rw [hcaps]
    exact hr.rooted.cap
  · refine ⟨hs.allocated, ?_, ?_, ?_⟩
    · show k.caps _ = _
      rw [hcaps]
      exact hs.cap
    · show k.pages _ _ = _
      rw [hpages]
      exact hs.page
    · show obj < k.nextObj
      rw [hnext]
      exact hs.old

end Unwritten

/-! ## The tables of objects -/

namespace State

/-- The frame behind an offset of an object, by the kernel's name for it. -/
def frameAt (s : State) (o : ObjectRef) (offset : Nat) : Option Nat :=
  match (s.objects o).lookupFrame offset with
  | some f =>
    match s.res.kernel.caps f.cap with
    | some (.frame obj _ _ _) => some obj
    | _ => none
  | none => none

/-- Other bytes are in a frame. -/
def withBytes (s : State) (obj : Nat) (bytes : Nat → Nat) : State :=
  { s with res := { s.res with kernel := s.res.kernel.writeMem obj bytes } }

/-- The byte at an offset of an object. -/
def byteAt (s : State) (o : ObjectRef) (offset : Nat) : Nat :=
  match s.frameAt o offset with
  | some obj => s.res.kernel.mem obj (offset % pageSize4K)
  | none => 0

end State

/-- The entries of objects are frames in use, each the entry of one page. -/
structure Tabled (s : State) : Prop where
  frames : Frames s.res
  entry : ∀ o, (s.objects o).Ordinary → ∀ x f, (s.objects o).lookupFrame x = some f →
    f.frameRef ∈ s.res.frameTable.allocated ∧ f.cap = s.res.frameTable.cap f.frameRef
  single : ∀ o o', (s.objects o).Ordinary → (s.objects o').Ordinary → ∀ x y f g,
    (s.objects o).lookupFrame x = some f → (s.objects o').lookupFrame y = some g →
    f.frameRef = g.frameRef → o = o' ∧ path x = path y

namespace Tabled

variable {s s' s₁ : State} {o o' : ObjectRef} {x y : Nat} {f : ObjectFrame}

theorem shown (h : Tabled s) (ho : (s.objects o).Ordinary)
    (hf : (s.objects o).lookupFrame x = some f) : ∃ obj, Shown s.res f.frameRef obj := by
  obtain ⟨hheld, -⟩ := h.entry o ho x f hf
  exact h.frames.shown _ (h.frames.held_used hheld)

theorem frameAt (h : Tabled s) (ho : (s.objects o).Ordinary)
    (hf : (s.objects o).lookupFrame x = some f) {obj : Nat} (hs : Shown s.res f.frameRef obj) :
    s.frameAt o x = some obj := by
  obtain ⟨-, hcap⟩ := h.entry o ho x f hf
  simp only [State.frameAt, hf, hcap, hs.cap]

/-- A frame is the one page of one object. -/
theorem frame_eq (h : Tabled s) (ho : (s.objects o).Ordinary) (ho' : (s.objects o').Ordinary)
    {obj : Nat} (hx : s.frameAt o x = some obj) (hy : s.frameAt o' y = some obj) :
    o = o' ∧ path x = path y := by
  cases hf : (s.objects o).lookupFrame x with
  | none => simp [State.frameAt, hf] at hx
  | some f =>
    cases hg : (s.objects o').lookupFrame y with
    | none => simp [State.frameAt, hg] at hy
    | some g =>
      obtain ⟨obj₁, h₁⟩ := h.shown ho hf
      obtain ⟨obj₂, h₂⟩ := h.shown ho' hg
      cases hx.symm.trans (h.frameAt ho hf h₁)
      cases hy.symm.trans (h.frameAt ho' hg h₂)
      have hused := fun {o x f} (hord : (s.objects o).Ordinary)
        (hl : (s.objects o).lookupFrame x = some f) =>
          h.frames.held_used (h.entry o hord x f hl).1
      have hrefs := h.frames.distinct _ _ _ (hused ho hf) (hused ho' hg) h₁ h₂
      exact h.single o o' ho ho' x y f g hf hg hrefs

theorem byteAt_of_frameAt {obj : Nat} (hx : s.frameAt o x = some obj) :
    s.byteAt o x = s.res.kernel.mem obj (x % pageSize4K) := by
  simp only [State.byteAt, hx]

theorem byteAt_of_lookup_none (hx : (s.objects o).lookupFrame x = none) : s.byteAt o x = 0 := by
  simp only [State.byteAt, State.frameAt, hx]

end Tabled

/-! ## What a part of a turn keeps -/

/-- The objects below `n` have the bytes they had: the pages they had, and pages filled with
zeroes. -/
structure Remembers (n : Nat) (s s' : State) : Prop where
  tabled : Tabled s'
  unwritten : Unwritten s.res s'.res
  attributes : ∀ o < n, (s'.objects o).attributes = (s.objects o).attributes
  kept : ∀ o < n, ∀ x f, (s.objects o).lookupFrame x = some f →
    (s'.objects o).lookupFrame x = some f
  filled : ∀ o < n, (s.objects o).Ordinary → ∀ x f, (s.objects o).lookupFrame x = none →
    (s'.objects o).lookupFrame x = some f → ∀ obj, Shown s'.res f.frameRef obj →
      s'.res.kernel.mem obj = zeroPage
  next : s.objects.next ≤ s'.objects.next

namespace Remembers

variable {n : Nat} {s s' s₁ : State} {o : ObjectRef}

theorem ordinary (h : Remembers n s s') (ho : o < n) :
    (s'.objects o).Ordinary ↔ (s.objects o).Ordinary := by
  unfold AnonymousMemoryObject.Ordinary
  rw [h.attributes o ho]

protected theorem refl (h : Tabled s) : Remembers n s s where
  tabled := h
  unwritten := .refl h.frames
  attributes _ _ := rfl
  kept _ _ _ _ hf := hf
  filled _ _ _ _ _ hnone hf := by
    rw [hnone] at hf
    cases hf
  next := Nat.le_refl _

protected theorem trans (ht : Tabled s) (h : Remembers n s s₁) (h' : Remembers n s₁ s') :
    Remembers n s s' where
  tabled := h'.tabled
  unwritten := h.unwritten.trans ht.frames h'.unwritten
  attributes o ho := (h'.attributes o ho).trans (h.attributes o ho)
  kept o ho x f hf := h'.kept o ho x f (h.kept o ho x f hf)
  filled o ho hord x f hnone hf obj hs := by
    have hord₁ := (h.ordinary ho).mpr hord
    cases hf₁ : (s₁.objects o).lookupFrame x with
    | none => exact h'.filled o ho hord₁ x f hf₁ hf obj hs
    | some f₁ =>
      -- the page was filled before, and its frame is in use since
      cases (h'.kept o ho x f₁ hf₁).symm.trans hf
      obtain ⟨hheld, -⟩ := h.tabled.entry o hord₁ x f hf₁
      obtain ⟨obj₁, hs₁⟩ := h.tabled.shown hord₁ hf₁
      have hused := h.tabled.frames.held_used hheld
      obtain rfl := (h'.unwritten.shown _ obj₁ hused hs₁).unique hs
      rw [h'.unwritten.mem _ hheld obj₁ hs₁]
      exact h.filled o ho hord x f hnone hf₁ obj₁ hs₁
  next := h.next.trans h'.next

/-- Filling pages with zeroes does not show. -/
theorem byteAt (h : Remembers n s s') (ht : Tabled s) (ho : o < n) (hord : (s.objects o).Ordinary)
    (x : Nat) : s'.byteAt o x = s.byteAt o x := by
  have hord' := (h.ordinary ho).mpr hord
  cases hf : (s.objects o).lookupFrame x with
  | some f =>
    obtain ⟨hheld, -⟩ := ht.entry o hord x f hf
    obtain ⟨obj, hs⟩ := ht.shown hord hf
    have hs' := h.unwritten.shown _ obj (ht.frames.held_used hheld) hs
    have hf' := h.kept o ho x f hf
    rw [Tabled.byteAt_of_frameAt (ht.frameAt hord hf hs),
      Tabled.byteAt_of_frameAt (h.tabled.frameAt hord' hf' hs'), h.unwritten.mem _ hheld obj hs]
  | none =>
    rw [Tabled.byteAt_of_lookup_none hf]
    cases hf' : (s'.objects o).lookupFrame x with
    | none => exact Tabled.byteAt_of_lookup_none hf'
    | some f =>
      obtain ⟨obj, hs⟩ := h.tabled.shown hord' hf'
      rw [Tabled.byteAt_of_frameAt (h.tabled.frameAt hord' hf' hs),
        h.filled o ho hord x f hf hf' obj hs]
      rfl

/-- The tables of the objects stay as they are; an object may be new. -/
theorem same (h : Tabled s) (hs : Sane s) (hn : n ≤ s.objects.next)
    (hu : Unwritten s.res s'.res)
    (hframes : ∀ o, (s'.objects o).frames = (s.objects o).frames)
    (hattributes : ∀ o < s.objects.next, (s'.objects o).attributes = (s.objects o).attributes)
    (hnext : s.objects.next ≤ s'.objects.next) : Remembers n s s' := by
  have hlook : ∀ o x, (s'.objects o).lookupFrame x = (s.objects o).lookupFrame x := by
    intro o x
    unfold AnonymousMemoryObject.lookupFrame
    rw [hframes]
  -- an object with entries is not new
  have hold : ∀ {o x f}, (s'.objects o).Ordinary → (s'.objects o).lookupFrame x = some f →
      (s.objects o).Ordinary ∧ (s.objects o).lookupFrame x = some f := by
    intro o x f hord hf
    rw [hlook] at hf
    have hlt : o < s.objects.next := by
      by_contra hge
      have hblank : AnonymousMemoryObject.blank.lookupFrame x = none := Table.lookup_new _
      rw [hs.blankObject o (Nat.le_of_not_lt hge)] at hf
      cases hblank.symm.trans hf
    unfold AnonymousMemoryObject.Ordinary at hord ⊢
    rw [hattributes o hlt] at hord
    exact ⟨hord, hf⟩
  refine ⟨⟨hu.frames, ?_, ?_⟩, hu, fun o ho => hattributes o (Nat.lt_of_lt_of_le ho hn), ?_, ?_,
    hnext⟩
  · intro o hord x f hf
    obtain ⟨hord, hf⟩ := hold hord hf
    obtain ⟨hheld, hcap⟩ := h.entry o hord x f hf
    exact ⟨hu.held _ hheld, hcap.trans (hu.frameCap _ (h.frames.held_used hheld)).symm⟩
  · intro o o' hord hord' x y f g hf hg heq
    obtain ⟨hord, hf⟩ := hold hord hf
    obtain ⟨hord', hg⟩ := hold hord' hg
    exact h.single o o' hord hord' x y f g hf hg heq
  · intro o _ x f hf
    rw [hlook, hf]
  · intro o _ _ x f hnone hf
    rw [hlook, hnone] at hf
    cases hf

end Remembers

/-! ## Filling a page -/

section Insert

variable {n : Nat} {s s' : State} {o : ObjectRef} {x f : Nat} {c : Slot} {r : Res}
  {object : AnonymousMemoryObject}

/-- An object has what it had, and the frame at one page. -/
theorem lookupFrame_insert (hins : (s.objects o).insertFrameAt x ⟨c, f⟩ = .ok object)
    {o' : ObjectRef} {y : Nat} {g : ObjectFrame}
    (hg : ((s.objects.update o fun _ => object) o').lookupFrame y = some g) :
    (s.objects o').lookupFrame y = some g ∨ o' = o ∧ path y = path x ∧ g = ⟨c, f⟩ := by
  obtain ⟨t, ht, rfl⟩ := insertFrameAt_ok hins
  obtain ⟨-, hself, -, hne⟩ := insertAt_ok ht
  by_cases ho : o' = o
  · subst ho
    rw [Heap.update_self] at hg
    by_cases hpath : path y = path x
    · have hslot : t.lookupAt y = some ⟨c, f⟩ := by
        unfold PageTable.lookupAt at hself ⊢
        rw [hpath, hself]
      cases hslot.symm.trans hg
      exact .inr ⟨rfl, hpath, rfl⟩
    · exact .inl ((hne y hpath).symm.trans hg)
  · rw [Heap.update_of_ne _ ho] at hg
    exact .inl hg

theorem lookupFrame_insert_of_some (hins : (s.objects o).insertFrameAt x ⟨c, f⟩ = .ok object)
    {o' : ObjectRef} {y : Nat} {g : ObjectFrame} (hg : (s.objects o').lookupFrame y = some g) :
    ((s.objects.update o fun _ => object) o').lookupFrame y = some g := by
  obtain ⟨t, ht, rfl⟩ := insertFrameAt_ok hins
  obtain ⟨-, -, hnone, hne⟩ := insertAt_ok ht
  by_cases ho : o' = o
  · subst ho
    rw [Heap.update_self]
    have hpath : path y ≠ path x := by
      intro heq
      have hx : (s.objects o').frames.lookupAt x = some g := by
        unfold PageTable.lookupAt
        rw [← heq]
        exact hg
      cases hnone.symm.trans hx
    exact (hne y hpath).trans hg
  · rwa [Heap.update_of_ne _ ho]

theorem attributes_insert (hins : (s.objects o).insertFrameAt x ⟨c, f⟩ = .ok object)
    (o' : ObjectRef) :
    ((s.objects.update o fun _ => object) o').attributes = (s.objects o').attributes := by
  obtain ⟨t, -, rfl⟩ := insertFrameAt_ok hins
  exact s.objects.update_preserves (r := o) AnonymousMemoryObject.attributes
    (f := fun _ => { s.objects o with frames := t }) rfl o'

/-- A frame that is taken becomes a page of one object. -/
theorem Tabled.inserted (h : Tabled s) (halloc : FrameAllocated s.res f r)
    (hins : (s.objects o).insertFrameAt x ⟨r.frameTable.cap f, f⟩ = .ok object) :
    Tabled { s with res := r, objects := s.objects.update o fun _ => object } := by
  obtain ⟨hu, hfresh, hheld⟩ := Unwritten.frameAllocated h.frames halloc
  have hord : ∀ {o'}, ((s.objects.update o fun _ => object) o').Ordinary →
      (s.objects o').Ordinary := by
    intro o' hord
    unfold AnonymousMemoryObject.Ordinary at hord ⊢
    rwa [attributes_insert hins] at hord
  refine ⟨hu.frames, fun o' ho' y g hg => ?_, fun o₁ o₂ h₁ h₂ y₁ y₂ g₁ g₂ hg₁ hg₂ heq => ?_⟩
  · rcases lookupFrame_insert hins hg with hg | ⟨-, -, rfl⟩
    · obtain ⟨hmem, hcap⟩ := h.entry o' (hord ho') y g hg
      exact ⟨hu.held _ hmem, hcap.trans (hu.frameCap _ (h.frames.held_used hmem)).symm⟩
    · exact ⟨hheld, rfl⟩
  · -- an older entry is not the new frame
    have hnew : ∀ {o' y g}, (s.objects o').Ordinary → (s.objects o').lookupFrame y = some g →
        g.frameRef ≠ f := fun hord hg heq => hfresh (heq ▸ (h.entry _ hord _ _ hg).1)
    rcases lookupFrame_insert hins hg₁ with hold₁ | ⟨rfl, hp₁, rfl⟩
    · rcases lookupFrame_insert hins hg₂ with hold₂ | ⟨rfl, hp₂, rfl⟩
      · exact h.single o₁ o₂ (hord h₁) (hord h₂) y₁ y₂ g₁ g₂ hold₁ hold₂ heq
      · exact absurd heq (hnew (hord h₁) hold₁)
    · rcases lookupFrame_insert hins hg₂ with hold₂ | ⟨rfl, hp₂, rfl⟩
      · exact absurd heq.symm (hnew (hord h₂) hold₂)
      · exact ⟨rfl, hp₁.trans hp₂.symm⟩

/-- A page of a new object, whatever is in the frame. -/
theorem Remembers.inserted (h : Tabled s) (hn : n ≤ o) (halloc : FrameAllocated s.res f r)
    (hins : (s.objects o).insertFrameAt x ⟨r.frameTable.cap f, f⟩ = .ok object) :
    Remembers n s { s with res := r, objects := s.objects.update o fun _ => object } where
  tabled := h.inserted halloc hins
  unwritten := (Unwritten.frameAllocated h.frames halloc).1
  attributes o' _ := attributes_insert hins o'
  kept o' _ y g hg := lookupFrame_insert_of_some hins hg
  filled o' ho' _ y g hnone hg := by
    rcases lookupFrame_insert hins hg with hg | ⟨rfl, -, -⟩
    · cases hnone.symm.trans hg
    · exact absurd ho' (Nat.not_lt.mpr hn)
  next := Nat.le_refl _

/-- The bytes of the frames in use have not changed, and the rest is as it was. -/
theorem Tabled.written (h : Tabled s) (obj : Nat) (bytes : Nat → Nat) :
    Tabled (s.withBytes obj bytes) :=
  ⟨h.frames.write obj bytes, h.entry, h.single⟩

/-- A page is looked up, and filled with zeroes if it is not there. -/
theorem Remembers.gotFrame (h : Tabled s) {cap : Slot} (hg : GotFrame o x cap s s') :
    Remembers n s s' := by
  cases hg with
  | found => exact .refl h
  | made f r object page hnone halloc hcap hins hpage =>
    subst hcap
    obtain ⟨hu, hfresh, hheld⟩ := Unwritten.frameAllocated h.frames halloc
    have hused := hu.frames.held_used hheld
    obtain ⟨obj, hs⟩ := hu.frames.shown f hused
    obtain rfl : obj = page.obj :=
      congrArg PageEntry.obj (Option.some.inj (hs.page.symm.trans hpage))
    refine ⟨(h.inserted halloc hins).written page.obj zeroPage,
      hu.write h.frames hused hs hfresh zeroPage, fun o' _ => attributes_insert hins o',
      fun o' _ y g hg => lookupFrame_insert_of_some hins hg, ?_, Nat.le_refl _⟩
    intro o' _ _ y g hnone' hg obj' hs'
    rcases lookupFrame_insert hins hg with hg | ⟨rfl, -, rfl⟩
    · cases hnone'.symm.trans hg
    · have hs'' : Shown r f obj' := ⟨hs'.allocated, hs'.cap, hs'.page, hs'.old⟩
      obtain rfl := hs.unique hs''
      exact Function.update_self _ _ _

theorem Remembers.eagerFilled {is : List Nat} (hf : EagerFilled o is s s') :
    ∀ {n : Nat}, Tabled s → n ≤ o → Remembers n s s' := by
  induction hf with
  | nil s => exact fun h _ => .refl h
  | cons f r object alloc insert _ ih =>
    intro n h hn
    have h₁ := Remembers.inserted h hn alloc insert
    exact h₁.trans h (ih h₁.tabled hn)

end Insert

end Smos.RootServer
