/-
Smos.RootServer.SegmentImage — what is in memory once a segment is loaded.

The loop of `load_segment_into_vspace` goes from page to page with a position,
an address and a page number of its own; `PagesLoaded` says after `n` turns
which pages are there, and with which bytes. It is kept by a turn on a page
that nobody has mapped, so the segments before must have stayed inside their
windows (`Loading`).

A segment that ends inside a page has its image in memory then. One that ends
on a page boundary has a page too many in its window, with no frame behind
it, or was taken for an overlap and is not there at all (`loadSegment_image`).
-/
import Smos.RootServer.SegmentMemory

namespace Smos.RootServer

open Smos.Base

/-! ## Pages that stay -/

section Pages

variable {s s' s₁ : State} {r r' r₀ : Res} {vs : VSpaceId} {vspace : Slot} {A : Set Nat} {va : Nat}
  {frame : ObjectFrame} {c : Slot} {rights : CapRights} {bytes : Nat → Nat} {x : Segment}
  {data : Nat → Nat} {o : ObjectRef} {v : ViewRef} {i j n : Nat}

/-- Filling other pages leaves a page as it is. -/
theorem Backed.adds (h : Backed vs va frame c rights bytes r) (hr : Frames r)
    (hvs : vs ≠ rootVSpace) (ha : Adds vs A r r') (hva : va ∉ A) :
    Backed vs va frame c rights bytes r' := by
  obtain ⟨obj, hs, hcap, hpage, hmem⟩ := h.page
  have hused := hr.held_used h.held
  exact {
    held := ha.held _ h.held
    cap := by rw [ha.frameCap _ hused, h.cap]
    slot := ha.allocated _ h.slot
    page := ⟨obj, ha.shown _ obj hused hs, (ha.caps _ h.slot).trans hcap,
      (ha.pages vs va hvs fun hA => hva hA.2).trans hpage, (ha.mem _ h.held obj hs).trans hmem⟩ }

theorem lookupFrame_inserted {x y : AnonymousMemoryObject} {offset : Nat}
    (h : x.insertFrameAt offset frame = .ok y) : y.lookupFrame offset = some frame ∧
      ∀ offset', path offset' ≠ path offset → y.lookupFrame offset' = x.lookupFrame offset' := by
  obtain ⟨t, hins, rfl⟩ := insertFrameAt_ok h
  obtain ⟨-, hself, -, hother⟩ := insertAt_ok hins
  exact ⟨hself, hother⟩

theorem lookupCap_inserted {x y : View} {offset : Nat} (h : x.insertCapAt offset c = .ok y) :
    y.rights = x.rights ∧ y.lookupCap offset = some c ∧
      ∀ offset', path offset' ≠ path offset → y.lookupCap offset' = x.lookupCap offset' := by
  obtain ⟨t, hins, rfl⟩ := insertCapAt_ok h
  obtain ⟨-, hself, -, hother⟩ := insertAt_ok hins
  exact ⟨rfl, hself, hother⟩

/-- Different pages of an object have different paths. -/
theorem path_ne_of_page_ne (hi : i * pageSize4K < tableBytes) (hj : j * pageSize4K < tableBytes)
    (hne : i ≠ j) : path (i * pageSize4K) ≠ path (j * pageSize4K) := by
  intro heq
  have hpages := (path_eq_iff hi hj).mp heq
  rw [Nat.mul_div_cancel _ pageSize4K_pos, Nat.mul_div_cancel _ pageSize4K_pos] at hpages
  exact hne hpages

/-! ## The loop -/

/-- After `n` turns from `r₀`: the first `n` pages are the object's and the view's, with the
image's bytes where nothing was mapped before. -/
structure PagesLoaded (vspace : Slot) (vs : VSpaceId) (x : Segment) (data : Nat → Nat)
    (o : ObjectRef) (v : ViewRef) (rights : CapRights) (r₀ : Res) (n : Nat) (s : State) : Prop where
  ready : Ready vspace vs s.res
  adds : Adds vs {va | ∃ j < n, va = x.pageAddr j} r₀ s.res
  viewRights : (s.views v).rights = rights
  unused : ∀ j, n ≤ j → j * pageSize4K < tableBytes →
    (s.objects o).lookupFrame (j * pageSize4K) = none
  pages : ∀ j < n, r₀.kernel.pages vs (x.pageAddr j) = none →
    ∃ frame c, (s.objects o).lookupFrame (j * pageSize4K) = some frame ∧
      (s.views v).lookupCap (j * pageSize4K) = some c ∧
      Backed vs (x.pageAddr j) frame c rights
        (pageBytes x data (x.pos j) (x.pVaddr + x.pos j)) s.res

theorem pageAddr_injective (h : x.pageAddr i = x.pageAddr j) : i = j := by
  have hpages := Nat.eq_of_mul_eq_mul_right pageSize4K_pos h
  omega

/-- A turn of the loop. -/
theorem PagesLoaded.turn (h : PagesLoaded vspace vs x data o v rights r₀ n s) (hr₀ : Frames r₀)
    (hn : n * pageSize4K < tableBytes)
    (hp : PagePlaced vspace vs o v (x.pageAddr n) n
      (pageBytes x data (x.pos n) (x.pVaddr + x.pos n)) s s') :
    PagesLoaded vspace vs x data o v rights r₀ (n + 1) s' := by
  obtain ⟨frame, c, object, view, hobject, hview, hs', hpage⟩ := hp.heaps
  obtain ⟨hframe, hframes⟩ := lookupFrame_inserted hobject
  obtain ⟨hrights, hcap, hcaps⟩ := lookupCap_inserted hview
  have ho : s'.objects o = object := by rw [hs']; simp
  have hv : s'.views v = view := by rw [hs']; simp
  have hfresh : ∀ j < n, x.pageAddr j ∉ ({x.pageAddr n} : Set Nat) :=
    fun j hj heq => absurd (pageAddr_injective heq) hj.ne
  refine ⟨hp.ready, ?_, by rw [hv, hrights, h.viewRights], fun j hj hlt => ?_, fun j hj hfree => ?_⟩
  · refine (h.adds.trans hr₀ hp.adds).mono ?_
    rintro va (⟨j, hj, rfl⟩ | rfl)
    · exact ⟨j, by omega, rfl⟩
    · exact ⟨n, Nat.lt_succ_self n, rfl⟩
  · rw [ho, hframes _ (path_ne_of_page_ne hlt hn (by omega))]
    exact h.unused j (by omega) hlt
  · rw [ho, hv]
    rcases Nat.lt_succ_iff_lt_or_eq.mp hj with hj | rfl
    · obtain ⟨frame', c', hlook, hlook', hback⟩ := h.pages j hj hfree
      have hjt : j * pageSize4K < tableBytes := (Nat.mul_le_mul_right _ hj.le).trans_lt hn
      have hpath := path_ne_of_page_ne hjt hn hj.ne
      exact ⟨frame', c', (hframes _ hpath).trans hlook, (hcaps _ hpath).trans hlook',
        hback.adds h.ready.frames h.ready.user hp.adds (hfresh j hj)⟩
    · have hunmapped : s.res.kernel.pages vs (x.pageAddr j) = none := by
        rw [h.adds.pages vs _ h.ready.user, hfree]
        rintro ⟨-, k, hk, heq⟩
        exact absurd (pageAddr_injective heq) hk.ne'
      have hback := hpage hunmapped
      rw [h.viewRights] at hback
      exact ⟨frame, c, hframe, hcap, hback⟩

/-- A page the loop goes to lies in the segment's window. -/
theorem page_lt_windowSize (h : x.pos i < x.pMemsz) : i * pageSize4K < x.windowSize := by
  have hle := (Segment.pos_lt_iff (i := i) (by omega)).mp h
  have hlast : (x.pVaddr + x.pMemsz - 1) / pageSize4K ≤ (x.pVaddr + x.pMemsz) / pageSize4K :=
    Nat.div_le_div_right (by omega)
  have hsize := reach_size (a := x.pVaddr) (n := x.pMemsz) pageSize4K_pos
  have hmul : (x.pVaddr / pageSize4K + i) * pageSize4K ≤
      (x.pVaddr + x.pMemsz) / pageSize4K * pageSize4K := Nat.mul_le_mul_right _ (hle.trans hlast)
  have hpage := pageSize4K_pos
  rw [Nat.add_mul] at hmul hsize
  unfold Segment.windowSize
  omega

/-- The loop goes on to the end of the segment. -/
theorem loadPages_spec (w : WindowRef) (hr₀ : Frames r₀) (hsize : x.windowSize ≤ tableBytes) :
    ∀ (fuel i : Nat) (s : State), PagesLoaded vspace vs x data o v rights r₀ i s →
      x.pMemsz ≤ fuel + x.pos i → (∀ j < i, x.pos j < x.pMemsz) →
      (loadPages w o v vspace x data fuel i (x.pos i) (x.pVaddr + x.pos i)).wp
        (fun _ s' => ∃ n, PagesLoaded vspace vs x data o v rights r₀ n s' ∧
          ∀ j, j < n ↔ x.pos j < x.pMemsz)
        (fun _ _ => True) (fun _ => True) s := by
  have hdone : ∀ (i : Nat) (s : State), PagesLoaded vspace vs x data o v rights r₀ i s →
      ¬ x.pos i < x.pMemsz → (∀ j < i, x.pos j < x.pMemsz) →
      ∃ n, PagesLoaded vspace vs x data o v rights r₀ n s ∧ ∀ j, j < n ↔ x.pos j < x.pMemsz := by
    intro i s h hend hbefore
    refine ⟨i, h, fun j => ⟨hbefore j, fun hj => ?_⟩⟩
    by_contra hij
    exact hend ((Segment.pos_mono (Nat.not_lt.mp hij)).trans_lt hj)
  intro fuel
  induction fuel with
  | zero =>
    intro i s h hfuel hbefore
    exact hdone i s h (by omega) hbefore
  | succ fuel ih =>
    intro i s h hfuel hbefore
    rw [loadPages_succ]
    by_cases hi : x.pos i < x.pMemsz
    · have hi' : i * pageSize4K < tableBytes := (page_lt_windowSize hi).trans_le hsize
      have hnext := Segment.pos_succ (x := x) (i := i)
      have hmod := Nat.mod_lt (x.pVaddr + x.pos i) pageSize4K_pos
      rw [if_pos hi, Prog.wp_bind, Segment.roundDown_pos]
      refine Prog.wp_mono (placePage_spec h.ready) ?_ (fun _ _ _ => trivial) fun _ _ => trivial
      intro _ s₁ hplaced
      simp only [Prog.wp_bind, wp_addU]
      refine ⟨fun _ => ⟨fun _ => ?_, fun _ => trivial⟩, fun _ => trivial⟩
      have hturn := h.turn hr₀ hi' hplaced
      have hrest := ih (i + 1) s₁ hturn (by omega) fun j hj => ?_
      · rw [Nat.add_assoc, ← hnext]
        exact hrest
      · exact (Segment.pos_mono (Nat.lt_succ_iff.mp hj)).trans_lt hi
    · rw [if_neg hi]
      exact hdone i s h hi hbefore

end Pages

/-! ## One segment -/

/-- The segments in `ys` have windows, and all that is mapped lies in them. -/
structure Loading (vspace : Slot) (vs : VSpaceId) (ys : List Segment) (ws : List WindowRef)
    (s : State) : Prop where
  ready : Ready vspace vs s.res
  regions : List.Forall₂ (HasRegion s) ys ws
  mapped : ∀ va, s.res.kernel.pages vs va ≠ none → ∃ y ∈ ys, va / pageSize4K ∈ y.reach

/-- The new window `w` of a segment, after all its pages are there. -/
structure SegmentPlaced (vspace : Slot) (vs : VSpaceId) (x : Segment) (data : Nat → Nat)
    (w : WindowRef) (r₀ : Res) (s' : State) : Prop where
  region : ∃ o v n, Region x w v o s' ∧
    PagesLoaded vspace vs x data o v (rightsFromElfFlags x.pFlags) r₀ n s' ∧
    x.windowSize ≤ tableBytes ∧ ∀ j, j < n ↔ x.pos j < x.pMemsz

section Segments

variable {s s' : State} {vs : VSpaceId} {vspace : Slot} {x : Segment} {data : Nat → Nat}
  {xs ys : List Segment} {ws ws' : List WindowRef}

theorem newRegion_blank {ε : Type} (start size : Nat) (objRights viewRights : CapRights) :
    (newRegion start size objRights viewRights :
      SProg ε (WindowRef × ObjectRef × ViewRef)).wp
      (fun region s' => s'.res = s.res ∧ (s'.views region.2.2).rights = viewRights ∧
        ∀ offset, (s'.objects region.2.1).lookupFrame offset = none)
      (fun _ _ => False) (fun _ => False) s := by
  simp only [newRegion, Prog.wp_bind, wp_newWindow, wp_newObject, wp_newView, wp_modifyWindow,
    wp_modifyObject, Prog.wp_pure, Heap.alloc_update_self]
  refine ⟨trivial, ?_, fun offset => ?_⟩
  · exact congrArg View.rights (Heap.alloc_self _ _)
  · rw [show ∀ object : AnonymousMemoryObject, (s.objects.alloc object) s.objects.next = object from
      fun _ => Heap.alloc_self _ _]
    exact Table.lookup_new _

/-- A segment is skipped for an overlap, with nothing done, or placed. -/
theorem loadSegment_placed (h : Loading vspace vs ys ws s) :
    (loadSegment vspace x data ws).wp
      (fun ws' s' => (∃ y ∈ ys, x.Hits y) ∧ ws' = ws ∧ s' = s ∨
        (¬ ∃ y ∈ ys, x.Hits y) ∧ ws' = ws ++ [s.windows.next] ∧ RegionsKept s s' ∧
          SegmentPlaced vspace vs x data s.windows.next s.res s')
      (fun _ _ => True) (fun _ => True) s := by
  unfold loadSegment
  simp only [Prog.wp_bind, wp_addU]
  refine ⟨fun _ => ⟨fun _ => ⟨fun _ => ?_, fun _ => trivial⟩, fun _ => trivial⟩, fun _ => trivial⟩
  refine Prog.wp_mono (overlappingSegment_spec h.regions) ?_ (fun _ _ hf => hf.elim) fun _ hp => hp
  rintro found s₁ ⟨hs, hfound⟩
  obtain rfl : s = s₁ := hs.symm
  cases found with
  | some w =>
    have hsame : Keeping (fun t => t = s) (handleOverlappingSegment w x : SProg Sel4Error Unit) :=
      handleOverlappingSegment_keeping w x
    simp only [Prog.wp_bind]
    refine Prog.wp_mono (hsame s rfl) ?_ (fun _ _ _ => trivial) fun _ hp => hp
    intro _ s' hs'
    exact .inl ⟨hfound.mp rfl, rfl, hs'.2⟩
  | none =>
    have hfree : ¬ ∃ y ∈ ys, x.Hits y := fun hy => absurd (hfound.mpr hy) (by simp)
    simp only [Prog.wp_ite, Prog.wp_panic, Prog.wp_bind]
    refine ⟨fun _ => trivial, fun hsize => ?_⟩
    refine Prog.wp_mono (Prog.wp_and (newRegion_spec x _ _) (newRegion_blank _ _ _ _)) ?_
      (fun _ _ hf => hf.1.elim) fun _ hp => hp.1.elim
    rintro ⟨w, o, v⟩ s₁ ⟨⟨hl, hw, hr⟩, hres, hrights, hblank⟩
    obtain rfl : w = s.windows.next := hw
    have hstart : PagesLoaded vspace vs x data o v (rightsFromElfFlags x.pFlags) s.res 0 s₁ := {
      ready := hres ▸ h.ready
      adds := hres ▸ .refl _
      viewRights := hrights
      unused := fun j _ _ => hblank _
      pages := fun j hj => absurd hj (Nat.not_lt_zero j) }
    have htable : x.windowSize ≤ tableBytes := Nat.not_lt.mp hsize
    have hpages := loadPages_spec s.windows.next h.ready.frames htable x.pMemsz 0 s₁ hstart
      (Nat.le_add_right _ _) fun j hj => absurd hj (Nat.not_lt_zero j)
    have hkept := loadPages_keeping (I := RegionsKept s₁) s.windows.next o v vspace x data x.pMemsz
      0 0 x.pVaddr s₁ (.refl s₁)
    refine Prog.wp_mono (Prog.wp_and hpages hkept) ?_ (fun _ _ _ => trivial) fun _ _ => trivial
    rintro _ s' ⟨⟨n, hloaded, hn⟩, -, hl'⟩
    exact .inr ⟨hfree, rfl, hl.trans hl', ⟨o, v, n, hr.kept hl', hloaded, htable, hn⟩⟩

theorem pageAddr_div (i : Nat) : x.pageAddr i / pageSize4K = x.pVaddr / pageSize4K + i :=
  Nat.mul_div_cancel _ pageSize4K_pos

/-- The loop goes to the pages the segment touches. -/
theorem pos_lt_iff_pages (i : Nat) :
    x.pos i < x.pMemsz ↔ x.pVaddr / pageSize4K + i ∈ x.pages := by
  unfold Segment.pages
  rw [mem_touched pageSize4K_pos]
  constructor
  · intro h
    have hm : 0 < x.pMemsz := by omega
    exact ⟨hm, Nat.le_add_right _ _, (Segment.pos_lt_iff hm).mp h⟩
  · rintro ⟨hm, -, hle⟩
    exact (Segment.pos_lt_iff hm).mpr hle

theorem Loading.step (h : Loading vspace vs ys ws s)
    (hrun : loadSegment vspace x data ws s = .ok ws' s') : ∃ ys', Loading vspace vs ys' ws' s' := by
  obtain ⟨-, rfl, rfl⟩ | ⟨-, rfl, hl, hplaced⟩ := Prog.wp_ok (loadSegment_placed h) hrun
  · exact ⟨ys, h⟩
  · obtain ⟨o, v, n, hr, hloaded, -, hn⟩ := hplaced.region
    have hold := h.regions.imp fun y w (hy : HasRegion s y w) => hy.kept hl
    refine ⟨ys ++ [x], hloaded.ready, List.rel_append hold (.cons ⟨v, o, hr⟩ .nil), ?_⟩
    intro va hva
    by_cases hnew : ∃ j < n, va = x.pageAddr j
    · obtain ⟨j, hj, rfl⟩ := hnew
      refine ⟨x, List.mem_append_right _ (List.mem_singleton_self x), ?_⟩
      rw [pageAddr_div]
      exact touched_subset_reach pageSize4K_pos ((pos_lt_iff_pages j).mp ((hn j).mp hj))
    · rw [hloaded.adds.pages vs va h.ready.user fun hA => hnew hA.2] at hva
      obtain ⟨y, hy, hreach⟩ := h.mapped va hva
      exact ⟨y, List.mem_append_left _ hy, hreach⟩

/-- Loading starts from an empty address space, and each segment goes on from there. -/
theorem Loading.run (h : Loading vspace vs ys ws s)
    (hrun : loadSegments vspace xs ws s = .ok ws' s') : ∃ ys', Loading vspace vs ys' ws' s' := by
  induction xs generalizing ys ws s with
  | nil =>
    cases hrun
    exact ⟨ys, h⟩
  | cons x xs ih =>
    by_cases hx : x.Loadable
    · obtain ⟨data, ws₁, s₁, -, hload, hrest⟩ := loadSegments_cons_ok hx hrun
      obtain ⟨ys₁, h₁⟩ := h.step hload
      exact ih h₁ hrest
    · rw [loadSegments_skip hx] at hrun
      exact ih h hrun

end Segments

/-! ## The image -/

/-- The byte at an address of an address space. -/
def Res.byteAt (r : Res) (vs : VSpaceId) (a : Nat) : Option Nat :=
  (r.kernel.pages vs (roundDown a)).map fun e => r.kernel.mem e.obj (a % pageSize4K)

/-- Page `j` of a window is the frame at page `j` of the object, mapped with the capability at
page `j` of the view. -/
def PageBacked (vs : VSpaceId) (w : WindowRef) (v : ViewRef) (o : ObjectRef) (s : State)
    (j : Nat) : Prop :=
  ∃ frame c bytes, (s.objects o).lookupFrame (j * pageSize4K) = some frame ∧
    (s.views v).lookupCap (j * pageSize4K) = some c ∧
    Backed vs ((s.windows w).start + j * pageSize4K) frame c (s.views v).rights bytes s.res

/-- The segment's image is in memory, its pages are zero around it, and the new window, if there
is one, has a page of the object and of the view behind each of its pages. -/
structure SegmentLoaded (vs : VSpaceId) (x : Segment) (data : Nat → Nat)
    (ws ws' : List WindowRef) (s : State) : Prop where
  file : ∀ k < x.pFilesz, s.res.byteAt vs (x.pVaddr + k) = some (data k)
  bss : ∀ k, x.pFilesz ≤ k → k < x.pMemsz → s.res.byteAt vs (x.pVaddr + k) = some 0
  around : ∀ a, a / pageSize4K ∈ x.pages → a ∉ span x.pVaddr x.pMemsz →
    s.res.byteAt vs a = some 0
  window : ∀ w, ws' = ws ++ [w] → ∃ v o, (s.windows w).boundView = some v ∧
    (s.views v).boundObject = some o ∧
    ∀ j, j * pageSize4K < (s.windows w).size → PageBacked vs w v o s j

section Image

variable {s s' s₀ : State} {r r₀ : Res} {vs : VSpaceId} {vspace : Slot} {x : Segment}
  {data : Nat → Nat} {o : ObjectRef} {v : ViewRef} {w : WindowRef} {n : Nat} {pre ys : List Segment}
  {ws ws' : List WindowRef} {rights : CapRights}

theorem start_page (x : Segment) (j : Nat) :
    roundDown x.pVaddr + j * pageSize4K = x.pageAddr j := by
  unfold roundDown Segment.pageAddr
  rw [Nat.add_mul]

/-- The bytes of the pages that are there. -/
theorem PagesLoaded.byteAt (h : PagesLoaded vspace vs x data o v rights r₀ n s)
    (hfree : ∀ j < n, r₀.kernel.pages vs (x.pageAddr j) = none)
    (hn : ∀ j, j < n ↔ x.pos j < x.pMemsz) {a : Nat} (ha : a / pageSize4K ∈ x.pages) :
    s.res.byteAt vs a = some (x.byte data a) := by
  obtain ⟨j, hj⟩ : ∃ j, a / pageSize4K = x.pVaddr / pageSize4K + j :=
    Nat.exists_eq_add_of_le ((mem_touched pageSize4K_pos).mp ha).2.1
  rw [hj] at ha
  have hjn : j < n := (hn j).mpr ((pos_lt_iff_pages j).mpr ha)
  obtain ⟨frame, c, -, -, hback⟩ := h.pages j hjn (hfree j hjn)
  obtain ⟨obj, -, -, hpage, hmem⟩ := hback.page
  have hround : roundDown a = x.pageAddr j := by
    unfold roundDown Segment.pageAddr
    rw [hj]
  have hbyte : x.pageAddr j + a % pageSize4K = a := by
    rw [← hround]
    unfold roundDown
    rw [Nat.mul_comm]
    exact Nat.div_add_mod a pageSize4K
  unfold Res.byteAt
  rw [hround, hpage, Option.map_some, hmem,
    pageBytes_image x data (Nat.mod_lt a pageSize4K_pos), hbyte]

/-- A segment that ends inside a page is all there. -/
theorem SegmentPlaced.loaded (h : SegmentPlaced vspace vs x data w r₀ s')
    (hfree : ∀ va, va / pageSize4K ∈ x.pages → r₀.kernel.pages vs va = none)
    (hfile : x.pFilesz ≤ x.pMemsz) (hm : 0 < x.pMemsz)
    (hend : (x.pVaddr + x.pMemsz) % pageSize4K ≠ 0) :
    SegmentLoaded vs x data ws (ws ++ [w]) s' := by
  obtain ⟨o, v, n, hr, hloaded, -, hn⟩ := h.region
  have hfree' : ∀ j < n, r₀.kernel.pages vs (x.pageAddr j) = none := by
    intro j hj
    refine hfree _ ?_
    rw [pageAddr_div]
    exact (pos_lt_iff_pages j).mp ((hn j).mp hj)
  have hbytes : ∀ a, a / pageSize4K ∈ x.pages → s'.res.byteAt vs a = some (x.byte data a) :=
    fun a => hloaded.byteAt hfree' hn
  have hin : ∀ k < x.pMemsz, (x.pVaddr + k) / pageSize4K ∈ x.pages := fun k hk =>
    ⟨x.pVaddr + k, mem_span.mpr ⟨Nat.le_add_right _ _, by omega⟩, rfl⟩
  refine ⟨fun k hk => ?_, fun k hk hk' => ?_, fun a ha hout => ?_, ?_⟩
  · rw [hbytes _ (hin k (by omega))]
    unfold Segment.byte
    rw [if_pos ⟨Nat.le_add_right _ _, by omega⟩, Nat.add_sub_cancel_left]
  · rw [hbytes _ (hin k hk')]
    unfold Segment.byte
    rw [if_neg (by omega)]
  · rw [mem_span] at hout
    rw [hbytes a ha]
    unfold Segment.byte
    rw [if_neg (by omega)]
  · intro w' hw'
    obtain rfl : w = w' := by simpa using hw'
    refine ⟨v, o, by rw [hr.window], hr.view, fun j hj => ?_⟩
    rw [hr.window] at hj
    -- every page of the window is touched
    have hpage : x.pVaddr / pageSize4K + j ∈ x.pages := by
      have hreach : x.reach = x.pages :=
        (Segment.reach_eq_pages_iff hm).mpr fun hb => hend hb.2
      rw [← hreach, ← pageAddr_div]
      refine (mem_span_reach pageSize4K_pos).mp (mem_span.mpr ⟨?_, ?_⟩)
      · exact Nat.mul_le_mul_right _ (Nat.le_add_right _ _)
      · rw [← start_page]
        exact Nat.add_lt_add_left hj _
    have hjn : j < n := (hn j).mpr ((pos_lt_iff_pages j).mpr hpage)
    obtain ⟨frame, c, hframe, hcap, hback⟩ := hloaded.pages j hjn (hfree' j hjn)
    have hstart : x.pageAddr j = (s'.windows w).start + j * pageSize4K := by
      rw [hr.window, start_page]
    rw [hstart, ← hloaded.viewRights] at hback
    exact ⟨frame, c, _, hframe, hcap, hback⟩

/-- A segment that is empty or ends on a page boundary has a page of its window with nothing
behind it. -/
theorem SegmentPlaced.not_loaded (h : SegmentPlaced vspace vs x data w r₀ s')
    (hend : x.pMemsz = 0 ∨ (x.pVaddr + x.pMemsz) % pageSize4K = 0) :
    ¬ SegmentLoaded vs x data ws (ws ++ [w]) s' := by
  obtain ⟨o, v, n, hr, hloaded, htable, hn⟩ := h.region
  intro hall
  obtain ⟨v', o', hv, ho, hpages⟩ := hall.window w rfl
  obtain rfl : v = v' := by simpa [hr.window] using hv
  obtain rfl : o = o' := by simpa [hr.view] using ho
  obtain ⟨j, hj⟩ : ∃ j, (x.pVaddr + x.pMemsz) / pageSize4K = x.pVaddr / pageSize4K + j :=
    Nat.exists_eq_add_of_le (Nat.div_le_div_right (Nat.le_add_right _ _))
  -- the last page of the window is not touched
  have hlast : ¬ x.pos j < x.pMemsz := by
    rw [pos_lt_iff_pages, ← hj]
    rcases hend with hm | hend
    · intro hmem
      exact absurd ((mem_touched pageSize4K_pos).mp hmem).1 (by omega)
    · exact last_not_touched pageSize4K_pos hend
  have hsize : j * pageSize4K < x.windowSize := by
    have hreach := reach_size (a := x.pVaddr) (n := x.pMemsz) pageSize4K_pos
    have hpage := pageSize4K_pos
    rw [hj, Nat.add_mul, Nat.add_mul] at hreach
    unfold Segment.windowSize
    omega
  obtain ⟨frame, c, bytes, hframe, -⟩ := hpages j (by rw [hr.window]; exact hsize)
  rw [hloaded.unused j (by rw [← hn] at hlast; omega) (hsize.trans_le htable)] at hframe
  cases hframe

/-- Bytes after the file's are not looked at. -/
theorem pageBytes_congr {data' : Nat → Nat} (h : ∀ k < x.pFilesz, data' k = data k)
    (pos currVaddr : Nat) : pageBytes x data' pos currVaddr = pageBytes x data pos currVaddr := by
  unfold pageBytes
  by_cases hpos : pos < x.pFilesz
  · simp only [if_pos hpos]
    funext i
    split
    · next hi => exact h _ (by omega)
    · rfl
  · simp only [if_neg hpos]

theorem loadPages_congr {data' : Nat → Nat} (h : ∀ k < x.pFilesz, data' k = data k)
    (w : WindowRef) (o : ObjectRef) (v : ViewRef) : ∀ fuel i pos currVaddr : Nat,
    loadPages w o v vspace x data' fuel i pos currVaddr =
      loadPages w o v vspace x data fuel i pos currVaddr
  | 0, _, _, _ => rfl
  | fuel + 1, i, pos, currVaddr => by
    simp only [loadPages_succ, pageBytes_congr h, loadPages_congr h w o v fuel]

theorem loadSegment_congr {data' : Nat → Nat} (h : ∀ k < x.pFilesz, data' k = data k) :
    loadSegment vspace x data' ws = loadSegment vspace x data ws := by
  simp only [loadSegment, loadPages_congr h]

/-- The windows' bytes are those of the reaches. -/
theorem Loading.mem_window (h : Loading vspace vs ys ws s) (a : Nat) :
    (∃ y ∈ ys, a / pageSize4K ∈ y.reach) ↔ ∃ w ∈ ws, a ∈ s.range w := by
  obtain ⟨-, hregions, -⟩ := h
  induction hregions with
  | nil => simp
  | cons hy _ ih => rw [List.exists_mem_cons_iff, List.exists_mem_cons_iff, ih, hy.mem_range]

/-- The pages of a segment apart from the windows are not mapped. -/
theorem unmapped_of_apart (h : Loading vspace vs ys ws s)
    (hapart : ∀ w ∈ ws, Disjoint (span x.pVaddr x.pMemsz) (s.range w)) {va : Nat}
    (hva : va / pageSize4K ∈ x.pages) : s.res.kernel.pages vs va = none := by
  by_contra hmapped
  obtain ⟨b, hb, hpage⟩ := hva
  have hreach := h.mapped va hmapped
  rw [← hpage] at hreach
  obtain ⟨w, hw, hin⟩ := (h.mem_window b).mp hreach
  exact Set.disjoint_left.mp (hapart w hw) hb hin

/-- Unless it ends on a page boundary, it does not end in an earlier window either. -/
theorem not_hits_of_apart (h : Loading vspace vs ys ws s)
    (hapart : ∀ w ∈ ws, Disjoint (span x.pVaddr x.pMemsz) (s.range w))
    (hm : 0 < x.pMemsz) (hend : (x.pVaddr + x.pMemsz) % pageSize4K ≠ 0) : ¬ ∃ y ∈ ys, x.Hits y := by
  rintro ⟨y, hy, hfirst | hlast⟩
  · obtain ⟨w, hw, hin⟩ := (h.mem_window x.pVaddr).mp ⟨y, hy, hfirst⟩
    exact Set.disjoint_left.mp (hapart w hw) (mem_span.mpr ⟨Nat.le_refl _, by omega⟩) hin
  · rw [← last_touched hm hend] at hlast
    obtain ⟨w, hw, hin⟩ := (h.mem_window (x.pVaddr + x.pMemsz - 1)).mp ⟨y, hy, hlast⟩
    exact Set.disjoint_left.mp (hapart w hw) (mem_span.mpr ⟨by omega, by omega⟩) hin

/-- A segment that takes up memory and was skipped is not there. -/
theorem not_loaded_of_apart (h : Loading vspace vs ys ws s)
    (hapart : ∀ w ∈ ws, Disjoint (span x.pVaddr x.pMemsz) (s.range w))
    (hm : 0 < x.pMemsz) : ¬ SegmentLoaded vs x data ws ws' s := by
  intro hall
  have hfirst : x.pVaddr / pageSize4K ∈ x.pages := first_mem_touched hm
  have hnone : s.res.byteAt vs (x.pVaddr + 0) = none := by
    have hround : roundDown x.pVaddr / pageSize4K ∈ x.pages := by
      unfold roundDown
      rwa [Nat.mul_div_cancel _ pageSize4K_pos]
    unfold Res.byteAt
    rw [Nat.add_zero, unmapped_of_apart h hapart hround]
    rfl
  rcases Nat.eq_zero_or_pos x.pFilesz with hz | hpos
  · have hbyte := hall.bss 0 (by omega) hm
    rw [hnone] at hbyte
    cases hbyte
  · have hbyte := hall.file 0 hpos
    rw [hnone] at hbyte
    cases hbyte

/-- In an address space where nothing was mapped at first, a segment that overlaps no earlier
window is loaded just if it ends inside a page, or is empty and begins in a window. No byte after
the file's is looked at. -/
theorem loadSegment_image (hready : Ready vspace vs s₀.res)
    (hempty : ∀ va, s₀.res.kernel.pages vs va = none)
    (hpre : loadSegments vspace pre [] s₀ = .ok ws s) (hfile : x.pFilesz ≤ x.pMemsz)
    (hapart : ∀ w ∈ ws, Disjoint (span x.pVaddr x.pMemsz) (s.range w))
    (hrun : loadSegment vspace x data ws s = .ok ws' s') :
    (SegmentLoaded vs x data ws ws' s' ↔
      0 < x.pMemsz ∧ (x.pVaddr + x.pMemsz) % pageSize4K ≠ 0 ∨
        x.pMemsz = 0 ∧ ∃ w ∈ ws, x.pVaddr ∈ s.range w) ∧
    ∀ data', (∀ k < x.pFilesz, data' k = data k) →
      loadSegment vspace x data' ws = loadSegment vspace x data ws := by
  refine ⟨?_, fun data' h => loadSegment_congr h⟩
  have hstart : Loading vspace vs [] [] s₀ := ⟨hready, .nil, fun va h => absurd (hempty va) h⟩
  obtain ⟨ys, h⟩ := hstart.run hpre
  have hempty_hits : x.pMemsz = 0 → ((∃ y ∈ ys, x.Hits y) ↔ ∃ w ∈ ws, x.pVaddr ∈ s.range w) := by
    intro hm
    rw [← h.mem_window]
    exact exists_congr fun y => and_congr_right fun _ => Segment.hits_empty hm
  obtain ⟨hhits, rfl, rfl⟩ | ⟨hfree, rfl, -, hplaced⟩ := Prog.wp_ok (loadSegment_placed h) hrun
  · rcases Nat.eq_zero_or_pos x.pMemsz with hm | hm
    · refine iff_of_true ⟨fun k hk => ?_, fun k _ hk => ?_, fun a ha _ => ?_, fun w hw => ?_⟩
        (.inr ⟨hm, (hempty_hits hm).mp hhits⟩)
      · omega
      · omega
      · exact absurd ((mem_touched pageSize4K_pos).mp ha).1 (by omega)
      · exact absurd hw (by simp)
    · refine iff_of_false (not_loaded_of_apart h hapart hm) ?_
      rintro (⟨-, hend⟩ | ⟨hz, -⟩)
      · exact not_hits_of_apart h hapart hm hend hhits
      · omega
  · rcases Nat.eq_zero_or_pos x.pMemsz with hm | hm
    · refine iff_of_false (hplaced.not_loaded (.inl hm)) ?_
      rintro (⟨hpos, -⟩ | ⟨-, hin⟩)
      · omega
      · exact hfree ((hempty_hits hm).mpr hin)
    · by_cases hend : (x.pVaddr + x.pMemsz) % pageSize4K = 0
      · refine iff_of_false (hplaced.not_loaded (.inr hend)) ?_
        rintro (⟨-, hno⟩ | ⟨hz, -⟩)
        · exact hno hend
        · omega
      · exact iff_of_true (hplaced.loaded (fun va => unmapped_of_apart h hapart) hfile hm hend)
          (.inl ⟨hm, hend⟩)

end Image

/-! ## A new address space -/

/-- The small system with a further address space, its capability in slot 50. -/
def loadDemo : State :=
  { demo with
    res := { demo.res with kernel := demo.res.kernel.setCap 50 (some (.vspace 1)) } }

theorem loadDemo_shown {f : Nat} (hf : f < 6) : Shown loadDemo.res f (100 + f) := by
  have hall : ∀ f < 6, loadDemo.res.cspace.Allocated (20 + f) ∧
      loadDemo.res.kernel.caps (20 + f) =
        some (.frame (100 + f) true ⟨true, true⟩ (some (rootVSpace, frameDataAddr f))) ∧
      loadDemo.res.kernel.pages rootVSpace (frameDataAddr f) =
        some ⟨100 + f, ⟨true, true⟩⟩ := by decide
  obtain ⟨hallocated, hcap, hpage⟩ := hall f hf
  exact ⟨hallocated, hcap, hpage, show 100 + f < 200 by omega⟩

theorem loadDemo_noStray : NoStray loadDemo.res := by
  intro c hne
  by_cases hc : c = 50
  · subst hc
    decide
  · obtain ⟨cap, hcap⟩ := Option.ne_none_iff_exists'.mp hne
    have hold : loadDemo.res.kernel.caps c = demo.res.kernel.caps c :=
      Kernel.setCap_caps_of_ne hc _
    rw [hold] at hcap
    obtain ⟨e, he, -⟩ := Option.map_eq_some_iff.mp hcap
    have hmem : e ∈ demoCaps := List.mem_of_find?_eq_some he
    have hslot : e.1 = c := by simpa using List.find?_some he
    have hall : ∀ e ∈ demoCaps, loadDemo.res.cspace.Allocated e.1 := by decide
    exact hslot ▸ hall e hmem

theorem loadDemo_ready : Ready 50 1 loadDemo.res where
  frames := {
    rooted := ⟨by decide, rfl⟩
    shown := fun f hf => ⟨100 + f, loadDemo_shown hf⟩
    distinct := fun f g obj hf hg hs hs' => by
      have h₁ := hs.unique (loadDemo_shown hf)
      have h₂ := hs'.unique (loadDemo_shown hg)
      omega
    created := by decide
    once := by decide }
  noStray := loadDemo_noStray
  user := by decide
  held := by decide
  space := rfl

theorem loadDemo_empty (va : Nat) : loadDemo.res.kernel.pages 1 va = none := by
  show demoPages 1 va = none
  simp [demoPages, demoCaps, demoProcessCaps, demoFrameCaps, rootVSpace]

/-- Two pages of an image that begins and ends inside them. -/
theorem loadSegment_image_demo :
    ∃ ws' s', loadSegment 50 (demoSegment 0x400ff0 24 32) (fun _ => 7) [] loadDemo = .ok ws' s' ∧
      SegmentLoaded 1 (demoSegment 0x400ff0 24 32) (fun _ => 7) [] ws' s' := by
  have hrun : (loadSegment 50 (demoSegment 0x400ff0 24 32) (fun _ => 7) []
      loadDemo).toOption.isSome = true := by decide +kernel
  obtain ⟨⟨ws', s'⟩, hok⟩ := Option.isSome_iff_exists.mp hrun
  have hok' := Outcome.toOption_eq_some.mp hok
  have hpre : loadSegments 50 [] [] loadDemo = .ok [] loadDemo := rfl
  have himage := loadSegment_image loadDemo_ready loadDemo_empty hpre (by decide : 24 ≤ 32)
    (fun w hw => absurd hw List.not_mem_nil) hok'
  exact ⟨ws', s', hok', himage.1.mpr (.inl ⟨by decide, by decide⟩)⟩

/-- A segment of one page has a second page in its window, which is no frame. And after a segment
with no bytes in the file, the page before it is not loaded at all. -/
theorem loadSegment_image_not :
    (∃ ws' s', loadSegment 50 (demoSegment 0x400000 16 0x1000) (fun _ => 7) [] loadDemo =
        .ok ws' s' ∧
      ¬ SegmentLoaded 1 (demoSegment 0x400000 16 0x1000) (fun _ => 7) [] ws' s') ∧
    ∃ ws s ws' s', loadSegments 50 [demoSegment 0x401000 0 16] [] loadDemo = .ok ws s ∧
      loadSegment 50 (demoSegment 0x400000 0 0x1000) (fun _ => 7) ws s = .ok ws' s' ∧
      s'.res.byteAt 1 0x400000 = none := by
  constructor
  · have hrun : (loadSegment 50 (demoSegment 0x400000 16 0x1000) (fun _ => 7) []
        loadDemo).toOption.any (fun r => decide (r.1 = [0] ∧ (r.2.windows 0).boundView = some 0 ∧
          (r.2.views 0).boundObject = some 0 ∧ 1 * pageSize4K < (r.2.windows 0).size ∧
          ((r.2.objects 0).lookupFrame (1 * pageSize4K)).isNone)) = true := by decide +kernel
    obtain ⟨⟨ws', s'⟩, hok, h⟩ := (Option.any_eq_true _ _).mp hrun
    obtain ⟨rfl, hv, ho, hsize, hnone⟩ := of_decide_eq_true h
    refine ⟨_, s', Outcome.toOption_eq_some.mp hok, fun hloaded => ?_⟩
    obtain ⟨v, o, hv', ho', hpages⟩ := hloaded.window 0 rfl
    obtain rfl := Option.some.inj (hv.symm.trans hv')
    obtain rfl := Option.some.inj (ho.symm.trans ho')
    obtain ⟨frame, c, bytes, hframe, -⟩ := hpages 1 hsize
    rw [Option.isNone_iff_eq_none.mp hnone] at hframe
    cases hframe
  · have hrun : (loadSegments 50 [demoSegment 0x401000 0 16] [] loadDemo).toOption.any (fun r =>
        (loadSegment 50 (demoSegment 0x400000 0 0x1000) (fun _ => 7) r.1 r.2).toOption.any fun r' =>
          decide (r'.2.res.byteAt 1 0x400000 = none)) = true := by decide +kernel
    obtain ⟨⟨ws, s⟩, hok, h⟩ := (Option.any_eq_true _ _).mp hrun
    obtain ⟨⟨ws', s'⟩, hok', h'⟩ := (Option.any_eq_true _ _).mp h
    exact ⟨ws, s, ws', s', Outcome.toOption_eq_some.mp hok, Outcome.toOption_eq_some.mp hok',
      of_decide_eq_true h'⟩

end Smos.RootServer
