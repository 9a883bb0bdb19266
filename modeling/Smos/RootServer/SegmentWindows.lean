/-
Smos.RootServer.SegmentWindows — which pages the windows of an image cover.

`load_segment_into_vspace` rounds the end of a segment up with
`PAGE_SIZE_4K - end % PAGE_SIZE_4K`, so a window covers the reach of its
segment: one page too many when the segment ends on a page boundary, and one
page when it is empty. The overlap test asks whether an end of a segment
lies in an earlier window. So a segment that begins where another one ends
passes for an overlap, and one that encloses an earlier one does not.

`placed` lists the segments that get a window. The sections: what a segment
is given, the overlap test, one segment, the segments of an image, and from
the run what the windows of an image are.
-/
import Mathlib.Data.List.Induction
import Smos.Base.PageRuns
import Smos.RootServer.StartSpecs
import Smos.RootServer.WindowRanges

namespace Smos.RootServer

open Smos.Base

/-! ## Segments and their pages -/

namespace Segment

variable (x : Segment)

/-- `load_elf` loads the segment. -/
def Loadable : Prop := x.pType = ptLoad ∨ x.pType = ptTls

instance : Decidable x.Loadable := inferInstanceAs (Decidable (_ ∨ _))

/-- The pages the segment touches. -/
def pages : Set Nat := touched pageSize4K x.pVaddr x.pMemsz

/-- The pages of the segment's window. -/
def reach : Set Nat := Base.reach pageSize4K x.pVaddr x.pMemsz

/-- `total_size`. -/
def windowSize : Nat :=
  x.pMemsz + x.pVaddr % pageSize4K + (pageSize4K - (x.pVaddr + x.pMemsz) % pageSize4K)

/-- The segment begins or ends in the window of `y`. -/
def Hits (y : Segment) : Prop := EndsIn pageSize4K x.pVaddr x.pMemsz y.pVaddr y.pMemsz

instance (y : Segment) : Decidable (x.Hits y) := inferInstanceAs (Decidable (EndsIn _ _ _ _ _))

/-- The window of `y` lies inside that of the segment, which begins before and ends after it. -/
def Encloses (y : Segment) : Prop := Base.Encloses pageSize4K x.pVaddr x.pMemsz y.pVaddr y.pMemsz

instance (y : Segment) : Decidable (x.Encloses y) :=
  inferInstanceAs (Decidable (Base.Encloses _ _ _ _ _))

/-- The segment takes up memory, and ends on a page boundary. -/
def EndsOnBoundary : Prop := 0 < x.pMemsz ∧ (x.pVaddr + x.pMemsz) % pageSize4K = 0

instance : Decidable x.EndsOnBoundary := inferInstanceAs (Decidable (_ ∧ _))

end Segment

/-- After those in `ys`, the segments of a list that get a window: they begin and end outside
the windows of the earlier ones. -/
def placed : List Segment → List Segment → List Segment
  | ys, [] => ys
  | ys, x :: xs =>
    if x.Loadable ∧ ¬ ∃ y ∈ ys, x.Hits y then placed (ys ++ [x]) xs else placed ys xs

theorem pageSize4K_pos : 0 < pageSize4K := by decide

/-! ## Regions -/

/-- The window, view and object made for a segment. -/
structure Region (x : Segment) (w : WindowRef) (v : ViewRef) (o : ObjectRef) (s : State) :
    Prop where
  window : s.windows w = ⟨roundDown x.pVaddr, x.windowSize, some v⟩
  view : (s.views v).boundObject = some o
  object : (s.objects o).size = x.windowSize
  window_lt : w < s.windows.next
  view_lt : v < s.views.next
  object_lt : o < s.objects.next

/-- The regions of `s` are still there. -/
structure RegionsKept (s s' : State) : Prop where
  windowsNext : s.windows.next ≤ s'.windows.next
  windows : ∀ w, w < s.windows.next → s'.windows w = s.windows w
  viewsNext : s.views.next ≤ s'.views.next
  views : ∀ v, v < s.views.next → (s'.views v).links = (s.views v).links
  objectsNext : s.objects.next ≤ s'.objects.next
  objects : ∀ o, o < s.objects.next → (s'.objects o).size = (s.objects o).size

section Regions

variable {s s' s₁ s₂ : State} {x y : Segment} {w : WindowRef} {v : ViewRef} {o : ObjectRef}

namespace RegionsKept

protected theorem refl (s : State) : RegionsKept s s :=
  ⟨Nat.le_refl _, fun _ _ => rfl, Nat.le_refl _, fun _ _ => rfl, Nat.le_refl _, fun _ _ => rfl⟩

protected theorem trans (h : RegionsKept s s₁) (h' : RegionsKept s₁ s₂) : RegionsKept s s₂ where
  windowsNext := h.windowsNext.trans h'.windowsNext
  windows w hw := (h'.windows w (hw.trans_le h.windowsNext)).trans (h.windows w hw)
  viewsNext := h.viewsNext.trans h'.viewsNext
  views v hv := (h'.views v (hv.trans_le h.viewsNext)).trans (h.views v hv)
  objectsNext := h.objectsNext.trans h'.objectsNext
  objects o ho := (h'.objects o (ho.trans_le h.objectsNext)).trans (h.objects o ho)

theorem withRes (h : RegionsKept s s') (r : Res) : RegionsKept s { s' with res := r } :=
  ⟨h.windowsNext, h.windows, h.viewsNext, h.views, h.objectsNext, h.objects⟩

end RegionsKept

instance paging_regionsKept : Paging (RegionsKept s) where
  object o f hf h := { h with
    objects := fun o' ho' => (Heap.update_preserves _ AnonymousMemoryObject.size (hf _) o').trans
      (h.objects o' ho') }
  view v f hf h := { h with
    views := fun v' hv' => (Heap.update_preserves _ View.links (hf _) v').trans (h.views v' hv') }
  onRes := by
    intro ε α m _
    have hm : Prog.Keeps (fun _ : Res => True) (fun _ : α => True) m := fun t _ =>
      Prog.wp_mono Prog.wp_trivial (fun _ _ _ => ⟨trivial, trivial⟩) (fun _ _ _ => trivial)
        fun _ _ => trivial
    exact Prog.Keeps.zoom hm (fun _ _ => trivial) fun _ r ht _ => ht.withRes r

namespace Region

theorem kept (h : Region x w v o s) (hl : RegionsKept s s') : Region x w v o s' where
  window := (hl.windows w h.window_lt).trans h.window
  view := by
    have hv := hl.views v h.view_lt
    exact (congrArg (fun l => l.2.1) hv).trans h.view
  object := (hl.objects o h.object_lt).trans h.object
  window_lt := h.window_lt.trans_le hl.windowsNext
  view_lt := h.view_lt.trans_le hl.viewsNext
  object_lt := h.object_lt.trans_le hl.objectsNext

theorem mem_range (h : Region x w v o s) {a : Nat} : a ∈ s.range w ↔ a / pageSize4K ∈ x.reach := by
  unfold State.range
  rw [h.window]
  exact mem_span_reach pageSize4K_pos

end Region

/-- The window is one of a segment's region. -/
def HasRegion (s : State) (x : Segment) (w : WindowRef) : Prop := ∃ v o, Region x w v o s

theorem HasRegion.kept (h : HasRegion s x w) (hl : RegionsKept s s') : HasRegion s' x w := by
  obtain ⟨v, o, hr⟩ := h
  exact ⟨v, o, hr.kept hl⟩

theorem HasRegion.mem_range (h : HasRegion s x w) {a : Nat} :
    a ∈ s.range w ↔ a / pageSize4K ∈ x.reach := by
  obtain ⟨v, o, hr⟩ := h
  exact hr.mem_range

end Regions

/-! ## The overlap test -/

section Overlap

variable {ε : Type} {s : State} {x : Segment}

theorem segmentOverlaps_spec (start size : Nat) (w : Window) :
    (segmentOverlaps start size w : SProg ε Bool).wp
      (fun b s' => s' = s ∧ (b = true ↔ start ∈ span w.start w.size ∨
        start + size ∈ span w.start w.size))
      (fun _ _ => False) (fun _ => True) s := by
  have hlast : start ∉ span w.start w.size → (do
        let nend ← addU start size
        if nend ≥ w.start then
          let wend ← addU w.start w.size
          pure (decide (nend < wend))
        else pure false : SProg ε Bool).wp
      (fun b s' => s' = s ∧ (b = true ↔ start ∈ span w.start w.size ∨
        start + size ∈ span w.start w.size))
      (fun _ _ => False) (fun _ => True) s := by
    intro hfirst
    simp only [Prog.wp_bind, wp_addU, Prog.wp_ite, Prog.wp_pure, hfirst, false_or, mem_span]
    refine ⟨fun _ => ⟨fun h => ⟨fun _ => ⟨trivial, ?_⟩, fun _ => trivial⟩, fun h => ⟨trivial, ?_⟩⟩,
      fun _ => trivial⟩
    · rw [decide_eq_true_eq]
      exact ⟨fun h' => ⟨h, h'⟩, fun h' => h'.2⟩
    · rw [Bool.false_eq_true, false_iff]
      exact fun h' => h h'.1
  simp only [segmentOverlaps, Prog.wp_bind, Prog.wp_ite, wp_addU, Prog.wp_pure] at hlast ⊢
  refine ⟨fun hge => ⟨fun _ => ⟨fun h => ⟨trivial, ?_⟩, fun h => ?_⟩, fun _ => trivial⟩,
    fun hge => ⟨fun h => absurd h (by simp), fun _ => hlast fun h => hge h.1⟩⟩
  · exact iff_of_true trivial (.inl ⟨hge, by simpa using h⟩)
  · exact hlast fun h' => h (by simpa using h'.2)

/-- The test on the windows of some segments finds one just if an end lies in one. -/
theorem overlappingSegment_spec {ys : List Segment} {ws : List WindowRef}
    (h : List.Forall₂ (HasRegion s) ys ws) :
    (overlappingSegment x.pVaddr x.pMemsz ws : SProg ε (Option WindowRef)).wp
      (fun found s' => s' = s ∧ (found.isSome ↔ ∃ y ∈ ys, x.Hits y))
      (fun _ _ => False) (fun _ => True) s := by
  induction h with
  | nil => simp [overlappingSegment]
  | @cons y w ys ws hy hrest ih =>
    have hits : x.Hits y ↔ x.pVaddr ∈ s.range w ∨ x.pVaddr + x.pMemsz ∈ s.range w := by
      rw [hy.mem_range, hy.mem_range]
      rfl
    simp only [overlappingSegment, Prog.wp_bind, wp_getWindow, List.exists_mem_cons_iff]
    refine Prog.wp_mono (segmentOverlaps_spec _ _ _) ?_ (fun _ _ hf => hf) fun _ hp => hp
    rintro b _ ⟨rfl, hb⟩
    cases b with
    | true =>
      simp only [if_true, Prog.wp_pure, Option.isSome_some, true_iff, true_and]
      exact .inl (hits.mpr (hb.mp rfl))
    | false =>
      have hno : ¬ x.Hits y := fun hx => Bool.false_ne_true (hb.mpr (hits.mp hx))
      simpa [hno] using ih

end Overlap

/-! ## One segment -/

section Segments

variable {s s' : State} {vspace : Slot} {x : Segment} {data : Nat → Nat} {ws ws' : List WindowRef}
  {xs ys : List Segment}

theorem newRegion_spec {ε : Type} (x : Segment) (objRights viewRights : CapRights) :
    (newRegion (roundDown x.pVaddr) x.windowSize objRights viewRights :
      SProg ε (WindowRef × ObjectRef × ViewRef)).wp
      (fun region s' => RegionsKept s s' ∧ region.1 = s.windows.next ∧
        Region x region.1 region.2.2 region.2.1 s')
      (fun _ _ => False) (fun _ => False) s := by
  simp only [newRegion, Prog.wp_bind, wp_newWindow, wp_newObject, wp_newView, wp_modifyWindow,
    wp_modifyObject, Prog.wp_pure, Heap.alloc_update_self]
  refine ⟨⟨Nat.le_succ _, fun w hw => Heap.alloc_of_lt _ hw _, Nat.le_succ _, fun v hv => ?_,
    Nat.le_succ _, fun o ho => ?_⟩, trivial, ?_⟩
  · exact congrArg View.links (Heap.alloc_of_lt _ hv _)
  · exact congrArg AnonymousMemoryObject.size (Heap.alloc_of_lt _ ho _)
  · exact {
      window := Heap.alloc_self _ _
      view := congrArg View.boundObject (Heap.alloc_self _ _)
      object := congrArg AnonymousMemoryObject.size (Heap.alloc_self _ _)
      window_lt := Nat.lt_succ_self _
      view_lt := Nat.lt_succ_self _
      object_lt := Nat.lt_succ_self _ }

/-- A segment that begins or ends in an earlier window is skipped, if that is all right; any
other is given a new region. -/
theorem loadSegment_spec (h : List.Forall₂ (HasRegion s) ys ws) :
    (loadSegment vspace x data ws).wp
      (fun ws' s' => RegionsKept s s' ∧
        ((∃ y ∈ ys, x.Hits y) ∧ ws' = ws ∨
          (¬ ∃ y ∈ ys, x.Hits y) ∧ ws' = ws ++ [s.windows.next] ∧
            HasRegion s' x s.windows.next))
      (fun _ _ => True) (fun _ => True) s := by
  unfold loadSegment
  simp only [Prog.wp_bind, wp_addU]
  refine ⟨fun _ => ⟨fun _ => ⟨fun _ => ?_, fun _ => trivial⟩, fun _ => trivial⟩, fun _ => trivial⟩
  refine Prog.wp_mono (overlappingSegment_spec h) ?_ (fun _ _ hf => hf.elim) fun _ hp => hp
  rintro found s₁ ⟨hs, hfound⟩
  obtain rfl : s = s₁ := hs.symm
  cases found with
  | some w =>
    have hhits : ∃ y ∈ ys, x.Hits y := hfound.mp rfl
    have hkept : Keeping (RegionsKept s) (handleOverlappingSegment w x : SProg Sel4Error Unit) :=
      handleOverlappingSegment_keeping w x
    simp only [Prog.wp_bind]
    refine Prog.wp_mono (hkept s (.refl s)) ?_ (fun _ _ _ => trivial) fun _ hp => hp
    intro _ s' hs'
    exact ⟨hs'.2, .inl ⟨hhits, rfl⟩⟩
  | none =>
    have hfree : ¬ ∃ y ∈ ys, x.Hits y := fun hy => absurd (hfound.mpr hy) (by simp)
    simp only [Prog.wp_ite, Prog.wp_panic, Prog.wp_bind]
    refine ⟨fun _ => trivial, fun _ => ?_⟩
    refine Prog.wp_mono (newRegion_spec x _ _) ?_ (fun _ _ hf => hf.elim) fun _ hp => hp.elim
    rintro ⟨w, o, v⟩ s₁ ⟨hl, hw, hr⟩
    obtain rfl : w = s.windows.next := hw
    have hpages := loadPages_keeping (I := RegionsKept s₁) s.windows.next o v vspace x data x.pMemsz
      0 0 x.pVaddr s₁ (.refl s₁)
    refine Prog.wp_mono hpages ?_ (fun _ _ _ => trivial) fun _ hp => hp
    intro _ s' hs'
    exact ⟨hl.trans hs'.2, .inr ⟨hfree, rfl, v, o, hr.kept hs'.2⟩⟩

/-! ## The segments of an image -/

theorem loadSegments_append (vspace : Slot) (pre post : List Segment) : ∀ ws : List WindowRef,
    loadSegments vspace (pre ++ post) ws =
      loadSegments vspace pre ws >>= fun ws' => loadSegments vspace post ws' := by
  induction pre with
  | nil => exact fun _ => rfl
  | cons x pre ih =>
    intro ws
    simp only [List.cons_append, loadSegments]
    split
    · exact ih ws
    · simp only [ih, Prog.bind_assoc]

/-- A loadable segment on the way. -/
theorem loadSegments_cons_ok (hx : x.Loadable)
    (h : loadSegments vspace (x :: xs) ws s = .ok ws' s') :
    ∃ data ws₁ s₁, x.data = some data ∧ loadSegment vspace x data ws s = .ok ws₁ s₁ ∧
      loadSegments vspace xs ws₁ s₁ = .ok ws' s' := by
  have hno : ¬ (x.pType ≠ ptLoad ∧ x.pType ≠ ptTls) := fun hn => hx.elim hn.1 hn.2
  simp only [loadSegments, if_neg hno] at h
  obtain ⟨data, s₀, hdata, h⟩ := Prog.bind_ok h
  cases hd : x.data with
  | none =>
    rw [hd] at hdata
    cases hdata
  | some data' =>
    rw [hd] at hdata
    cases hdata
    obtain ⟨ws₁, s₁, hload, hrest⟩ := Prog.bind_ok h
    exact ⟨data, ws₁, s₁, rfl, hload, hrest⟩

theorem loadSegments_skip (hx : ¬ x.Loadable) (ws : List WindowRef) :
    loadSegments vspace (x :: xs) ws = loadSegments vspace xs ws := by
  have hyes : x.pType ≠ ptLoad ∧ x.pType ≠ ptTls := not_or.mp hx
  simp only [loadSegments, if_pos hyes]

/-- The windows are those of the placed segments. -/
theorem loadSegments_placed (h : List.Forall₂ (HasRegion s) ys ws)
    (hrun : loadSegments vspace xs ws s = .ok ws' s') :
    RegionsKept s s' ∧ List.Forall₂ (HasRegion s') (placed ys xs) ws' := by
  induction xs generalizing ys ws s with
  | nil =>
    cases hrun
    exact ⟨.refl _, h⟩
  | cons x xs ih =>
    by_cases hx : x.Loadable
    · obtain ⟨data, ws₁, s₁, -, hload, hrest⟩ := loadSegments_cons_ok hx hrun
      have hstep := Prog.wp_ok (loadSegment_spec h) hload
      obtain ⟨hl, ⟨hhits, rfl⟩ | ⟨hfree, rfl, hregion⟩⟩ := hstep
      · have hold := h.imp fun y w (hy : HasRegion s y w) => hy.kept hl
        obtain ⟨hl', hall⟩ := ih hold hrest
        refine ⟨hl.trans hl', ?_⟩
        simpa only [placed, hhits, not_true_eq_false, and_false, if_false] using hall
      · have hold := h.imp fun y w (hy : HasRegion s y w) => hy.kept hl
        have hnew : List.Forall₂ (HasRegion s₁) (ys ++ [x]) (ws ++ [s.windows.next]) :=
          List.rel_append hold (.cons hregion .nil)
        obtain ⟨hl', hall⟩ := ih hnew hrest
        refine ⟨hl.trans hl', ?_⟩
        simpa only [placed, hx, hfree, not_false_eq_true, and_self, if_true] using hall
    · rw [loadSegments_skip hx] at hrun
      obtain ⟨hl, hall⟩ := ih h hrun
      refine ⟨hl, ?_⟩
      simpa only [placed, hx, false_and, if_false] using hall

end Segments

/-! ## Which segments are placed -/

section Placed

variable {x y z : Segment} {xs ys : List Segment}

theorem subset_placed (hy : y ∈ ys) : y ∈ placed ys xs := by
  induction xs generalizing ys with
  | nil => exact hy
  | cons x xs ih =>
    unfold placed
    split
    · exact ih (List.mem_append_left _ hy)
    · exact ih hy

theorem mem_placed (hy : y ∈ placed ys xs) : y ∈ ys ∨ y ∈ xs ∧ y.Loadable := by
  induction xs generalizing ys with
  | nil => exact .inl hy
  | cons x xs ih =>
    unfold placed at hy
    split at hy
    · next hx =>
      rcases ih hy with h | ⟨h, hl⟩
      · rcases List.mem_append.mp h with h | h
        · exact .inl h
        · obtain rfl := List.mem_singleton.mp h
          exact .inr ⟨List.mem_cons_self, hx.1⟩
      · exact .inr ⟨List.mem_cons_of_mem _ h, hl⟩
    · rcases ih hy with h | ⟨h, hl⟩
      · exact .inl h
      · exact .inr ⟨List.mem_cons_of_mem _ h, hl⟩

/-- A placed segment begins and ends outside the earlier placed ones. -/
theorem placed_pairwise (h : ys.Pairwise fun y x => ¬ x.Hits y) :
    (placed ys xs).Pairwise fun y x => ¬ x.Hits y := by
  induction xs generalizing ys with
  | nil => exact h
  | cons x xs ih =>
    unfold placed
    split
    · next hx =>
      refine ih (List.pairwise_append.mpr ⟨h, List.pairwise_singleton _ _, ?_⟩)
      intro y hy x' hx'
      obtain rfl := List.mem_singleton.mp hx'
      exact fun hhits => hx.2 ⟨y, hy, hhits⟩
    · exact ih h

theorem Segment.hits_empty (hz : z.pMemsz = 0) : z.Hits y ↔ z.pVaddr / pageSize4K ∈ y.reach := by
  unfold Segment.Hits EndsIn
  rw [hz, Nat.add_zero, or_self]
  rfl

/-- The page of an empty segment is in a window: its own, or the one it was taken to overlap. -/
theorem placed_empty (hz : z ∈ xs) (hl : z.Loadable) (h0 : z.pMemsz = 0) :
    ∃ y ∈ placed ys xs, z.pVaddr / pageSize4K ∈ y.reach := by
  induction xs generalizing ys with
  | nil => cases hz
  | cons x xs ih =>
    rcases List.mem_cons.mp hz with rfl | hz
    · unfold placed
      split
      · exact ⟨z, subset_placed (List.mem_append_right _ (List.mem_singleton_self z)),
          first_mem_reach⟩
      · next hno =>
        have hhits : ∃ y ∈ ys, z.Hits y := by
          by_contra hc
          exact hno ⟨hl, hc⟩
        obtain ⟨y, hy, hhits⟩ := hhits
        exact ⟨y, subset_placed hy, (Segment.hits_empty h0).mp hhits⟩
    · unfold placed
      split
      · exact ih hz
      · exact ih hz

end Placed

/-! ## The windows of an image -/

/-- The loadable segments touch different pages. -/
def SegmentsApart (xs : List Segment) : Prop :=
  (xs.filter fun x => x.Loadable).Pairwise fun x y => Disjoint x.pages y.pages

/-- No segment ends on a page boundary; and none begins or ends in the page of an empty one
before it. -/
structure EndsInside (xs : List Segment) : Prop where
  boundary : ∀ x ∈ xs, x.Loadable → ¬ x.EndsOnBoundary
  empty : (xs.filter fun x => x.Loadable).Pairwise fun z x =>
    z.pMemsz = 0 → 0 < x.pMemsz → ¬ x.Hits z

/-- The segment after those in `pre` gets a window of its own; in the end, the window covers the
pages of the segment and no other, and an object of that size is behind it. -/
def LoadedExactly (vspace : Slot) (s s' : State) (pre : List Segment) (x : Segment) : Prop :=
  ∃ data ws w s₀ s₁, loadSegments vspace pre [] s = .ok ws s₀ ∧ x.data = some data ∧
    loadSegment vspace x data ws s₀ = .ok (ws ++ [w]) s₁ ∧
    (∀ a, a ∈ s'.range w ↔ a / pageSize4K ∈ x.pages) ∧
    ∃ v o, (s'.windows w).boundView = some v ∧ (s'.views v).boundObject = some o ∧
      (s'.objects o).size = (s'.windows w).size

section Image

variable {vspace : Slot} {s s' s₀ s₁ : State} {x y z : Segment} {xs ys pre post : List Segment}
  {ws ws' : List WindowRef}

theorem Segment.reach_eq_pages_iff (h : 0 < x.pMemsz) : x.reach = x.pages ↔ ¬ x.EndsOnBoundary := by
  unfold Segment.reach Segment.pages Segment.EndsOnBoundary
  rw [reach_eq_touched_iff pageSize4K_pos h]
  simp [h]

theorem filter_loadable_split (h : xs = pre ++ x :: post) (hx : x.Loadable) :
    xs.filter (fun x => x.Loadable) =
      pre.filter (fun x => x.Loadable) ++ x :: post.filter fun x => x.Loadable := by
  subst h
  simp [hx]

/-- Where every segment ends inside a page, none is taken for an overlap. -/
theorem not_hits_placed (hapart : SegmentsApart xs) (hends : EndsInside xs)
    (hxs : xs = pre ++ x :: post) (hx : x.Loadable) (hpos : 0 < x.pMemsz) :
    ¬ ∃ y ∈ placed [] pre, x.Hits y := by
  rintro ⟨y, hy, hhits⟩
  obtain ⟨hpre, hl⟩ := (mem_placed hy).resolve_left List.not_mem_nil
  have hmem : y ∈ pre.filter fun x => x.Loadable := List.mem_filter.mpr ⟨hpre, by simpa using hl⟩
  rcases Nat.eq_zero_or_pos y.pMemsz with h0 | hypos
  · have hempty := hends.empty
    rw [filter_loadable_split hxs hx] at hempty
    exact (List.pairwise_append.mp hempty).2.2 y hmem x List.mem_cons_self h0 hpos hhits
  · unfold SegmentsApart at hapart
    rw [filter_loadable_split hxs hx] at hapart
    have hdisj := (List.pairwise_append.mp hapart).2.2 y hmem x List.mem_cons_self
    have hyb := hends.boundary y (hxs ▸ List.mem_append_left _ hpre) hl
    have hxb := hends.boundary x (hxs ▸ List.mem_append_right _ List.mem_cons_self) hx
    exact not_endsIn_of_disjoint pageSize4K_pos hpos hypos (fun h => hxb ⟨hpos, h⟩)
      (fun h => hyb ⟨hypos, h⟩) hdisj.symm hhits

/-- A run that returns, at one of its segments. -/
theorem loadSegments_at (hrun : loadSegments vspace xs [] s = .ok ws s')
    (hxs : xs = pre ++ x :: post) (hx : x.Loadable) :
    ∃ ws₀ s₀ data ws₁ s₁, loadSegments vspace pre [] s = .ok ws₀ s₀ ∧ x.data = some data ∧
      loadSegment vspace x data ws₀ s₀ = .ok ws₁ s₁ ∧ RegionsKept s₁ s' ∧
      ((∃ y ∈ placed [] pre, x.Hits y) ∧ ws₁ = ws₀ ∨
        (¬ ∃ y ∈ placed [] pre, x.Hits y) ∧ ws₁ = ws₀ ++ [s₀.windows.next] ∧
          HasRegion s₁ x s₀.windows.next) := by
  subst hxs
  rw [loadSegments_append] at hrun
  obtain ⟨ws₀, s₀, hpre, hrest⟩ := Prog.bind_ok hrun
  obtain ⟨-, hregions⟩ := loadSegments_placed .nil hpre
  obtain ⟨data, ws₁, s₁, hdata, hload, hpost⟩ := loadSegments_cons_ok hx hrest
  obtain ⟨hl, hstep⟩ := Prog.wp_ok (loadSegment_spec hregions) hload
  have hold := hregions.imp fun y w (hy : HasRegion s₀ y w) => hy.kept hl
  have hl' : RegionsKept s₁ s' := by
    rcases hstep with ⟨-, rfl⟩ | ⟨-, rfl, hnew⟩
    · exact (loadSegments_placed hold hpost).1
    · exact (loadSegments_placed (List.rel_append hold (.cons hnew .nil)) hpost).1
  exact ⟨ws₀, s₀, data, ws₁, s₁, hpre, hdata, hload, hl', hstep⟩

/-- A segment is loaded exactly if it is not taken for an overlap and ends inside a page. -/
theorem loadedExactly_iff (hrun : loadSegments vspace xs [] s = .ok ws s')
    (hxs : xs = pre ++ x :: post) (hx : x.Loadable) (hpos : 0 < x.pMemsz) :
    LoadedExactly vspace s s' pre x ↔
      (¬ ∃ y ∈ placed [] pre, x.Hits y) ∧ ¬ x.EndsOnBoundary := by
  obtain ⟨ws₀, s₀, data, ws₁, s₁, hpre, hdata, hload, hl, hstep⟩ := loadSegments_at hrun hxs hx
  constructor
  · rintro ⟨data', ws', w, s₀', s₁', hpre', hdata', hload', hcover, -⟩
    obtain ⟨rfl, rfl⟩ := Outcome.ok.inj (hpre.symm.trans hpre')
    obtain rfl := Option.some.inj (hdata.symm.trans hdata')
    obtain ⟨rfl, rfl⟩ := Outcome.ok.inj (hload.symm.trans hload')
    rcases hstep with ⟨-, hsame⟩ | ⟨hfree, hnew, hregion⟩
    · exact absurd hsame (by simp)
    · obtain rfl : w = s₀.windows.next := by simpa using hnew
      refine ⟨hfree, (Segment.reach_eq_pages_iff hpos).mp ?_⟩
      ext q
      have hq : q * pageSize4K / pageSize4K = q := Nat.mul_div_cancel q pageSize4K_pos
      have hr := (hregion.kept hl).mem_range (a := q * pageSize4K)
      rw [hcover, hq] at hr
      exact hr.symm
  · rintro ⟨hfree, hend⟩
    obtain ⟨-, hnew, hregion⟩ := hstep.resolve_left fun h => hfree h.1
    subst hnew
    refine ⟨data, ws₀, s₀.windows.next, s₀, s₁, hpre, hdata, hload, fun a => ?_, ?_⟩
    · rw [← (Segment.reach_eq_pages_iff hpos).mpr hend]
      exact (hregion.kept hl).mem_range
    · obtain ⟨v, o, hr⟩ := hregion.kept hl
      exact ⟨v, o, by rw [hr.window], hr.view, by rw [hr.object, hr.window]⟩

theorem pairwise_of_splits {α : Type} {R : α → α → Prop} {l : List α}
    (h : ∀ pre x post, l = pre ++ x :: post → ∀ z ∈ pre, R z x) : l.Pairwise R := by
  induction l using List.reverseRecOn with
  | nil => exact .nil
  | append_singleton l x ih =>
    refine List.pairwise_append.mpr ⟨ih ?_, List.pairwise_singleton _ _, ?_⟩
    · intro pre y post hl
      exact h pre y (post ++ [x]) (by rw [hl, List.append_assoc, List.cons_append])
    · intro z hz y hy
      obtain rfl := List.mem_singleton.mp hy
      exact h l y [] rfl z hz

theorem pairwise_forall₂ {α β : Type} {R : α → β → Prop} {S : α → α → Prop} {T : β → β → Prop}
    {l : List α} {l' : List β} (h : List.Forall₂ R l l')
    (hST : ∀ a b a' b', R a b → R a' b' → (S a a' ↔ T b b')) :
    l.Pairwise S ↔ l'.Pairwise T := by
  induction h with
  | nil => simp
  | @cons a b l l' hab hrest ih =>
    have hhead : (∀ a' ∈ l, S a a') ↔ ∀ b' ∈ l', T b b' := by
      clear ih
      induction hrest with
      | nil => simp
      | cons hab' _ ih =>
        rw [List.forall_mem_cons, List.forall_mem_cons, hST _ _ _ _ hab hab', ih]
    rw [List.pairwise_cons, List.pairwise_cons, ih, hhead]

/-- All segments of an image are loaded exactly just if they end inside pages. -/
theorem loadedExactly_all_iff (hrun : loadSegments vspace xs [] s = .ok ws s')
    (hapart : SegmentsApart xs) :
    (∀ pre x post, xs = pre ++ x :: post → x.Loadable → 0 < x.pMemsz →
      LoadedExactly vspace s s' pre x) ↔ EndsInside xs := by
  constructor
  · intro h
    have hboundary : ∀ x ∈ xs, x.Loadable → ¬ x.EndsOnBoundary := by
      intro x hmem hx hb
      obtain ⟨pre, post, hxs⟩ := List.append_of_mem hmem
      exact ((loadedExactly_iff hrun hxs hx hb.1).mp (h pre x post hxs hx hb.1)).2 hb
    refine ⟨hboundary, List.pairwise_filter.mpr (pairwise_of_splits ?_)⟩
    intro pre x post hxs z hz hlz hlx h0 hpos hhits
    have hx : x.Loadable := by simpa using hlx
    obtain ⟨y, hy, hpage⟩ : ∃ y ∈ placed [] pre, z.pVaddr / pageSize4K ∈ y.reach :=
      placed_empty hz (by simpa using hlz) h0
    have hfree := ((loadedExactly_iff hrun hxs hx hpos).mp (h pre x post hxs hx hpos)).1
    -- the segment ends in the page of the empty one, which is in a window
    have hin : ∀ q, q ∈ z.reach → q ∈ y.reach := by
      intro q hq
      unfold Segment.reach at hq
      rw [h0, mem_reach_zero] at hq
      exact hq ▸ hpage
    exact hfree ⟨y, hy, hhits.imp (hin _) (hin _)⟩
  · intro h pre x post hxs hx hpos
    have hfree := not_hits_placed hapart h hxs hx hpos
    have hmem : x ∈ xs := hxs ▸ List.mem_append_right _ List.mem_cons_self
    exact (loadedExactly_iff hrun hxs hx hpos).mpr ⟨hfree, h.boundary x hmem hx⟩

/-- The windows of an image are disjoint unless a placed segment encloses an earlier one. -/
theorem windows_disjoint_iff (hrun : loadSegments vspace xs [] s = .ok ws s') :
    (ws.Pairwise fun w w' => Disjoint (s'.range w) (s'.range w')) ↔
      (placed [] xs).Pairwise fun y x => ¬ x.Encloses y := by
  obtain ⟨-, hregions⟩ := loadSegments_placed .nil hrun
  have hpages : (placed [] xs).Pairwise (fun y x => Disjoint y.reach x.reach) ↔
      ws.Pairwise fun w w' => Disjoint (s'.range w) (s'.range w') :=
    pairwise_forall₂ hregions fun y w x w' hy hx =>
      (disjoint_pages pageSize4K_pos (fun _ => hy.mem_range) fun _ => hx.mem_range).symm
  have hclear : (placed [] xs).Pairwise fun y x => ¬ x.Hits y := placed_pairwise .nil
  rw [← hpages]
  constructor
  · intro h
    exact hclear.imp₂ (fun y x hno hd => (disjoint_reach_iff_of_ends hno).mp hd) h
  · intro h
    exact hclear.imp₂ (fun y x hno he => (disjoint_reach_iff_of_ends hno).mpr he) h

/-- Where the segments touch different pages and end inside them, no segment is taken for an
overlap. A run that returns has loaded all segments of such an image exactly just if they end
inside pages; and the windows of any image are disjoint just if no placed segment encloses an
earlier one. -/
theorem loadElf_windows {elf : Elf} (hxs : elf.segments = some xs) (vspace : Slot) (s : State) :
    (SegmentsApart xs → EndsInside xs → ∀ pre x post ws s₀, xs = pre ++ x :: post →
      x.Loadable → 0 < x.pMemsz → loadSegments vspace pre [] s = .ok ws s₀ →
      ∀ w s₁, (overlappingSegment x.pVaddr x.pMemsz ws : SProg Sel4Error _) s₀ ≠ .ok (some w) s₁) ∧
    ∀ ws s', loadElf vspace elf s = .ok ws s' →
      (SegmentsApart xs → ((∀ pre x post, xs = pre ++ x :: post → x.Loadable → 0 < x.pMemsz →
        LoadedExactly vspace s s' pre x) ↔ EndsInside xs)) ∧
      ((ws.Pairwise fun w w' => Disjoint (s'.range w) (s'.range w')) ↔
        (placed [] xs).Pairwise fun y x => ¬ x.Encloses y) := by
  constructor
  · intro hapart hends pre x post ws s₀ hsplit hx hpos hpre w s₁ hfound
    obtain ⟨-, hregions⟩ := loadSegments_placed .nil hpre
    have hspec : (overlappingSegment x.pVaddr x.pMemsz ws : SProg Sel4Error _).wp
        (fun found s' => s' = s₀ ∧ (found.isSome ↔ ∃ y ∈ placed [] pre, x.Hits y))
        (fun _ _ => False) (fun _ => True) s₀ := overlappingSegment_spec hregions
    have hfound' := Prog.wp_ok hspec hfound
    exact not_hits_placed hapart hends hsplit hx hpos (hfound'.2.mp rfl)
  · intro ws s' hrun
    unfold loadElf at hrun
    rw [hxs] at hrun
    exact ⟨loadedExactly_all_iff hrun, windows_disjoint_iff hrun⟩

end Image

/-! ## Small images -/

/-- A segment whose file bytes are all 7. -/
def demoSegment (vaddr filesz memsz : Nat) : Segment :=
  ⟨ptLoad, 6, vaddr, filesz, memsz, some fun _ => 7⟩

/-- Two pages and a page after them, both left inside. -/
def demoImage : List Segment := [demoSegment 0x400000 0x1000 0x1010, demoSegment 0x402000 16 32]

theorem segmentsApart_pair {x y : Segment} (hx : x.Loadable) (hy : y.Loadable)
    (h : (x.pVaddr + x.pMemsz - 1) / pageSize4K < y.pVaddr / pageSize4K) :
    SegmentsApart [x, y] := by
  have hdisj : Disjoint x.pages y.pages := by
    rw [Set.disjoint_left]
    intro q hq hq'
    have hle := ((mem_touched pageSize4K_pos).mp hq).2.2
    have hge := ((mem_touched pageSize4K_pos).mp hq').2.1
    omega
  unfold SegmentsApart
  simpa [hx, hy] using hdisj

theorem demoImage_apart : SegmentsApart demoImage :=
  segmentsApart_pair (.inl rfl) (.inl rfl) (by decide)

theorem demoImage_endsInside : EndsInside demoImage := ⟨by decide, by decide⟩

/-- Both segments are loaded exactly, into windows apart. -/
theorem loadElf_windows_demo :
    (∀ w s₁, (overlappingSegment 0x400000 0x1010 [] : SProg Sel4Error _) demo ≠ .ok (some w) s₁) ∧
    ∃ ws s', loadElf 5 ⟨0, some demoImage⟩ demo = .ok ws s' ∧
      LoadedExactly 5 demo s' [demoSegment 0x400000 0x1000 0x1010] (demoSegment 0x402000 16 32) ∧
      ws.Pairwise fun w w' => Disjoint (s'.range w) (s'.range w') := by
  have helf : (⟨0, some demoImage⟩ : Elf).segments = some demoImage := rfl
  have hwindows := loadElf_windows helf 5 demo
  refine ⟨hwindows.1 demoImage_apart demoImage_endsInside [] _ _ _ _ rfl (.inl rfl) (by decide) rfl,
    ?_⟩
  have hrun : (loadElf 5 ⟨0, some demoImage⟩ demo).toOption.isSome = true := by decide +kernel
  obtain ⟨⟨ws, s'⟩, hok⟩ := Option.isSome_iff_exists.mp hrun
  have hok' := Outcome.toOption_eq_some.mp hok
  obtain ⟨hexact, hdisjoint⟩ := hwindows.2 ws s' hok'
  refine ⟨ws, s', hok', ?_, hdisjoint.mpr (by decide)⟩
  exact (hexact demoImage_apart).mpr demoImage_endsInside [_] _ [] rfl (.inl rfl) (by decide)

/-- A page, and the page after it. -/
def adjacentImage : List Segment := [demoSegment 0x400000 16 0x1000, demoSegment 0x401000 16 32]

/-- A page, and a segment that begins before it and ends after it. -/
def enclosingImage : List Segment := [demoSegment 0x401000 16 32, demoSegment 0x400000 16 0x2010]

/-- Segments on different pages, the second next to the first: the loader gives up. Without the
second it makes room for a page too many. A segment that encloses an earlier one gets a window
around the other's. -/
theorem loadElf_windows_not :
    SegmentsApart adjacentImage ∧ loadElf 5 ⟨0, some adjacentImage⟩ demo = .panic .notImplemented ∧
    (∃ ws s', loadElf 5 ⟨0, some (adjacentImage.take 1)⟩ demo = .ok ws s' ∧ ws = [0] ∧
      0x401000 ∈ s'.range 0) ∧
    ∃ ws s', loadElf 5 ⟨0, some enclosingImage⟩ demo = .ok ws s' ∧ ws = [0, 1] ∧
      0x401000 ∈ s'.range 0 ∧ 0x401000 ∈ s'.range 1 := by
  refine ⟨segmentsApart_pair (.inl rfl) (.inl rfl) (by decide), ?_, ?_, ?_⟩
  · exact Outcome.toPanic_eq_some.mp (by decide +kernel)
  · have hrun : (loadElf 5 ⟨0, some (adjacentImage.take 1)⟩ demo).toOption.any (fun r =>
        decide (r.1 = [0] ∧ 0x401000 ∈ r.2.range 0)) = true := by decide +kernel
    obtain ⟨⟨ws, s'⟩, hok, h⟩ := (Option.any_eq_true _ _).mp hrun
    exact ⟨ws, s', Outcome.toOption_eq_some.mp hok, of_decide_eq_true h⟩
  · have hrun : (loadElf 5 ⟨0, some enclosingImage⟩ demo).toOption.any (fun r =>
        decide (r.1 = [0, 1] ∧ 0x401000 ∈ r.2.range 0 ∧ 0x401000 ∈ r.2.range 1)) = true := by
      decide +kernel
    obtain ⟨⟨ws, s'⟩, hok, h⟩ := (Option.any_eq_true _ _).mp hrun
    exact ⟨ws, s', Outcome.toOption_eq_some.mp hok, of_decide_eq_true h⟩

end Smos.RootServer
