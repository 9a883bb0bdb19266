/-
Smos.RootServer.LiveViewTurns — the links in every run.

One lemma for each kind of turn: where the operation finds the links it
expects (`Viewed.Keeps`), the links agree on the live views after it, so no
handler panics at a link. A second registration of a window and the
destruction of a registered one show that the condition is needed.
-/
import Smos.RootServer.LiveViews

namespace Smos.RootServer

open Smos.Base

/-- Taking a view out of a list in which it is once. -/
theorem swapRemove_perm_filter {xs : List ViewRef} {v pos : Nat} (hn : xs.Nodup)
    (hpos : xs.findIdx? (· == v) = some pos) :
    (swapRemove xs pos).Perm (xs.filter fun u => some v ≠ some u) := by
  obtain ⟨hlt, -⟩ := List.findIdx?_eq_some_iff_getElem.mp hpos
  have herase : xs.erase v = xs.eraseIdx pos := by
    rw [List.erase_eq_eraseIdx, List.idxOf?, hpos]
  rw [hn.erase_eq_filter] at herase
  refine (swapRemove_perm hlt).trans ?_
  rw [← herase]
  refine List.Perm.of_eq (List.filter_congr fun u _ => ?_)
  by_cases hu : u = v
  · simp [hu]
  · simp [hu, Ne.symm hu]

namespace Tied

variable {s s' s₁ : State} {live : List ViewRef} {gone : List WindowRef} {p : Nat} {x : Viewed}
  {op : Op}

/-! ## The ghost state after a turn -/

theorem after_kept (h : Tied ⟨s', x.live, x.gone⟩) (hn : s'.views.next = x.state.views.next)
    (ht : op.tornDown x.state s' = none) : Tied (x.after op s') := by
  unfold Viewed.after
  rw [ht, hn, Nat.sub_self]
  refine h.live_congr fun v => ?_
  simp

theorem after_made (h : Tied ⟨s', x.state.views.next :: x.live, x.gone⟩)
    (hn : s'.views.next = x.state.views.next + 1) (ht : op.tornDown x.state s' = none) :
    Tied (x.after op s') := by
  unfold Viewed.after
  rw [ht, hn, Nat.add_sub_cancel_left]
  refine h.live_congr fun v => ?_
  simp [or_comm]

theorem after_torn {y : RootServerResource} (hn : s'.views.next = x.state.views.next)
    (h : Tied ⟨s', x.live.filter fun u => x.state.viewOf y ≠ some u, y.windowOf.toList ++ x.gone⟩)
    (ht : op.tornDown x.state s' = some y) : Tied (x.after op s') := by
  unfold Viewed.after
  rw [ht, hn, Nat.sub_self]
  refine h.live_congr fun v => ?_
  simp

theorem tornDown_self (s : State) (op : Op) : op.tornDown s s = none := by
  unfold Op.tornDown
  split
  · split
    · exact Option.isNone_iff_eq_none.mp ‹_›
    · rfl
  · rfl

theorem tornDown_eq {loc : HandleLoc} {y : RootServerResource} (hloc : op.handleLoc s = some loc)
    (hat : s.handleAt loc = some y) (hclear : s'.handleAt loc = none) :
    op.tornDown s s' = some y := by
  unfold Op.tornDown
  simp [hloc, hat, hclear]

/-! ## Handles -/

theorem giveHandle (h : Tied ⟨s, live, gone⟩) {returnCap : Bool} {idx : Nat}
    {y : RootServerResource} (hv : s.ValidLoc (allocatedLoc p returnCap idx))
    (hy : Fits s live gone y) : Tied ⟨s.giveHandle p returnCap idx y, live, gone⟩ := by
  refine (h.setHandleAt hv hy).ofLinks (.updProc _ p fun u => ?_)
  unfold recordCap
  split <;> rfl

/-- What is still given after a handle has been given back. -/
theorem cleared {loc : HandleLoc} (hloc : s.ValidLoc loc) {loc' : HandleLoc}
    {y : RootServerResource} (h : (s.setHandleAt loc none).handleAt loc' = some y) :
    loc' ≠ loc ∧ s.handleAt loc' = some y := by
  rw [State.handleAt_setHandleAt hloc] at h
  split at h
  · cases h
  · exact ⟨‹_›, h⟩

theorem cleared_self {loc : HandleLoc} (hloc : s.ValidLoc loc) :
    (s.setHandleAt loc none).handleAt loc = none := by
  rw [State.handleAt_setHandleAt hloc, if_pos rfl]

/-! ## One lemma for each kind of turn -/

theorem windowCreated (h : Tied ⟨s, live, gone⟩) (hs : Sane s) {args : WindowCreateArgs}
    (hc : WindowCreated p args s s') : Tied ⟨s', live, gone⟩ := by
  obtain ⟨-, -, idx, hv, -, rfl⟩ := hc
  have h₁ := h.ofLinks (.allocWindow hs (x := ⟨args.baseVaddr, args.size, none⟩) rfl)
  have hfits : Fits { s with windows := s.windows.alloc ⟨args.baseVaddr, args.size, none⟩ } live
      gone (.window s.windows.next) := by
    refine ⟨fun hg => Nat.lt_irrefl _ (h.goneRange _ hg), fun loc hl => ?_⟩
    exact Nat.lt_irrefl _ (hs.handles loc (.window s.windows.next) hl)
  exact (h₁.giveHandle ((State.validLoc_congr (s := s) rfl).mpr hv) hfits).ofLinks
    (.updProc _ p fun _ => rfl)

theorem windowRegistered (h : Tied ⟨s, live, gone⟩) (hs : Sane s) {args : WindowRegisterArgs}
    {srv : ServerRef} {w : WindowRef} {idx : Nat} (hr : WindowRegistered p args srv w idx s s')
    (hfree : (s.windows w).boundView = none) : Tied ⟨s', s.views.next :: live, gone⟩ := by
  have heq := hr.eq
  subst heq
  have h₁ : Tied ⟨{ s with
      views := s.views.alloc (View.new w none (some (srv, args.clientId, args.reference)) .all 0 0)
      windows := s.windows.update w (Window.bind (some s.views.next)) },
      s.views.next :: live, gone⟩ :=
    h.made hs (y := View.new w none (some (srv, args.clientId, args.reference)) .all 0 0)
      rfl rfl (fun o => by simp [View.new]) (fun _ => State.handleAt_congr rfl rfl _) hfree
      (h.windows _ w hr.window)
  refine h₁.setHandleAt ((State.validLoc_congr (s := s) rfl).mpr hr.valid)
    ⟨List.mem_cons_self, fun loc hl => ?_⟩
  exact Nat.lt_irrefl _ (hs.handles loc (.windowRegistration s.views.next) hl)

theorem linked (h : Tied ⟨s, live, gone⟩) (hs : Sane s) {w : WindowRef} {o : ObjectRef} {y : View}
    (hw : y.boundWindow = w) (ho : y.boundObject = some o)
    (hfree : (s.windows w).boundView = none) (hstands : w ∉ gone) :
    Tied ⟨s.linkView w o y, s.views.next :: live, gone⟩ := by
  subst hw
  refine h.made hs (y := y) rfl rfl (fun o' => ?_) (fun _ => rfl) hfree hstands
  simp only [State.linkView, Heap.update_apply, ho, Option.some.injEq]
  by_cases heq : o' = o
  · subst heq
    simp
  · simp [heq, Ne.symm heq]

theorem viewAccepted (h : Tied ⟨s, live, gone⟩) (hs : Sane s) {args : ViewArgs} {w : WindowRef}
    {o : ObjectRef} (ha : ViewAccepted p args w o s) :
    Tied ⟨s.linkView w o (args.newView w o), s.views.next :: live, gone⟩ := by
  obtain ⟨loc, -, hl⟩ := ha.window
  exact h.linked hs rfl rfl ha.unbound (h.windows loc w hl)

theorem viewMade (h : Tied ⟨s, live, gone⟩) (hs : Sane s) {args : ViewArgs} {w : WindowRef}
    {o : ObjectRef} {idx : Nat} (hm : ViewMade p args w o idx s s') :
    Tied ⟨s', s.views.next :: live, gone⟩ := by
  have heq := hm.eq
  subst heq
  refine ((h.viewAccepted hs hm.accepted).setHandleAt
    ((State.validLoc_congr (s := s) rfl).mpr hm.valid) ?_).ofLinks (.updProc _ p fun _ => rfl)
  simp [Fits, State.linkView, ViewArgs.newView, View.new]

theorem publishing (h : Tied ⟨s, live, gone⟩) (hs : Sane s) {args : ConnPublishArgs} {f : Nat}
    {r₁ r₂ : Res} {object : AnonymousMemoryObject} {page : PageEntry}
    (hp : Publishing p args f r₁ r₂ object page s s') :
    Tied ⟨s', s.views.next :: live, gone⟩ := by
  have hs₁ := hs.allocWindow (x := ⟨args.ntfnBuffer, pageSize4K, none⟩) rfl
  have h₁ := h.ofLinks (.allocWindow hs (x := ⟨args.ntfnBuffer, pageSize4K, none⟩) rfl)
  have h₂ := h₁.ofLinks (.allocObject hs₁ (x := .new pageSize4K .all .default) rfl)
  have hs₂ := hs₁.allocObject (x := .new pageSize4K .all .default) rfl
  have hfree : ((s.windows.alloc ⟨args.ntfnBuffer, pageSize4K, none⟩)
      s.windows.next).boundView = none := by
    rw [Heap.alloc_self]
  have h₃ := h₂.linked hs₂ (w := s.windows.next) (o := s.objects.next)
    (y := View.new s.windows.next (some s.objects.next) none .all 0 0) rfl rfl hfree
    (fun hg => Nat.lt_irrefl _ (h.goneRange _ hg))
  obtain ⟨t, -, hobject⟩ := insertFrameAt_ok hp.insert
  have h₄ := h₃.ofLinks (.setObject (s.linkRing args.ntfnBuffer) s.objects.next (x := object)
    (by rw [hobject]))
  have h₅ : Tied ⟨{ s.linkRing args.ntfnBuffer with
      res := { r₂ with kernel := r₂.kernel.writeMem page.obj (s.initRing (r₂.kernel.mem page.obj)) }
      objects := (s.linkRing args.ntfnBuffer).objects.update s.objects.next fun _ => object },
      s.views.next :: live, gone⟩ := h₄.ofLinks (.of_eq rfl rfl rfl rfl rfl)
  rw [hp.eq]
  have h₆ := h₅.ofLinks
    (.updProc _ p (f := fun u => { u with windows := u.windows ++ [s.windows.next] }) fun _ => rfl)
  exact h₆.ofLinks
    (.updProc _ p (f := fun u => { u with views := u.views ++ [s.views.next] }) fun _ => rfl)

theorem published (h : Tied ⟨s₁, live, gone⟩) {args : ConnPublishArgs} {f idx : Nat}
    {srv : Server} (hp : Published p args f idx srv s s₁ s') : Tied ⟨s', live, gone⟩ := by
  have heq := hp.eq
  subst heq
  have h₁ : Tied ⟨{ s₁ with
      servers := s₁.servers.alloc srv
      published := s₁.published ++ [(args.name, s₁.servers.next)] }, live, gone⟩ :=
    h.ofLinks (.of_eq rfl rfl rfl rfl rfl)
  exact h₁.setHandleAt ((State.validLoc_congr (s := s₁) rfl).mpr hp.valid) trivial

/-! ## Taking apart -/

/-- Only the object of a view lists it. -/
theorem filter_of_ne (h : Tied ⟨s, live, gone⟩) {v : ViewRef} {o : ObjectRef}
    (ho : (s.views v).boundObject ≠ some o) :
    ((s.objects o).associatedViews.filter fun u => some v ≠ some u) =
      (s.objects o).associatedViews := by
  refine List.filter_eq_self.mpr fun u hu => ?_
  have hne : v ≠ u := by
    rintro rfl
    exact ho (h.listed o v hu)
  simp [hne]

/-- The object's list, after the view has been taken out. -/
theorem dissociated (h : Tied ⟨s, live, gone⟩) {v : ViewRef} {o : ObjectRef} {pos : Nat}
    (hviews : s₁.views = s.views) (hobjects : s₁.objects = s.objects)
    (hd : Dissociated v o pos s₁ s') (o' : ObjectRef) :
    (s'.objects o').associatedViews.Perm
      ((s.objects o').associatedViews.filter fun u => some v ≠ some u) := by
  have hfound := hd.found
  have hbound := hd.boundObject
  rw [hobjects] at hfound
  rw [hviews] at hbound
  rw [hd.eq]
  simp only [hobjects, Heap.update_apply]
  split
  · rename_i heq
    subst heq
    exact swapRemove_perm_filter (h.nodup o') hfound
  · rename_i hne
    rw [h.filter_of_ne]
    rw [hbound]
    exact fun heq => hne (Option.some.inj heq).symm

/-- The window of a view is unbound, as the view is taken apart. -/
theorem bound_unbind (h : Tied ⟨s, live, gone⟩) {v : ViewRef} (hv : v ∈ live)
    (hwindows : s'.windows = s.windows.update (s.views v).boundWindow (Window.bind none))
    {w : WindowRef} (hw : w ∉ gone) (u : ViewRef) :
    (s'.windows w).boundView = some u ↔
      (s.windows w).boundView = some u ∧ some v ≠ some u := by
  rw [hwindows, Heap.update_apply]
  split
  · rename_i heq
    subst heq
    rw [h.kept v hv]
    simp only [Window.bind, reduceCtorEq, false_iff, not_and, not_not]
    exact fun heq => heq
  · rename_i hne
    refine ⟨fun hb => ⟨hb, fun heq => ?_⟩, fun hb => hb.1⟩
    cases heq
    exact hne ((h.bound w hw v).mp hb).2.symm

theorem unviewed (h : Tied ⟨s, live, gone⟩) (hs : Sane s) {hndl : Nat} {v : ViewRef}
    {o : ObjectRef} {pos : Nat} {r' : Res} (valid : s.ValidLoc (.table p hndl))
    (hu : Unviewed v o pos r' s s₁) (hv : v ∈ live) :
    Tied ⟨s₁.setHandleAt (.table p hndl) none, live.filter fun u => some v ≠ some u, gone⟩ := by
  have hshape := SameShape.unviewed hu
  have hvalid : s₁.ValidLoc (.table p hndl) :=
    (State.validLoc_congr (s := s) hshape.procCells).mpr valid
  have hat : ∀ loc, s₁.handleAt loc = s.handleAt loc :=
    State.handleAt_congr hshape.procCells hshape.handleCaps
  have hwin : s₁.windows = s.windows.update (s.views v).boundWindow (Window.bind none) := by
    rw [hu.dissociated.eq]
  have hobject := hu.dissociated.boundObject
  refine h.takenApart (by rw [State.setHandleAt_views, hshape.views]) ?_ ?_ ?_
    (fun _ hw => hw) ?_ ?_ ?_ ?_
  · intro o'
    rw [State.setHandleAt_objects]
    exact h.dissociated (by rfl) (by rfl) hu.dissociated o'
  · intro w hw u
    rw [State.setHandleAt_windows]
    exact h.bound_unbind hv hwin hw u
  · exact fun u hu' _ => h.standing u hu'
  · intro w hw
    rw [State.setHandleAt_windows, hwin]
    exact h.goneRange w hw
  · intro loc y hl
    exact (hat loc).symm.trans (cleared hvalid hl).2
  · intro loc u hl heq
    cases heq
    have hno := hs.registered loc v ((hat loc).symm.trans (cleared hvalid hl).2)
    cases hobject.symm.trans hno
  · intro loc w hl
    exact h.windows loc w ((hat loc).symm.trans (cleared hvalid hl).2)

theorem windowDeregistered (h : Tied ⟨s, live, gone⟩) {hndl : Nat} {v : ViewRef} {r' : Res}
    (hd : WindowDeregistered p hndl v r' s s') :
    Tied ⟨s', live.filter fun u => some v ≠ some u, gone⟩ := by
  have hv := h.registrations _ v hd.registration
  have heq := hd.eq
  subst heq
  have hat : ∀ loc, ({ s with
      res := r'
      windows := s.windows.update (s.views v).boundWindow (Window.bind none) } :
        State).handleAt loc = s.handleAt loc := State.handleAt_congr rfl rfl
  have hvalid : ({ s with
      res := r'
      windows := s.windows.update (s.views v).boundWindow (Window.bind none) } :
        State).ValidLoc (.table p hndl) := (State.validLoc_congr (s := s) rfl).mpr hd.valid
  refine h.takenApart (State.setHandleAt_views _ _) ?_ ?_ ?_ (fun _ hw => hw) ?_ ?_ ?_ ?_
  · intro o
    rw [State.setHandleAt_objects, h.filter_of_ne]
    rw [hd.boundObject]
    simp
  · intro w hw u
    rw [State.setHandleAt_windows]
    exact h.bound_unbind hv rfl hw u
  · exact fun u hu _ => h.standing u hu
  · intro w hw
    rw [State.setHandleAt_windows]
    exact h.goneRange w hw
  · intro loc y hl
    exact (hat loc).symm.trans (cleared hvalid hl).2
  · intro loc u hl heq
    cases heq
    obtain ⟨hne, hl⟩ := cleared hvalid hl
    exact hne (h.single loc _ (.windowRegistration v) trivial ((hat loc).symm.trans hl) hd.registration)
  · intro loc w hl
    exact h.windows loc w ((hat loc).symm.trans (cleared hvalid hl).2)

theorem objDestroyed (h : Tied ⟨s, live, gone⟩) {hndl : HandleArg} {loc : HandleLoc}
    {o : ObjectRef} {r' : Res} (hd : ObjDestroyed p hndl loc o r' s s') :
    Tied ⟨s', live, gone⟩ := by
  have heq := hd.eq
  subst heq
  have hat : ∀ loc, ({ s with res := r' } : State).handleAt loc = s.handleAt loc :=
    State.handleAt_congr rfl rfl
  have hvalid : ({ s with res := r' } : State).ValidLoc loc :=
    (State.validLoc_congr (s := s) rfl).mpr hd.valid
  have h₁ : Tied ⟨({ s with res := r' } : State).setHandleAt loc none,
      live.filter fun u => (none : Option ViewRef) ≠ some u, gone⟩ := by
    refine h.takenApart (State.setHandleAt_views _ _) ?_ ?_ (fun u hu _ => h.standing u hu)
      (fun _ hw => hw) ?_ ?_ (fun _ _ _ => by simp) ?_
    · intro o'
      rw [State.setHandleAt_objects]
      exact List.Perm.of_eq (List.filter_eq_self.mpr (by simp)).symm
    · intro w hw u
      rw [State.setHandleAt_windows]
      simp
    · intro w hw
      rw [State.setHandleAt_windows]
      exact h.goneRange w hw
    · intro loc' y hl
      exact (hat loc').symm.trans (cleared hvalid hl).2
    · intro loc' w hl
      exact h.windows loc' w ((hat loc').symm.trans (cleared hvalid hl).2)
  exact h₁.live_congr fun v => by simp

/-- The window is destroyed, and with it the view in it, if it has one. -/
theorem windowRemoved (h : Tied ⟨s, live, gone⟩) (hs : Sane s) {hndl : HandleArg}
    {loc : HandleLoc} {w : WindowRef} (hr : WindowRemoved p hndl loc w s₁ s s') :
    Tied ⟨s', live.filter fun u => (s.windows w).boundView ≠ some u, w :: gone⟩ := by
  have hshape := SameShape.windowDestroyed hr.destroyed
  have hframe := hr.destroyed.frame
  have hwin : s₁.windows = s.windows := by rw [hframe]
  have hat : ∀ loc, (s₁.updProc p (dropWindow w)).handleAt loc = s.handleAt loc := by
    intro loc'
    rw [State.handleAt_updProc_of_eq fun u => ?_]
    · exact State.handleAt_congr hshape.procCells hshape.handleCaps loc'
    · unfold dropWindow
      split <;> rfl
  have hvalid : (s₁.updProc p (dropWindow w)).ValidLoc loc := by
    rw [State.validLoc_updProc]
    exact (State.validLoc_congr (s := s) hshape.procCells).mpr hr.valid
  have heq := hr.eq
  subst heq
  have hwgone : w ∉ gone := h.windows loc w hr.window
  -- the view in the window is one of an object, if it is taken apart
  have hdead : ∀ v, (s.windows w).boundView = some v →
      (s.views v).boundObject ≠ none ∧ v ∈ live := by
    intro v hv
    refine ⟨?_, ((h.bound w hwgone v).mp hv).1⟩
    cases hr.destroyed with
    | unbound hnone => cases hnone.symm.trans hv
    | kept _ _ _ hd => cases hd
    | destroyed v' o pos s₁ s₂ r' hv' _ hn hdis _ =>
      cases hv.symm.trans hv'
      have ho := hdis.boundObject
      rw [hn.frame] at ho
      exact fun hno => by cases ho.symm.trans hno
  refine h.takenApart ?_ ?_ ?_ ?_ (fun _ hw => List.mem_cons_of_mem _ hw) ?_ ?_ ?_ ?_
  · rw [State.setHandleAt_views, State.updProc_views, hshape.views]
  · intro o'
    rw [State.setHandleAt_objects, State.updProc_objects]
    cases hr.destroyed with
    | unbound hnone =>
      rw [hnone]
      exact List.Perm.of_eq (List.filter_eq_self.mpr (by simp)).symm
    | kept _ _ _ hd => cases hd
    | destroyed v o pos s₁ s₂ r' hv _ hn hdis _ =>
      rw [hv]
      exact h.dissociated (by rw [hn.frame]) (by rw [hn.frame]) hdis o'
  · intro w' hw' u
    rw [State.setHandleAt_windows, State.updProc_windows, hwin]
    simp only [List.mem_cons, not_or] at hw'
    refine ⟨fun hb => ⟨hb, fun heq => ?_⟩, fun hb => hb.1⟩
    have hself := ((h.bound w hwgone u).mp heq).2
    exact hw'.1 (((h.bound w' hw'.2 u).mp hb).2.symm.trans hself)
  · intro u hu hne hmem
    rcases List.mem_cons.mp hmem with hself | hmem
    · exact hne (hself ▸ h.kept u hu)
    · exact h.standing u hu hmem
  · intro w' hw'
    rw [State.setHandleAt_windows, State.updProc_windows, hwin]
    rcases List.mem_cons.mp hw' with rfl | hw'
    · exact hs.handles loc _ hr.window
    · exact h.goneRange w' hw'
  · intro loc' y hl
    exact (hat loc').symm.trans (cleared hvalid hl).2
  · intro loc' v hl hb
    exact (hdead v hb).1 (hs.registered loc' v ((hat loc').symm.trans (cleared hvalid hl).2))
  · intro loc' w' hl hw'
    obtain ⟨hne, hkept⟩ := cleared hvalid hl
    have hold := (hat loc').symm.trans hkept
    rcases List.mem_cons.mp hw' with rfl | hw'
    · exact hne (h.single loc' loc (.window w') trivial hold hr.window)
    · exact h.windows loc' w' hold hw'

/-! ## Every turn -/

/-- A turn that gives no handle back. -/
theorem tornDown_none (hloc : op.handleLoc s = none) : op.tornDown s s' = none := by
  unfold Op.tornDown
  rw [hloc]

theorem turn (h : Tied x) (hs : Sane x.state) (hk : x.Keeps op) (ht : Turn x.state op s') :
    Tied (x.after op s') := by
  cases ht with
  | refused => exact after_kept h rfl (tornDown_self _ _)
  | windowCreate p u _ hc =>
    refine after_kept (h.windowCreated hs hc) ?_ (tornDown_none rfl)
    obtain ⟨-, -, idx, -, -, rfl⟩ := hc
    simp [State.giveHandle]
  | @windowDestroy pid hndl s' p u loc w s₁ act hr =>
    have hshape := SameShape.windowDestroyed hr.destroyed
    have hnext : s'.views.next = x.state.views.next := by
      rw [hr.eq, State.setHandleAt_views, State.updProc_views, hshape.views]
    have hloc : (Op.windowDestroy pid hndl).handleLoc x.state = some loc := by
      simp only [Op.handleLoc, act.cell, Option.bind_some, hr.loc_eq]
    refine after_torn (y := .window w) hnext (h.windowRemoved hs hr) (tornDown_eq hloc hr.window ?_)
    rw [hr.eq]
    refine cleared_self ?_
    rw [State.validLoc_updProc]
    exact (State.validLoc_congr (s := x.state) hshape.procCells).mpr hr.valid
  | windowRegister p u srv w idx _ hr =>
    have hfree : (x.state.windows w).boundView = none := by
      simpa only [Viewed.Keeps, hr.window] using hk
    refine after_made (h.windowRegistered hs hr hfree) ?_ (tornDown_none rfl)
    rw [hr.eq, State.setHandleAt_views, Heap.alloc_next]
  | @windowDeregister pid hndl s' p u v r' act hd =>
    have hloc : (Op.windowDeregister pid hndl).handleLoc x.state = some (.table p hndl) := by
      simp only [Op.handleLoc, act.cell, Option.map_some]
    refine after_torn (y := .windowRegistration v) ?_ (h.windowDeregistered hd)
      (tornDown_eq hloc hd.registration ?_)
    · rw [hd.eq, State.setHandleAt_views]
    · rw [hd.eq]
      exact cleared_self ((State.validLoc_congr (s := x.state) rfl).mpr hd.valid)
  | objCreate p u s₁ idx _ hm hv _ =>
    have hkept := LinksKept.objMade hs hm
    refine after_kept ((h.ofLinks hkept).giveHandle hv trivial) ?_ (tornDown_none rfl)
    simp [State.giveHandle, hkept.viewsNext]
  | objLeft p u _ hm =>
    have hkept := LinksKept.objMade hs hm
    exact after_kept (h.ofLinks hkept) hkept.viewsNext (tornDown_none rfl)
  | @objDestroy pid hndl s' p u loc o r' act hd =>
    have hloc : (Op.objDestroy pid hndl).handleLoc x.state = some loc := by
      simp only [Op.handleLoc, act.cell, Option.bind_some, hd.loc_eq]
    refine after_torn (y := .object o) ?_ ?_ (tornDown_eq hloc hd.object ?_)
    · rw [hd.eq, State.setHandleAt_views]
    · exact (h.objDestroyed hd).live_congr fun v => by simp [State.viewOf]
    · rw [hd.eq]
      exact cleared_self ((State.validLoc_congr (s := x.state) rfl).mpr hd.valid)
  | view p u w o idx _ hm =>
    refine after_made (h.viewMade hs hm) ?_ (tornDown_none rfl)
    rw [hm.eq, State.updProc_views, State.setHandleAt_views]
    rfl
  | viewLeft p u w o _ accepted =>
    exact after_made (h.viewAccepted hs accepted) rfl (tornDown_none rfl)
  | @unview pid hndl p u v o pos r' s₁ act valid handle hu =>
    have hshape := SameShape.unviewed hu
    have hloc : (Op.unview pid hndl).handleLoc x.state = some (.table p hndl) := by
      simp only [Op.handleLoc, act.cell, Option.map_some]
    have hv : v ∈ x.live := by
      simpa only [Viewed.Keeps, State.named, hloc, Option.bind_some, handle] using hk
    refine after_torn (y := .view v) ?_ (h.unviewed hs valid hu hv) (tornDown_eq hloc handle ?_)
    · rw [State.setHandleAt_views, hshape.views]
    · exact cleared_self ((State.validLoc_congr (s := x.state) hshape.procCells).mpr valid)
  | connPublish p u f r₁ r₂ object page s₁ idx srv _ hp hp' =>
    refine after_made ((h.publishing hs hp).published hp') ?_ (tornDown_none rfl)
    rw [hp'.eq, State.setHandleAt_views, hp.eq]
    rfl
  | connTried p u r' =>
    exact after_kept (h.ofLinks (.of_eq rfl rfl rfl rfl rfl)) rfl (tornDown_none rfl)
  | connLeft p u f r₁ r₂ object page _ hp =>
    refine after_made (h.publishing hs hp) ?_ (tornDown_none rfl)
    rw [hp.eq]
    rfl
  | pageMap p u dst src w cap slot cs k view s₁ s₂ _ hm =>
    have hkept := LinksKept.of_links (.pageMapped hm)
    exact after_kept (h.ofLinks hkept) hkept.viewsNext (tornDown_none rfl)
  | faultServed p u s₁ _ hf =>
    have hkept := LinksKept.of_links
      (((SameLinks.blockOn _ _).trans (.faulted hf)).trans (.resume _ x.state.reply))
    exact after_kept (h.ofLinks hkept) hkept.viewsNext (tornDown_none rfl)
  | faultLeft p u x' s₁ r' reply _ hf _ renewed =>
    have hkept := LinksKept.of_links
      (((SameLinks.blockOn _ _).trans (.faulted hf)).trans (.renewed renewed))
    exact after_kept (h.ofLinks hkept) hkept.viewsNext (tornDown_none rfl)
  | takeNotification srv =>
    exact after_kept (h.ofLinks (.of_eq rfl rfl rfl rfl rfl)) rfl (tornDown_none rfl)
  | userWrite p u =>
    exact after_kept (h.ofLinks (.of_eq rfl rfl rfl rfl rfl)) rfl (tornDown_none rfl)
  | loadComplete => exact hk.elim
  | @registry pid inv s' p u _ hb =>
    have hviews : s'.views = x.state.views := hb.entered.views
    refine after_kept ((h.entered hb.entered).ofLinks ?_) (by rw [hviews]) (tornDown_none rfl)
    exact .of_eq rfl rfl rfl rfl rfl
  | @connDestroy pid hndl s' p u _ hd =>
    have hviews : s'.views = x.state.views := hd.entered.views
    refine after_kept ((h.entered hd.entered).ofLinks ?_) (by rw [hviews]) (tornDown_none rfl)
    exact .of_eq rfl rfl rfl rfl rfl
  | processWait p u proc r' reply _ renewed =>
    have hkept := (LinksKept.awaits x.state proc _).trans (.of_links (.renewed renewed))
    exact after_kept (h.ofLinks hkept) hkept.viewsNext (tornDown_none rfl)

/-! ## No panic at a link -/

/-- A live view of an object is in its list. -/
theorem associated (h : Tied x) {v : ViewRef} (hv : v ∈ x.live)
    (ho : (x.state.views v).boundObject ≠ none) : x.state.Associated v := by
  obtain ⟨o, ho⟩ := Option.ne_none_iff_exists'.mp ho
  refine ⟨o, ho, List.count_pos_iff.mp ?_⟩
  rw [h.once v hv o ho]
  exact Nat.one_pos

/-- A handler's panic is one in the cell of the process that invoked it. -/
theorem invoke_panic {α : Type} {pid : Pid} {handler : Nat → Handler α}
    {Q : Nat → α → State → Prop} {E : Nat → InvocationError → State → Prop}
    {P : Nat → Panic → Prop} {π : Panic}
    (hh : ∀ p, s.procs pid = some p → (handler p).wp (Q p) (E p) (P p) s)
    (hπ : invoke pid handler s = .panic π) : π.Low ∨ ∃ p, s.procs pid = some p ∧ P p π := by
  have hwp : (invoke pid handler).wp (fun _ _ => True) (fun _ _ => True)
      (fun π => π.Low ∨ ∃ p, s.procs pid = some p ∧ P p π) s := by
    simp only [invoke, Prog.wp_bind, Prog.wp_pure]
    refine Prog.wp_mono (procCell_spec s pid) ?_ (fun _ _ => False.elim) fun _ hp => .inl hp
    rintro p s ⟨rfl, u, act⟩
    exact Prog.wp_mono (hh p act.cell) (fun _ _ _ => trivial) (fun _ _ _ => trivial)
      fun _ hp => .inr ⟨p, act.cell, hp⟩
  have hpanic := Prog.wp_panic_of hwp hπ
  exact hpanic

theorem not_unlinked (h : Tied x) (hs : Sane x.state) (hk : x.Keeps op) {π : Panic}
    (hπ : exec op x.state = .panic π) : ¬ π.Unlinked := by
  have hmay := Prog.wp_panic_of (exec_spec hs op) hπ
  cases op with
  | windowDestroy pid hndl =>
    rcases invoke_panic (fun p _ => handleWindowDestroy_spec x.state p hndl) hπ with
      hlow | ⟨p, hp, hlow | ⟨loc, w, hloc, hw, v, hv, hno⟩⟩
    · exact hlow.linked
    · exact hlow.linked
    refine absurd (h.associated ((h.bound w (h.windows loc w hw) v).mp hv).1 ?_) hno
    have hnamed : x.state.named (.windowDestroy pid hndl) = some (.window w) := by
      simp only [State.named, Op.handleLoc, hp, Option.bind_some, hloc, hw]
    simpa only [Viewed.Keeps, hnamed, hv] using hk
  | windowDeregister pid hndl =>
    rcases hmay with hlow | ⟨p, v, hreg, ho⟩
    · exact hlow.linked
    · exact absurd (hs.registered _ v hreg) ho
  | unview pid hndl =>
    rcases invoke_panic (fun p _ => handleUnview_spec x.state p hndl) hπ with
      hlow | ⟨p, hp, hlow | ⟨v, hv, hno⟩⟩
    · exact hlow.linked
    · exact hlow.linked
    refine absurd (h.associated ?_ (h.views _ v hv)) hno
    have hnamed : x.state.named (.unview pid hndl) = some (.view v) := by
      simp only [State.named, Op.handleLoc, hp, Option.map_some, Option.bind_some, hv]
    simpa only [Viewed.Keeps, hnamed] using hk
  | objCreate | connPublish => exact hmay
  | processExit => exact hk.elim
  | _ => exact Panic.Low.linked hmay

/-- What boot leaves is tied. -/
theorem of_started (h : x.Started) : Tied x := by
  obtain ⟨hb, hlive, hgone⟩ := h
  have hmem : ∀ v, v ∈ x.live ↔ v < x.state.windows.next := by
    intro v
    rw [hlive, List.mem_range, hb.viewsNext]
  have hno : ∀ w, w ∉ x.gone := by
    intro w
    rw [hgone]
    exact List.not_mem_nil
  have hnone : ∀ loc y, x.state.handleAt loc ≠ some y := by
    intro loc y hl
    rw [hb.handleAt] at hl
    cases hl
  constructor
  · constructor
    · intro w _ v
      rw [hmem]
      rcases hb.loaded_or_blank w with ⟨hw, hl⟩ | ⟨hw, hblank, -⟩
      · rw [hl.boundView, Option.some.injEq]
        refine ⟨fun heq => heq ▸ ⟨hw, hl.boundWindow⟩, fun hv => ?_⟩
        exact hv.2.symm.trans (hb.loaded v hv.1).boundWindow
      · rw [hblank]
        refine ⟨fun heq => (by cases heq), fun hv => ?_⟩
        have hself := hv.2.symm.trans (hb.loaded v hv.1).boundWindow
        exact absurd hv.1 (Nat.not_lt.mpr (hself ▸ hw))
    · intro v hv
      have hl := hb.loaded v ((hmem v).mp hv)
      rw [hl.boundWindow]
      exact hl.boundView
    · intro v hv o ho
      have hl := hb.loaded v ((hmem v).mp hv)
      cases ho.symm.trans hl.boundObject
      rw [hl.associated, List.count_singleton_self]
    · intro v hv o hlisted
      rcases hb.loaded_or_blank o with ⟨ho, hl⟩ | ⟨-, -, -, hblank⟩
      · rw [hl.associated, List.mem_singleton] at hlisted
        exact hv ((hmem v).mpr (hlisted ▸ ho))
      · rw [hblank] at hlisted
        cases hlisted
  · exact fun v _ => hno _
  · intro o v hlisted
    rcases hb.loaded_or_blank o with ⟨ho, hl⟩ | ⟨-, -, -, hblank⟩
    · rw [hl.associated, List.mem_singleton] at hlisted
      exact hlisted ▸ (hb.loaded o ho).boundObject
    · rw [hblank] at hlisted
      cases hlisted
  · intro v hv
    rw [hb.viewsNext]
    exact (hmem v).mp hv
  · exact fun w hw => absurd hw (hno w)
  · exact fun loc w hl => absurd hl (hnone loc _)
  · exact fun loc v hl => absurd hl (hnone loc _)
  · exact fun loc v hl => absurd hl (hnone loc _)
  · exact fun loc _ y _ hl _ => absurd hl (hnone loc y)

end Tied

/-! ## Runs -/

/-- The views of an object that is to be destroyed are all dead. -/
theorem Linked.unviewed {x : Viewed} (h : Linked x) {pid : Pid} {hndl : HandleArg} {o : ObjectRef}
    (hk : x.Keeps (.objDestroy pid hndl))
    (hnamed : x.state.named (.objDestroy pid hndl) = some (.object o)) (v : ViewRef)
    (hv : v ∈ x.live) : (x.state.views v).boundObject ≠ some o := by
  intro ho
  have hnil : (x.state.objects o).associatedViews = [] := by
    simpa only [Viewed.Keeps, hnamed] using hk
  have honce := h.once v hv o ho
  rw [hnil] at honce
  cases honce

/-- Where every operation finds the links it expects, the links agree on the live views, no
handler panics at a link, and no object with a live view is destroyed. -/
theorem links_agree {ops : List Op} {x : Viewed}
    (run : Run Viewed.Started Viewed.next Viewed.Keeps ops x) :
    Linked x ∧ (∀ op π, x.Keeps op → exec op x.state = .panic π → ¬ π.Unlinked) ∧
      ∀ pid hndl o, x.Keeps (.objDestroy pid hndl) →
        x.state.named (.objDestroy pid hndl) = some (.object o) →
        ∀ v ∈ x.live, (x.state.views v).boundObject ≠ some o := by
  have hinv : Sane x.state ∧ Tied x := by
    refine run.invariant (I := fun x => Sane x.state ∧ Tied x)
      (fun x hx => ⟨hx.1.sane, .of_started hx⟩) ?_
    intro x op x' hi hk hn
    obtain ⟨hs, h⟩ := hi
    obtain ⟨s', hs', rfl⟩ := Option.map_eq_some_iff.mp hn
    have ht := next_turn hs hs'
    exact ⟨hs.turn ht, h.turn hs hk ht⟩
  obtain ⟨hs, h⟩ := hinv
  exact ⟨h.toLinked, fun op π hk => h.not_unlinked hs hk,
    fun pid hndl o hk hnamed => h.toLinked.unviewed hk hnamed⟩

instance (x : Viewed) (op : Op) : Decidable (x.Keeps op) := by
  unfold Viewed.Keeps
  split
  · split <;> infer_instance
  · split
    · split <;> infer_instance
    · infer_instance
  · split <;> infer_instance
  · split <;> infer_instance
  · infer_instance
  · infer_instance
  · infer_instance

def demoViewed : Viewed := ⟨demo, [], []⟩

theorem demoViewed_started : demoViewed.Started := ⟨demo_booted, rfl, rfl⟩

/-- A window is registered and the registration taken back, another is viewed and destroyed. -/
def demoLinks : List Op :=
  [.connPublish 1 ⟨"ring", 0x10000000⟩, .windowCreate 0 ⟨0x20000000, 0x1000, true⟩,
    .windowRegister 1 ⟨0, 0, 7, 1⟩, .windowDeregister 1 1,
    .objCreate 0 ⟨none, 0x1000, .all, .default, false⟩ none,
    .windowCreate 0 ⟨0x30000000, 0x1000, false⟩, .view 0 ⟨.handle 1, .handle 0, 0, 0, 0x1000, .all⟩,
    .windowDestroy 0 (.handle 1), .objDestroy 0 (.handle 0)]

theorem links_agree_demo : ∃ x, Run Viewed.Started Viewed.next Viewed.Keeps demoLinks x ∧
    x.live = [0] ∧ x.gone = [2] ∧ Linked x := by
  obtain ⟨x, run, hlive, hgone⟩ := Run.exists_of_steps (P := fun x => x.live = [0] ∧ x.gone = [2])
    demoViewed_started (by decide +kernel : Run.Guarded Viewed.next Viewed.Keeps demoViewed demoLinks)
    (by decide +kernel)
  exact ⟨x, run, hlive, hgone, (links_agree run).1⟩

/-- The second registration of a window takes the place of the first. -/
def demoDisplaced : List Op :=
  [.connPublish 1 ⟨"ring", 0x10000000⟩, .windowCreate 0 ⟨0x20000000, 0x1000, true⟩,
    .windowRegister 1 ⟨0, 0, 7, 1⟩, .windowRegister 1 ⟨0, 0, 7, 2⟩]

/-- The operations that make and take apart windows, objects and views, one at a time. -/
def Op.Links : Op → Prop
  | .loadComplete _ | .processExit _ _ => False
  | _ => True

instance : ∀ op : Op, Decidable op.Links
  | .loadComplete _ | .processExit _ _ => .isFalse id
  | .windowCreate _ _ | .windowDestroy _ _ | .windowRegister _ _ | .windowDeregister _ _
  | .objCreate _ _ _ | .objDestroy _ _ | .view _ _ | .unview _ _ | .connPublish _ _
  | .pageMap _ _ | .registry _ _ | .connDestroy _ _ | .processWait _ _ | .vmFault _ _
  | .takeNotification _ | .userWrite _ _ _ => .isTrue trivial

theorem links_disagree : ¬ ∀ (ops : List Op) (x : Viewed),
    Run Viewed.Started Viewed.next (fun _ op => op.Links) ops x →
    Linked x ∧ ∀ op π, exec op x.state = .panic π → ¬ π.Unlinked := by
  intro h
  obtain ⟨x, run, hlive, hother⟩ := Run.exists_of_steps
    (P := fun x => 1 ∈ x.live ∧
      (x.state.windows (x.state.views 1).boundWindow).boundView = some 2)
    demoViewed_started
    (by decide +kernel :
      Run.Guarded Viewed.next (fun _ op => op.Links) demoViewed demoDisplaced)
    (by decide +kernel)
  have hkept := (h _ x run).1.kept 1 hlive
  cases hother.symm.trans hkept

end Smos.RootServer
