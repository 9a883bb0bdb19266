/-
Smos.RootServer.LiveViews — windows, views and objects that name each other.

A view names its window and its object, a window names the view in it, and an
object lists its views; each handler updates some of these by hand. `Viewed`
keeps beside the state which views are live and which windows are destroyed,
read off the operations that went through, and `Linked` says that the three
links agree on the live views.

`handle_window_register` does not look whether the window has a view already,
`handle_window_destroy` takes a view without an object out of its object's
list, and leaves the handle of a view whose window it destroys. `Keeps` names
the operations that do not run into one of these.
-/
import Smos.RootServer.Boot
import Smos.RootServer.Links

namespace Smos.RootServer

open Smos.Base

/-! ## Live views -/

/-- A state with its live views and its destroyed windows. -/
structure Viewed where
  state : State
  live : List ViewRef
  gone : List WindowRef

/-- The handle that an operation is to give back. -/
def Op.handleLoc (s : State) : Op → Option HandleLoc
  | .unview pid hndl | .windowDeregister pid hndl => (s.procs pid).map fun p => .table p hndl
  | .windowDestroy pid hndl | .objDestroy pid hndl => (s.procs pid).bind fun p => hndl.loc p
  | _ => none

/-- What that handle is of. -/
def State.named (s : State) (op : Op) : Option RootServerResource :=
  (op.handleLoc s).bind s.handleAt

/-- What the operation took apart: the handle is given back at the end of a handler. -/
def Op.tornDown (s s' : State) (op : Op) : Option RootServerResource :=
  match op.handleLoc s with
  | some loc => if (s'.handleAt loc).isNone then s.handleAt loc else none
  | none => none

/-- The view that is taken apart with it. -/
def State.viewOf (s : State) : RootServerResource → Option ViewRef
  | .view v | .windowRegistration v => some v
  | .window w => (s.windows w).boundView
  | _ => none

def RootServerResource.windowOf : RootServerResource → Option WindowRef
  | .window w => some w
  | _ => none

namespace Viewed

/-- The new views are live, those taken apart are not. -/
def after (x : Viewed) (op : Op) (s' : State) : Viewed where
  state := s'
  live := (x.live ++ List.range' x.state.views.next (s'.views.next - x.state.views.next)).filter
    fun v => (op.tornDown x.state s').bind x.state.viewOf ≠ some v
  gone := ((op.tornDown x.state s').bind RootServerResource.windowOf).toList ++ x.gone

def next (x : Viewed) (op : Op) : Option Viewed := (RootServer.next x.state op).map (x.after op)

/-- The loader's views are live. -/
def Started (x : Viewed) : Prop :=
  Booted x.state ∧ x.live = List.range x.state.views.next ∧ x.gone = []

/-- The operation finds the links it expects. -/
def Keeps (x : Viewed) (op : Op) : Prop :=
  match op with
  | .windowRegister _ args =>
    match x.state.handleAt (.cap args.windowHndl) with
    | some (.window w) => (x.state.windows w).boundView = none
    | _ => True
  | .windowDestroy _ _ =>
    match x.state.named op with
    | some (.window w) =>
      match (x.state.windows w).boundView with
      | some v => (x.state.views v).boundObject ≠ none
      | none => True
    | _ => True
  | .unview _ _ =>
    match x.state.named op with
    | some (.view v) => v ∈ x.live
    | _ => True
  | .objDestroy _ _ =>
    match x.state.named op with
    | some (.object o) => (x.state.objects o).associatedViews = []
    | _ => True
  | .loadComplete _ | .processExit _ _ => False
  | _ => True

end Viewed

/-- The links agree on the live views. -/
structure Linked (x : Viewed) : Prop where
  bound : ∀ w, w ∉ x.gone → ∀ v,
    (x.state.windows w).boundView = some v ↔ v ∈ x.live ∧ (x.state.views v).boundWindow = w
  kept : ∀ v ∈ x.live, (x.state.windows (x.state.views v).boundWindow).boundView = some v
  once : ∀ v ∈ x.live, ∀ o, (x.state.views v).boundObject = some o →
    (x.state.objects o).associatedViews.count v = 1
  dead : ∀ v, v ∉ x.live → ∀ o, v ∉ (x.state.objects o).associatedViews

/-- The handle is the only one of what it is of. -/
def RootServerResource.Single : RootServerResource → Prop
  | .window _ | .windowRegistration _ => True
  | _ => False

/-- What the operations keep: the links agree, and the handles are of what stands. -/
structure Tied (x : Viewed) : Prop extends Linked x where
  standing : ∀ v ∈ x.live, (x.state.views v).boundWindow ∉ x.gone
  listed : ∀ o, ∀ v ∈ (x.state.objects o).associatedViews, (x.state.views v).boundObject = some o
  liveRange : ∀ v ∈ x.live, v < x.state.views.next
  goneRange : ∀ w ∈ x.gone, w < x.state.windows.next
  windows : ∀ loc w, x.state.handleAt loc = some (.window w) → w ∉ x.gone
  registrations : ∀ loc v, x.state.handleAt loc = some (.windowRegistration v) → v ∈ x.live
  views : ∀ loc v, x.state.handleAt loc = some (.view v) → (x.state.views v).boundObject ≠ none
  single : ∀ loc loc' y, y.Single → x.state.handleAt loc = some y →
    x.state.handleAt loc' = some y → loc = loc'

/-! ## Changes that keep the links -/

/-- No link and no handle has changed. -/
structure LinksKept (s s' : State) : Prop where
  boundView : ∀ w, (s'.windows w).boundView = (s.windows w).boundView
  boundWindow : ∀ v, (s'.views v).boundWindow = (s.views v).boundWindow
  boundObject : ∀ v, (s'.views v).boundObject = (s.views v).boundObject
  associated : ∀ o, (s'.objects o).associatedViews = (s.objects o).associatedViews
  viewsNext : s'.views.next = s.views.next
  windowsNext : s.windows.next ≤ s'.windows.next
  handleAt : ∀ loc, s'.handleAt loc = s.handleAt loc

namespace LinksKept

variable {s s' s₁ : State} {p : Nat}

theorem of_links (h : SameLinks s s') : LinksKept s s' where
  boundView w := by rw [h.windows]
  boundWindow := h.boundWindow
  boundObject := h.boundObject
  associated := h.associatedViews
  viewsNext := h.viewsNext
  windowsNext := by rw [h.windows]
  handleAt := h.handleAt

protected theorem refl (s : State) : LinksKept s s := of_links (.refl s)

protected theorem trans (h : LinksKept s s₁) (h' : LinksKept s₁ s') : LinksKept s s' where
  boundView w := (h'.boundView w).trans (h.boundView w)
  boundWindow v := (h'.boundWindow v).trans (h.boundWindow v)
  boundObject v := (h'.boundObject v).trans (h.boundObject v)
  associated o := (h'.associated o).trans (h.associated o)
  viewsNext := h'.viewsNext.trans h.viewsNext
  windowsNext := Nat.le_trans h.windowsNext h'.windowsNext
  handleAt loc := (h'.handleAt loc).trans (h.handleAt loc)

theorem updProc (s : State) (p : Nat) {f : UserProcess → UserProcess}
    (hf : ∀ u, (f u).handleTable = u.handleTable) : LinksKept s (s.updProc p f) where
  boundView _ := rfl
  boundWindow _ := rfl
  boundObject _ := rfl
  associated _ := rfl
  viewsNext := rfl
  windowsNext := Nat.le_refl _
  handleAt := State.handleAt_updProc_of_eq hf

theorem awaits (s : State) (proc : Nat) (pid : Pid) : LinksKept s (s.awaits proc pid) :=
  (updProc s proc (f := fun u => { u with waiter := some s.reply }) fun _ => rfl).trans
    (of_links (.blockOn _ pid))

theorem allocWindow (hs : Sane s) {x : Window} (hx : x.boundView = none) :
    LinksKept s { s with windows := s.windows.alloc x } where
  boundView w := by
    by_cases hw : w = s.windows.next
    · subst hw
      rw [Heap.alloc_self, hx, hs.blankWindow _ (Nat.le_refl _)]
      rfl
    · rw [Heap.alloc_of_ne _ hw]
  boundWindow _ := rfl
  boundObject _ := rfl
  associated _ := rfl
  viewsNext := rfl
  windowsNext := Nat.le_succ _
  handleAt := State.handleAt_congr rfl rfl

theorem allocObject (hs : Sane s) {x : AnonymousMemoryObject} (hx : x.associatedViews = []) :
    LinksKept s { s with objects := s.objects.alloc x } where
  boundView _ := rfl
  boundWindow _ := rfl
  boundObject _ := rfl
  associated o := by
    by_cases ho : o = s.objects.next
    · subst ho
      rw [Heap.alloc_self, hx, hs.blankObject _ (Nat.le_refl _)]
      rfl
    · rw [Heap.alloc_of_ne _ ho]
  viewsNext := rfl
  windowsNext := Nat.le_refl _
  handleAt := State.handleAt_congr rfl rfl

theorem setObject (s : State) (o : ObjectRef) {x : AnonymousMemoryObject}
    (hx : x.associatedViews = (s.objects o).associatedViews) :
    LinksKept s { s with objects := s.objects.update o fun _ => x } where
  boundView _ := rfl
  boundWindow _ := rfl
  boundObject _ := rfl
  associated := s.objects.update_preserves (r := o) AnonymousMemoryObject.associatedViews
    (f := fun _ => x) hx
  viewsNext := rfl
  windowsNext := Nat.le_refl _
  handleAt := State.handleAt_congr rfl rfl

/-- Only resources, servers and the like have changed. -/
theorem of_eq (hw : s'.windows = s.windows) (hv : s'.views = s.views)
    (ho : s'.objects = s.objects) (hp : s'.procCells = s.procCells)
    (hc : s'.handleCaps = s.handleCaps) : LinksKept s s' where
  boundView w := by rw [hw]
  boundWindow v := by rw [hv]
  boundObject v := by rw [hv]
  associated o := by rw [ho]
  viewsNext := by rw [hv]
  windowsNext := by rw [hw]
  handleAt := State.handleAt_congr hp hc

theorem objFilled {args : ObjCreateArgs} {o : ObjectRef} (hf : ObjFilled args o s s') :
    LinksKept s s' := by
  cases hf with
  | device paddr fs r object _ memory inserted =>
    have h₁ : LinksKept s { s with res := r } := .of_eq rfl rfl rfl rfl rfl
    exact h₁.trans (setObject _ o (by rw [inserted.eq]))
  | contiguous allocation object _ _ _ inserted =>
    have h₁ : LinksKept s { s with
        dma := { s.dma with allocations := allocation :: s.dma.allocations } } :=
      .of_eq rfl rfl rfl rfl rfl
    exact h₁.trans (setObject _ o (by rw [inserted.eq]))
  | eager _ _ _ _ filled => exact of_links (.eagerFilled filled)
  | empty => exact .refl s

theorem objMade {args : ObjCreateArgs} (hs : Sane s) (hm : ObjMade args s s') : LinksKept s s' :=
  (allocObject hs (x := .new args.size args.rights args.attributes) rfl).trans
    (objFilled hm.filled)

end LinksKept

namespace Tied

variable {s s' : State} {live live' : List ViewRef} {gone : List WindowRef}

theorem ofLinks (h : Tied ⟨s, live, gone⟩) (hk : LinksKept s s') : Tied ⟨s', live, gone⟩ where
  bound w hw v := by
    rw [hk.boundView, hk.boundWindow]
    exact h.bound w hw v
  kept v hv := by
    rw [hk.boundWindow, hk.boundView]
    exact h.kept v hv
  once v hv o ho := by
    rw [hk.associated]
    exact h.once v hv o ((hk.boundObject v).symm.trans ho)
  dead v hv o := by
    rw [hk.associated]
    exact h.dead v hv o
  standing v hv := by
    rw [hk.boundWindow]
    exact h.standing v hv
  listed o v hv := by
    rw [hk.boundObject]
    exact h.listed o v ((hk.associated o) ▸ hv)
  liveRange v hv := by
    rw [hk.viewsNext]
    exact h.liveRange v hv
  goneRange w hw := Nat.lt_of_lt_of_le (h.goneRange w hw) hk.windowsNext
  windows loc w hl := h.windows loc w ((hk.handleAt loc).symm.trans hl)
  registrations loc v hl := h.registrations loc v ((hk.handleAt loc).symm.trans hl)
  views loc v hl := by
    rw [hk.boundObject]
    exact h.views loc v ((hk.handleAt loc).symm.trans hl)
  single loc loc' y hy hl hl' :=
    h.single loc loc' y hy ((hk.handleAt loc).symm.trans hl) ((hk.handleAt loc').symm.trans hl')

/-- Which list the live views are in does not matter. -/
theorem live_congr (h : Tied ⟨s, live, gone⟩) (hl : ∀ v, v ∈ live' ↔ v ∈ live) :
    Tied ⟨s, live', gone⟩ where
  bound w hw v := (h.bound w hw v).trans (and_congr_left fun _ => (hl v).symm)
  kept v hv := h.kept v ((hl v).mp hv)
  once v hv := h.once v ((hl v).mp hv)
  dead v hv := h.dead v fun hv' => hv ((hl v).mpr hv')
  standing v hv := h.standing v ((hl v).mp hv)
  listed := h.listed
  liveRange v hv := h.liveRange v ((hl v).mp hv)
  goneRange := h.goneRange
  windows := h.windows
  registrations loc v hv := (hl v).mpr (h.registrations loc v hv)
  views := h.views
  single := h.single

/-- What a handle may be given for. -/
def Fits (s : State) (live : List ViewRef) (gone : List WindowRef) : RootServerResource → Prop
  | .window w => w ∉ gone ∧ ∀ loc, s.handleAt loc ≠ some (.window w)
  | .windowRegistration v => v ∈ live ∧ ∀ loc, s.handleAt loc ≠ some (.windowRegistration v)
  | .view v => (s.views v).boundObject ≠ none
  | _ => True

/-- A handle is cleared, or of something that fits. -/
theorem setHandle (h : Tied ⟨s, live, gone⟩) {loc : HandleLoc} (hloc : s.ValidLoc loc)
    {x : Option RootServerResource} (hx : ∀ y, x = some y → Fits s live gone y) :
    Tied ⟨s.setHandleAt loc x, live, gone⟩ := by
  have hat : ∀ loc' z, (s.setHandleAt loc x).handleAt loc' = some z →
      loc' = loc ∧ x = some z ∨ s.handleAt loc' = some z := by
    intro loc' z hz
    rw [State.handleAt_setHandleAt hloc] at hz
    split at hz
    · exact .inl ⟨‹_›, hz⟩
    · exact .inr hz
  have hw : (s.setHandleAt loc x).windows = s.windows := State.setHandleAt_windows _ _
  have hv : (s.setHandleAt loc x).views = s.views := State.setHandleAt_views _ _
  have ho : (s.setHandleAt loc x).objects = s.objects := State.setHandleAt_objects _ _
  constructor
  · constructor
    · simpa only [hw, hv] using h.bound
    · simpa only [hw, hv] using h.kept
    · simpa only [hv, ho] using h.once
    · simpa only [ho] using h.dead
  · simpa only [hv] using h.standing
  · simpa only [hv, ho] using h.listed
  · simpa only [hv] using h.liveRange
  · simpa only [hw] using h.goneRange
  · intro loc' w hl
    rcases hat loc' _ hl with ⟨-, hz⟩ | hl
    · exact (hx _ hz).1
    · exact h.windows loc' w hl
  · intro loc' v hl
    rcases hat loc' _ hl with ⟨-, hz⟩ | hl
    · exact (hx _ hz).1
    · exact h.registrations loc' v hl
  · intro loc' v hl
    simp only [hv]
    rcases hat loc' _ hl with ⟨-, hz⟩ | hl
    · exact hx _ hz
    · exact h.views loc' v hl
  · intro loc₁ loc₂ z hz h₁ h₂
    -- a handle of the same thing as the new one was there before
    have hnew : x = some z → ∀ loc', s.handleAt loc' ≠ some z := by
      intro heq
      cases z with
      | window w => exact (hx _ heq).2
      | windowRegistration v => exact (hx _ heq).2
      | _ => exact hz.elim
    rcases hat loc₁ z h₁ with ⟨rfl, heq⟩ | hold₁
    · rcases hat loc₂ z h₂ with ⟨rfl, -⟩ | hold₂
      · rfl
      · exact absurd hold₂ (hnew heq loc₂)
    · rcases hat loc₂ z h₂ with ⟨rfl, heq⟩ | hold₂
      · exact absurd hold₁ (hnew heq loc₁)
      · exact h.single loc₁ loc₂ z hz hold₁ hold₂

theorem setHandleAt (h : Tied ⟨s, live, gone⟩) {loc : HandleLoc} (hloc : s.ValidLoc loc)
    {y : RootServerResource} (hy : Fits s live gone y) :
    Tied ⟨s.setHandleAt loc (some y), live, gone⟩ :=
  h.setHandle hloc fun _ heq => Option.some.inj heq ▸ hy

/-- No entry is of a window, a registration of one, or a view. -/
theorem entered (h : Tied ⟨s, live, gone⟩) (he : Entered s s') : Tied ⟨s', live, gone⟩ := by
  induction he with
  | refl => exact h
  | lists _ servers connections irqs _ _ ih => exact ih.ofLinks (.of_eq rfl rfl rfl rfl rfl)
  | handle _ loc x valid new ih =>
    refine ih.setHandle valid fun y hy => ?_
    have hreg := new y hy
    cases y <;> trivial
  | created _ p idx ih => exact ih.ofLinks (.updProc _ p fun _ => rfl)

/-- A new view, in a window that has none. -/
theorem made (h : Tied ⟨s, live, gone⟩) (hs : Sane s) {y : View}
    (hviews : s'.views = s.views.alloc y)
    (hwindows : s'.windows = s.windows.update y.boundWindow (Window.bind (some s.views.next)))
    (hobjects : ∀ o, (s'.objects o).associatedViews = (s.objects o).associatedViews ++
      if y.boundObject = some o then [s.views.next] else [])
    (hhandles : ∀ loc, s'.handleAt loc = s.handleAt loc)
    (hfree : (s.windows y.boundWindow).boundView = none) (hstands : y.boundWindow ∉ gone) :
    Tied ⟨s', s.views.next :: live, gone⟩ := by
  have hnew : s'.views s.views.next = y := by rw [hviews, Heap.alloc_self]
  have hold : ∀ v, v ∈ live → s'.views v = s.views v := fun v hv => by
    rw [hviews, Heap.alloc_of_lt _ (h.liveRange v hv)]
  have hnext : s.views.next ∉ live := fun hv => Nat.lt_irrefl _ (h.liveRange _ hv)
  have hfresh : ∀ o, s.views.next ∉ (s.objects o).associatedViews := fun o hv =>
    Nat.lt_irrefl _ (hs.associated o _ hv)
  have hbind : ∀ w, (s'.windows w).boundView =
      if w = y.boundWindow then some s.views.next else (s.windows w).boundView := by
    intro w
    rw [hwindows, Heap.update_apply]
    split <;> rfl
  have hlist : ∀ o v, v ≠ s.views.next →
      (s'.objects o).associatedViews.count v = (s.objects o).associatedViews.count v := by
    intro o v hne
    rw [hobjects, List.count_append]
    split <;> simp [Ne.symm hne]
  have hmem : ∀ o v, v ∈ (s'.objects o).associatedViews →
      v ∈ (s.objects o).associatedViews ∨ v = s.views.next ∧ y.boundObject = some o := by
    intro o v hv
    rw [hobjects, List.mem_append] at hv
    rcases hv with hv | hv
    · exact .inl hv
    · split at hv
      · exact .inr ⟨List.mem_singleton.mp hv, ‹_›⟩
      · cases hv
  constructor
  · constructor
    · intro w hw v
      simp only [hbind, List.mem_cons]
      by_cases hwy : w = y.boundWindow
      · subst hwy
        simp only [if_true, Option.some.injEq]
        refine ⟨fun heq => ?_, fun hv => ?_⟩
        · subst heq
          exact ⟨.inl rfl, by rw [hnew]⟩
        · obtain ⟨hv, hbw⟩ := hv
          rcases hv with hv | hv
          · exact hv.symm
          · rw [hold v hv] at hbw
            have := h.kept v hv
            simp only [hbw, hfree] at this
            cases this
      · simp only [hwy, if_false]
        rw [h.bound w hw v]
        refine ⟨fun hv => ⟨.inr hv.1, by rw [hold v hv.1]; exact hv.2⟩, fun hv => ?_⟩
        obtain ⟨hv, hbw⟩ := hv
        rcases hv with rfl | hv
        · rw [hnew] at hbw
          exact absurd hbw.symm hwy
        · exact ⟨hv, by rw [← hold v hv]; exact hbw⟩
    · intro v hv
      rcases List.mem_cons.mp hv with rfl | hv
      · simp only [hnew, hbind, if_true]
      · simp only [hold v hv, hbind]
        split
        · rename_i heq
          have := h.kept v hv
          simp only [heq, hfree] at this
          cases this
        · exact h.kept v hv
    · intro v hv o ho
      rcases List.mem_cons.mp hv with rfl | hv
      · simp only [hnew] at ho
        simp only [hobjects, ho, if_true, List.count_append,
          List.count_eq_zero.mpr (hfresh o), List.count_singleton_self]
      · simp only [hold v hv] at ho
        have hne : v ≠ s.views.next := fun heq => hnext (heq ▸ hv)
        rw [← h.once v hv o ho]
        exact hlist o v hne
    · intro v hv o hmem'
      simp only [List.mem_cons, not_or] at hv
      rcases hmem o v hmem' with hmem' | ⟨rfl, -⟩
      · exact h.dead v hv.2 o hmem'
      · exact hv.1 rfl
  · intro v hv
    rcases List.mem_cons.mp hv with rfl | hv
    · simp only [hnew]
      exact hstands
    · simp only [hold v hv]
      exact h.standing v hv
  · intro o v hv
    rcases hmem o v hv with hv | ⟨rfl, ho⟩
    · have hlive : v ∈ live := by
        by_contra hno
        exact h.dead v hno o hv
      simp only [hold v hlive]
      exact h.listed o v hv
    · simp only [hnew]
      exact ho
  · intro v hv
    simp only [hviews, Heap.alloc_next]
    rcases List.mem_cons.mp hv with rfl | hv
    · exact Nat.lt_succ_self _
    · exact Nat.lt_succ_of_lt (h.liveRange v hv)
  · intro w hw
    simp only [hwindows, Heap.update_next]
    exact h.goneRange w hw
  · intro loc w hl
    exact h.windows loc w ((hhandles loc).symm.trans hl)
  · intro loc v hl
    exact List.mem_cons_of_mem _ (h.registrations loc v ((hhandles loc).symm.trans hl))
  · intro loc v hl
    have hl' := (hhandles loc).symm.trans hl
    have hlt : v < s.views.next := hs.handles loc _ hl'
    simp only [hviews, Heap.alloc_of_lt _ hlt]
    exact h.views loc v hl'
  · intro loc loc' z hz hl hl'
    exact h.single loc loc' z hz ((hhandles loc).symm.trans hl) ((hhandles loc').symm.trans hl')

/-- No object lists a view twice. -/
theorem nodup (h : Tied ⟨s, live, gone⟩) (o : ObjectRef) :
    (s.objects o).associatedViews.Nodup := by
  refine List.nodup_iff_count_le_one.mpr fun v => ?_
  by_cases hv : v ∈ (s.objects o).associatedViews
  · have hlive : v ∈ live := by
      by_contra hno
      exact h.dead v hno o hv
    exact Nat.le_of_eq (h.once v hlive o (h.listed o v hv))
  · rw [List.count_eq_zero.mpr hv]
    exact Nat.zero_le _

/-- A view is taken apart, with its window or not. -/
theorem takenApart (h : Tied ⟨s, live, gone⟩) {dead : Option ViewRef} {gone' : List WindowRef}
    (hviews : s'.views = s.views)
    (hobjects : ∀ o, (s'.objects o).associatedViews.Perm
      ((s.objects o).associatedViews.filter fun u => dead ≠ some u))
    (hbound : ∀ w, w ∉ gone' → ∀ u, (s'.windows w).boundView = some u ↔
      (s.windows w).boundView = some u ∧ dead ≠ some u)
    (hstands : ∀ u ∈ live, dead ≠ some u → (s.views u).boundWindow ∉ gone')
    (hgone : ∀ w, w ∈ gone → w ∈ gone') (hrange : ∀ w ∈ gone', w < s'.windows.next)
    (hhandles : ∀ loc y, s'.handleAt loc = some y → s.handleAt loc = some y)
    (hregistrations : ∀ loc v, s'.handleAt loc = some (.windowRegistration v) → dead ≠ some v)
    (hwindows : ∀ loc w, s'.handleAt loc = some (.window w) → w ∉ gone') :
    Tied ⟨s', live.filter fun u => dead ≠ some u, gone'⟩ := by
  have hlive : ∀ u, u ∈ live.filter (fun u => dead ≠ some u) ↔ u ∈ live ∧ dead ≠ some u := by
    intro u
    rw [List.mem_filter, decide_eq_true_eq]
  have hmem : ∀ o u, u ∈ (s'.objects o).associatedViews ↔
      u ∈ (s.objects o).associatedViews ∧ dead ≠ some u := by
    intro o u
    rw [(hobjects o).mem_iff, List.mem_filter, decide_eq_true_eq]
  have hkept : ∀ u ∈ live, dead ≠ some u →
      (s'.windows (s.views u).boundWindow).boundView = some u := fun u hu hne =>
    (hbound _ (hstands u hu hne) u).mpr ⟨h.kept u hu, hne⟩
  constructor
  · constructor
    · intro w hw u
      simp only [hviews, hlive]
      rw [hbound w hw u, h.bound w (fun hg => hw (hgone w hg)) u]
      exact and_right_comm
    · intro u hu
      simp only [hviews]
      exact hkept u ((hlive u).mp hu).1 ((hlive u).mp hu).2
    · intro u hu o ho
      obtain ⟨hu, hne⟩ := (hlive u).mp hu
      simp only [hviews] at ho
      rw [(hobjects o).count_eq, List.count_filter (by simpa using hne)]
      exact h.once u hu o ho
    · intro u hu o hmem'
      obtain ⟨hmem', hne⟩ := (hmem o u).mp hmem'
      have hno : u ∉ live := fun hl => hu ((hlive u).mpr ⟨hl, hne⟩)
      exact h.dead u hno o hmem'
  · intro u hu
    simp only [hviews]
    exact hstands u ((hlive u).mp hu).1 ((hlive u).mp hu).2
  · intro o u hu
    simp only [hviews]
    exact h.listed o u ((hmem o u).mp hu).1
  · intro u hu
    simp only [hviews]
    exact h.liveRange u ((hlive u).mp hu).1
  · exact hrange
  · exact hwindows
  · intro loc u hl
    exact (hlive u).mpr ⟨h.registrations loc u (hhandles loc _ hl), hregistrations loc u hl⟩
  · intro loc u hl
    simp only [hviews]
    exact h.views loc u (hhandles loc _ hl)
  · intro loc loc' z hz hl hl'
    exact h.single loc loc' z hz (hhandles loc z hl) (hhandles loc' z hl')

end Tied

end Smos.RootServer
