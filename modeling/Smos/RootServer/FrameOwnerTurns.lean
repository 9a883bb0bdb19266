/-
Smos.RootServer.FrameOwnerTurns — frames have one owner in every run.

`Fewer` says that a change gives nothing to a new place: what a place keeps
afterwards it kept before. All turns are of this kind, but for the two that
make an object for a place, `ObjCreate` and `ConnPublish`. Turns that touch no
frame keep the custody with it (`Owned.rests`); the others take frames into an
object, or give back what one owner has.

ObjDestroy runs over device and contiguous objects too, whose references are
not theirs. The runs here leave those objects alone.
-/
import Smos.RootServer.FrameOwners

namespace Smos.RootServer

open Smos.Base

/-! ## What keeps an owner -/

/-- Where an owner is kept. -/
inductive Place where
  | handle (loc : HandleLoc)
  | initial (p : Nat) (w : WindowRef)
  | ring (srv : ServerRef)
  | cell (pid : Pid)

namespace State

/-- The owner a place keeps: an object by its handle, by an initial window or as a ring, a
process by its entry in the process table. -/
def keeps (s : State) : Place → Option FrameOwner
  | .handle loc =>
    match s.handleAt loc with
    | some (.object o) => some (.object o)
    | _ => none
  | .initial p w =>
    if w ∈ s.initialOf p then
      ((s.windows w).boundView.bind fun v => (s.views v).boundObject).map .object
    else none
  | .ring srv =>
    if srv < s.servers.next then
      (s.views (s.servers srv).ntfnBufferView).boundObject.map .object
    else none
  | .cell pid =>
    match s.procs pid with
    | some p =>
      match s.procCells p with
      | .activeProcess _ => some (.process p)
      | .zombieProcess _ => none
    | none => none

/-- Some place keeps the owner, and its frames are frames of the table. -/
def Kept (s : State) (i : FrameOwner) : Prop := (∃ x, s.keeps x = some i) ∧ s.Ordinary i

variable {s : State} {i : FrameOwner}

theorem keeps_handle {loc : HandleLoc} :
    s.keeps (.handle loc) = some i ↔ ∃ o, s.handleAt loc = some (.object o) ∧ .object o = i := by
  unfold keeps
  cases hl : s.handleAt loc with
  | none => simp [hl]
  | some x => cases x <;> simp [hl]

theorem keeps_initial {p : Nat} {w : WindowRef} :
    s.keeps (.initial p w) = some i ↔ w ∈ s.initialOf p ∧ ∃ v o,
      (s.windows w).boundView = some v ∧ (s.views v).boundObject = some o ∧ .object o = i := by
  unfold keeps
  by_cases hw : w ∈ s.initialOf p
  · simp only [hw, if_true, true_and, Option.map_eq_some_iff, Option.bind_eq_some_iff]
    constructor
    · rintro ⟨o, ⟨v, hv, ho⟩, hi⟩
      exact ⟨v, o, hv, ho, hi⟩
    · rintro ⟨v, o, hv, ho, hi⟩
      exact ⟨o, ⟨v, hv, ho⟩, hi⟩
  · simp [hw]

theorem keeps_ring {srv : ServerRef} :
    s.keeps (.ring srv) = some i ↔ srv < s.servers.next ∧ ∃ o,
      (s.views (s.servers srv).ntfnBufferView).boundObject = some o ∧ .object o = i := by
  unfold keeps
  by_cases hsrv : srv < s.servers.next
  · simp [hsrv]
  · simp [hsrv]

theorem keeps_cell {pid : Pid} :
    s.keeps (.cell pid) = some i ↔ ∃ p u, s.procs pid = some p ∧
      s.procCells p = .activeProcess u ∧ .process p = i := by
  unfold keeps
  cases hp : s.procs pid with
  | none => simp [hp]
  | some p =>
    cases hc : s.procCells p with
    | activeProcess u => simp [hp, hc]
    | zombieProcess pid => simp [hp, hc]

end State

/-- An owner is kept by one place, and what is kept is where it should be. -/
structure Places (s : State) : Prop where
  one : ∀ x y i, s.keeps x = some i → s.keeps y = some i → x = y
  apart : ∀ loc w, s.handleAt loc = some (.window w) → ∀ p, w ∉ s.initialOf p
  initialNodup : ∀ p, (s.initialOf p).Nodup
  initialOrdinary : ∀ p w o, s.keeps (.initial p w) = some (.object o) → (s.objects o).Ordinary
  ringViews : ∀ srv < s.servers.next, (s.servers srv).ntfnBufferView < s.views.next
  pids : ∀ pid p u, s.procs pid = some p → s.procCells p = .activeProcess u → u.pid = pid

/-- No place keeps what it did not keep before. -/
structure Fewer (s s' : State) : Prop where
  objects : ∀ loc o, s'.handleAt loc = some (.object o) → s.handleAt loc = some (.object o)
  windows : ∀ loc w, s'.handleAt loc = some (.window w) →
    s.handleAt loc = some (.window w) ∨ ∀ p, w ∉ s'.initialOf p
  initial : ∀ p, (s'.initialOf p).Sublist (s.initialOf p)
  boundView : ∀ p, ∀ w ∈ s'.initialOf p, ∀ v, (s'.windows w).boundView = some v →
    (s.windows w).boundView = some v
  boundObject : ∀ v < s.views.next, (s'.views v).boundObject = (s.views v).boundObject
  rings : ∀ srv < s'.servers.next, srv < s.servers.next ∧
    (s'.servers srv).ntfnBufferView = (s.servers srv).ntfnBufferView
  cells : ∀ p u, s'.procCells p = .activeProcess u → ∃ u₀, s.procCells p = .activeProcess u₀ ∧
    u₀.pid = u.pid ∧ u₀.ipcBuffer = u.ipcBuffer ∧ u₀.sharedBuffer = u.sharedBuffer
  procs : ∀ pid p u, s'.procs pid = some p → s'.procCells p = .activeProcess u →
    s.procs pid = some p
  attributes : ∀ o < s.objects.next, (s'.objects o).attributes = (s.objects o).attributes
  viewsNext : s.views.next ≤ s'.views.next
  objectsNext : s.objects.next ≤ s'.objects.next

/-- The frames have one owner each. -/
structure Owned (s : State) : Prop where
  places : Places s
  owning : Owning s.Kept s

/-- What a place keeps has been made. -/
theorem Sane.keeps_lt {s : State} (hs : Sane s) {x : Place} {o : ObjectRef}
    (h : s.keeps x = some (.object o)) : o < s.objects.next := by
  cases x with
  | handle loc =>
    obtain ⟨o', hl, hi⟩ := State.keeps_handle.mp h
    cases hi
    exact hs.handles loc _ hl
  | initial p w =>
    obtain ⟨-, v, o', -, ho, hi⟩ := State.keeps_initial.mp h
    cases hi
    exact hs.boundObject v o ho
  | ring srv =>
    obtain ⟨-, o', ho, hi⟩ := State.keeps_ring.mp h
    cases hi
    exact hs.boundObject _ o ho
  | cell pid =>
    obtain ⟨p, u, -, -, hi⟩ := State.keeps_cell.mp h
    cases hi

namespace Fewer

variable {s s' s₁ : State} {p : Nat}

protected theorem refl (s : State) : Fewer s s where
  objects _ _ h := h
  windows _ _ h := .inl h
  initial _ := .refl _
  boundView _ _ _ _ h := h
  boundObject _ _ := rfl
  rings _ h := ⟨h, rfl⟩
  cells _ u h := ⟨u, h, rfl, rfl, rfl⟩
  procs _ _ _ h _ := h
  attributes _ _ := rfl
  viewsNext := Nat.le_refl _
  objectsNext := Nat.le_refl _

protected theorem trans (h : Fewer s s₁) (h' : Fewer s₁ s') : Fewer s s' where
  objects loc o hl := h.objects loc o (h'.objects loc o hl)
  windows loc w hl := by
    rcases h'.windows loc w hl with hl | hno
    · rcases h.windows loc w hl with hl | hno
      · exact .inl hl
      · exact .inr fun p hw => hno p ((h'.initial p).subset hw)
    · exact .inr hno
  initial p := (h'.initial p).trans (h.initial p)
  boundView p w hw v hv :=
    h.boundView p w ((h'.initial p).subset hw) v (h'.boundView p w hw v hv)
  boundObject v hv :=
    (h'.boundObject v (Nat.lt_of_lt_of_le hv h.viewsNext)).trans (h.boundObject v hv)
  rings srv hsrv := by
    obtain ⟨hsrv, hview⟩ := h'.rings srv hsrv
    obtain ⟨hsrv, hview'⟩ := h.rings srv hsrv
    exact ⟨hsrv, hview.trans hview'⟩
  cells p u hu := by
    obtain ⟨u₁, hu₁, hpid, hipc, hshared⟩ := h'.cells p u hu
    obtain ⟨u₀, hu₀, hpid', hipc', hshared'⟩ := h.cells p u₁ hu₁
    exact ⟨u₀, hu₀, hpid'.trans hpid, hipc'.trans hipc, hshared'.trans hshared⟩
  procs pid p u hp hu := by
    obtain ⟨u₁, hu₁, -⟩ := h'.cells p u hu
    exact h.procs pid p u₁ (h'.procs pid p u hp hu) hu₁
  attributes o ho :=
    (h'.attributes o (Nat.lt_of_lt_of_le ho h.objectsNext)).trans (h.attributes o ho)
  viewsNext := h.viewsNext.trans h'.viewsNext
  objectsNext := h.objectsNext.trans h'.objectsNext

/-- A place keeps no more than it did. -/
theorem keeps (h : Fewer s s') (hs : Sane s) (hp : Places s) {x : Place} {i : FrameOwner}
    (hx : s'.keeps x = some i) : s.keeps x = some i := by
  cases x with
  | handle loc =>
    obtain ⟨o, hl, hi⟩ := State.keeps_handle.mp hx
    exact State.keeps_handle.mpr ⟨o, h.objects loc o hl, hi⟩
  | initial p w =>
    obtain ⟨hw, v, o, hv, ho, hi⟩ := State.keeps_initial.mp hx
    have hv' := h.boundView p w hw v hv
    rw [h.boundObject v (hs.boundView w v hv')] at ho
    exact State.keeps_initial.mpr ⟨(h.initial p).subset hw, v, o, hv', ho, hi⟩
  | ring srv =>
    obtain ⟨hsrv, o, ho, hi⟩ := State.keeps_ring.mp hx
    obtain ⟨hsrv', hview⟩ := h.rings srv hsrv
    rw [hview, h.boundObject _ (hp.ringViews srv hsrv')] at ho
    exact State.keeps_ring.mpr ⟨hsrv', o, ho, hi⟩
  | cell pid =>
    obtain ⟨p, u, hpid, hu, hi⟩ := State.keeps_cell.mp hx
    obtain ⟨u₀, hu₀, -⟩ := h.cells p u hu
    exact State.keeps_cell.mpr ⟨p, u₀, h.procs pid p u hpid hu, hu₀, hi⟩

theorem ordinary (h : Fewer s s') {o : ObjectRef} (ho : o < s.objects.next) :
    (s'.objects o).Ordinary ↔ (s.objects o).Ordinary := by
  unfold AnonymousMemoryObject.Ordinary
  rw [h.attributes o ho]

/-- Nothing is kept that was not kept before. -/
theorem kept (h : Fewer s s') (hs : Sane s) (hp : Places s) {i : FrameOwner} (hi : s'.Kept i) :
    s.Kept i := by
  obtain ⟨⟨x, hx⟩, hord⟩ := hi
  have hx' := h.keeps hs hp hx
  refine ⟨⟨x, hx'⟩, ?_⟩
  cases i with
  | object o => exact (h.ordinary (hs.keeps_lt hx')).mp hord
  | process p => trivial

/-- Fewer places can only be further apart. -/
theorem places (h : Fewer s s') (hs : Sane s) (hp : Places s) : Places s' where
  one x y i hx hy := hp.one x y i (h.keeps hs hp hx) (h.keeps hs hp hy)
  apart loc w hl p hw := by
    rcases h.windows loc w hl with hl | hno
    · exact hp.apart loc w hl p ((h.initial p).subset hw)
    · exact hno p hw
  initialNodup p := (h.initial p).nodup (hp.initialNodup p)
  initialOrdinary p w o hx := by
    have hx' := h.keeps hs hp hx
    exact (h.ordinary (hs.keeps_lt hx')).mpr (hp.initialOrdinary p w o hx')
  ringViews srv hsrv := by
    obtain ⟨hsrv', hview⟩ := h.rings srv hsrv
    rw [hview]
    exact Nat.lt_of_lt_of_le (hp.ringViews srv hsrv') h.viewsNext
  pids pid p u hpid hu := by
    obtain ⟨u₀, hu₀, heq, -⟩ := h.cells p u hu
    exact heq ▸ hp.pids pid p u₀ (h.procs pid p u hpid hu) hu₀

/-! ### Changes that keep less -/

/-- Where the links are the same and the rings are, so is what the places keep. -/
theorem sameLinks (h : SameLinks s s') (hnext : s'.servers.next = s.servers.next)
    (hrings : ∀ srv, (s'.servers srv).ntfnBufferView = (s.servers srv).ntfnBufferView) :
    Fewer s s' where
  objects loc _ hl := h.handleAt loc ▸ hl
  windows loc _ hl := .inl (h.handleAt loc ▸ hl)
  initial p := h.initialOf p ▸ .refl _
  boundView _ _ _ _ hv := h.windows ▸ hv
  boundObject v _ := h.boundObject v
  rings srv hsrv := ⟨hnext ▸ hsrv, hrings srv⟩
  cells _ u hu := ⟨u, h.procCells ▸ hu, rfl, rfl, rfl⟩
  procs _ _ _ hp _ := h.procs ▸ hp
  attributes o _ := h.object_field AnonymousMemoryObject.attributes (fun _ => rfl) o
  viewsNext := h.viewsNext ▸ Nat.le_refl _
  objectsNext := h.objectsNext ▸ Nat.le_refl _

theorem withRes (s : State) (r : Res) : Fewer s { s with res := r } :=
  sameLinks (.withRes s r) rfl fun _ => rfl

/-- The process keeps its pid and its buffers, and gets no handles and no initial windows. -/
theorem updProc (s : State) (p : Nat) {f : UserProcess → UserProcess}
    (hf : ∀ u, (f u).pid = u.pid ∧ (f u).ipcBuffer = u.ipcBuffer ∧
      (f u).sharedBuffer = u.sharedBuffer)
    (ht : ∀ u idx x, (f u).handleTable idx = some x → u.handleTable idx = some x)
    (hi : ∀ u, (f u).initialWindows.Sublist u.initialWindows) : Fewer s (s.updProc p f) where
  objects _ _ hl := Sane.handleAt_updProc_sub ht hl
  windows _ _ hl := .inl (Sane.handleAt_updProc_sub ht hl)
  initial c := by
    simp only [State.initialOf, State.procCells_updProc]
    by_cases hc : c = p
    · subst hc
      simp only [if_true]
      cases s.procCells c with
      | activeProcess u => exact hi u
      | zombieProcess pid => exact .refl _
    · simp [hc]
  boundView _ _ _ _ hv := hv
  boundObject _ _ := rfl
  rings _ hsrv := ⟨hsrv, rfl⟩
  cells c u hu := by
    simp only [State.procCells_updProc] at hu
    by_cases hc : c = p
    · subst hc
      simp only [if_true] at hu
      cases hp : s.procCells c with
      | zombieProcess pid => simp [hp, ProcessType.map] at hu
      | activeProcess u₀ =>
        simp only [hp, ProcessType.map, ProcessType.activeProcess.injEq] at hu
        subst hu
        obtain ⟨hpid, hipc, hshared⟩ := hf u₀
        exact ⟨u₀, rfl, hpid.symm, hipc.symm, hshared.symm⟩
    · simp only [hc, if_false] at hu
      exact ⟨u, hu, rfl, rfl, rfl⟩
  procs _ _ _ hp _ := hp
  attributes _ _ := rfl
  viewsNext := Nat.le_refl _
  objectsNext := Nat.le_refl _

theorem cells_setHandleAt {loc : HandleLoc} {x : Option RootServerResource} {c : Nat}
    {u : UserProcess} (hu : (s.setHandleAt loc x).procCells c = .activeProcess u) :
    ∃ u₀, s.procCells c = .activeProcess u₀ ∧ u₀.pid = u.pid ∧ u₀.ipcBuffer = u.ipcBuffer ∧
      u₀.sharedBuffer = u.sharedBuffer := by
  cases loc with
  | cap idx => exact ⟨u, hu, rfl, rfl, rfl⟩
  | table p idx =>
    simp only [State.setHandleAt, State.procCells_updProc] at hu
    by_cases hc : c = p
    · subst hc
      simp only [if_true] at hu
      cases hp : s.procCells c with
      | zombieProcess pid => simp [hp, ProcessType.map] at hu
      | activeProcess u₀ =>
        simp only [hp, ProcessType.map, ProcessType.activeProcess.injEq] at hu
        subst hu
        exact ⟨u₀, rfl, rfl, rfl, rfl⟩
    · simp only [hc, if_false] at hu
      exact ⟨u, hu, rfl, rfl, rfl⟩

/-- A handle is cleared, or of something that is no object and no initial window. -/
theorem setHandleAt {loc : HandleLoc} (hloc : s.ValidLoc loc) {x : Option RootServerResource}
    (ho : ∀ o, x ≠ some (.object o)) (hw : ∀ w, x = some (.window w) → ∀ p, w ∉ s.initialOf p) :
    Fewer s (s.setHandleAt loc x) where
  objects loc' o hl := by
    rw [State.handleAt_setHandleAt hloc] at hl
    split at hl
    · exact absurd hl (ho o)
    · exact hl
  windows loc' w hl := by
    rw [State.handleAt_setHandleAt hloc] at hl
    split at hl
    · refine .inr fun p => ?_
      rw [State.initialOf_setHandleAt]
      exact hw w hl p
    · exact .inl hl
  initial p := by rw [State.initialOf_setHandleAt]
  boundView _ _ _ _ hv := by rwa [State.setHandleAt_windows] at hv
  boundObject _ _ := by rw [State.setHandleAt_views]
  rings srv hsrv := by
    rw [State.setHandleAt_servers] at hsrv ⊢
    exact ⟨hsrv, rfl⟩
  cells _ _ hu := cells_setHandleAt hu
  procs _ _ _ hp _ := by rwa [State.setHandleAt_procs] at hp
  attributes _ _ := by rw [State.setHandleAt_objects]
  viewsNext := by rw [State.setHandleAt_views]
  objectsNext := by rw [State.setHandleAt_objects]

/-- New windows, views and objects, and windows bound anew that are no initial windows. -/
theorem grown (hcells : s'.procCells = s.procCells) (hprocs : s'.procs = s.procs)
    (hcaps : s'.handleCaps = s.handleCaps) (hservers : s'.servers = s.servers)
    (hbound : ∀ p, ∀ w ∈ s.initialOf p, ∀ v, (s'.windows w).boundView = some v →
      (s.windows w).boundView = some v)
    (hviews : ∀ v < s.views.next, (s'.views v).boundObject = (s.views v).boundObject)
    (hobjects : ∀ o < s.objects.next, (s'.objects o).attributes = (s.objects o).attributes)
    (hv : s.views.next ≤ s'.views.next)
    (ho : s.objects.next ≤ s'.objects.next) : Fewer s s' where
  objects loc _ hl := State.handleAt_congr hcells hcaps loc ▸ hl
  windows loc _ hl := .inl (State.handleAt_congr hcells hcaps loc ▸ hl)
  initial p := by
    simp only [State.initialOf, hcells]
    exact .refl _
  boundView p w hmem v hv := by
    simp only [State.initialOf, hcells] at hmem
    exact hbound p w hmem v hv
  boundObject := hviews
  rings srv hsrv := by
    rw [hservers] at hsrv ⊢
    exact ⟨hsrv, rfl⟩
  cells _ u hu := ⟨u, hcells ▸ hu, rfl, rfl, rfl⟩
  procs _ _ _ hp _ := hprocs ▸ hp
  attributes := hobjects
  viewsNext := hv
  objectsNext := ho

end Fewer

namespace Owned

variable {s s' : State}

/-- The places keep less, and the custody is right about what they kept. -/
theorem fewer (h : Owned s) (hs : Sane s) (hf : Fewer s s') (ho : Owning s.Kept s') : Owned s' :=
  ⟨hf.places hs h.places, ho.less fun _ hi => hf.kept hs h.places hi⟩

/-- No frame changes hands. -/
theorem rests (h : Owned s) (hs : Sane s) (hf : Fewer s s')
    (ht : SameFrames s.res.frameTable s'.res.frameTable)
    (hframes : ∀ o < s.objects.next, (s'.objects o).frames = (s.objects o).frames) : Owned s' := by
  refine ⟨hf.places hs h.places, h.owning.still ht (fun _ hi => hf.kept hs h.places hi) ?_⟩
  intro i hi
  obtain ⟨⟨x, hx⟩, -⟩ := hi
  cases i with
  | object o =>
    have ho := hs.keeps_lt (hf.keeps hs h.places hx)
    simp only [State.frameRefs, AnonymousMemoryObject.refs, hframes o ho]
  | process p =>
    obtain ⟨pid, hpid⟩ : ∃ pid, x = .cell pid := by
      cases x with
      | cell pid => exact ⟨pid, rfl⟩
      | handle loc => exact absurd (State.keeps_handle.mp hx) (by simp)
      | initial p w => exact absurd (State.keeps_initial.mp hx) (by simp)
      | ring srv => exact absurd (State.keeps_ring.mp hx) (by simp)
    subst hpid
    obtain ⟨p', u, -, hu, heq⟩ := State.keeps_cell.mp hx
    cases heq
    obtain ⟨u₀, hu₀, -, hipc, hshared⟩ := hf.cells p u hu
    simp only [State.frameRefs, hu, hu₀, ProcessType.refs, hipc, hshared]

/-- Some owners go, each with the place that kept it. -/
theorem gone (h : Owned s) (hs : Sane s) (hf : Fewer s s') {G : FrameOwner → Prop}
    (hG : ∀ i, G i → ∃ x, s.keeps x = some i ∧ s'.keeps x ≠ some i)
    (ho : Owning (fun i => s.Kept i ∧ ¬ G i) s') : Owned s' := by
  refine ⟨hf.places hs h.places, ho.less fun i hi => ?_⟩
  refine ⟨hf.kept hs h.places hi, fun hgone => ?_⟩
  obtain ⟨⟨y, hy⟩, -⟩ := hi
  obtain ⟨x, hx, hno⟩ := hG i hgone
  obtain rfl := h.places.one x y i hx (hf.keeps hs h.places hy)
  exact hno hy

end Owned

/-! ## Turns that move no frame -/

namespace Fewer

variable {s s' s₁ : State} {p : Nat}

/-- A handle capability that a process notes is not in its table. -/
theorem recordCap (s : State) (p : Nat) (returnCap : Bool) (idx : Nat) :
    Fewer s (s.updProc p (RootServer.recordCap returnCap idx)) := by
  refine updProc s p ?_ ?_ ?_
  · intro u
    cases returnCap <;> exact ⟨rfl, rfl, rfl⟩
  · intro u idx' x hx
    cases returnCap <;> exact hx
  · intro u
    cases returnCap <;> exact .refl _

theorem pushWindow (s : State) (p : Nat) (w : WindowRef) :
    Fewer s (s.updProc p fun u => { u with windows := u.windows ++ [w] }) :=
  updProc s p (fun _ => ⟨rfl, rfl, rfl⟩) (fun _ _ _ hx => hx) fun _ => .refl _

theorem pushView (s : State) (p : Nat) (v : ViewRef) :
    Fewer s (s.updProc p fun u => { u with views := u.views ++ [v] }) :=
  updProc s p (fun _ => ⟨rfl, rfl, rfl⟩) (fun _ _ _ hx => hx) fun _ => .refl _

theorem dropWindow (s : State) (p : Nat) (w : WindowRef) :
    Fewer s (s.updProc p (RootServer.dropWindow w)) := by
  refine updProc s p ?_ ?_ ?_
  · intro u
    unfold RootServer.dropWindow
    split <;> exact ⟨rfl, rfl, rfl⟩
  · intro u idx x hx
    unfold RootServer.dropWindow at hx
    split at hx <;> exact hx
  · intro u
    unfold RootServer.dropWindow
    split <;> exact .refl _

/-- A handle is set at the end of a turn that leaves the processes alone till then. -/
theorem andSet (h : Fewer s s₁) (hcells : s₁.procCells = s.procCells) {loc : HandleLoc}
    (hloc : s.ValidLoc loc) {x : Option RootServerResource} (ho : ∀ o, x ≠ some (.object o))
    (hw : ∀ w, x = some (.window w) → ∀ p, w ∉ s₁.initialOf p) :
    Fewer s (s₁.setHandleAt loc x) :=
  h.trans (setHandleAt ((State.validLoc_congr hcells).mpr hloc) ho hw)

theorem andClear (h : Fewer s s₁) (hcells : s₁.procCells = s.procCells) {loc : HandleLoc}
    (hloc : s.ValidLoc loc) : Fewer s (s₁.setHandleAt loc none) :=
  h.andSet hcells hloc (by simp) (by simp)

/-- A window that is bound anew is no initial window, or bound to nothing. -/
theorem bindWindow (s : State) {w : WindowRef} {v : Option ViewRef}
    (hw : v = none ∨ ∀ p, w ∉ s.initialOf p) :
    Fewer s { s with windows := s.windows.update w (Window.bind v) } := by
  refine grown rfl rfl rfl rfl ?_ (fun _ _ => rfl) (fun _ _ => rfl) (Nat.le_refl _) (Nat.le_refl _)
  intro p w' hmem x hx
  by_cases heq : w' = w
  · subst heq
    simp only [Heap.update_self, Window.bind] at hx
    rcases hw with rfl | hno
    · cases hx
    · exact absurd hmem (hno p)
  · simpa only [Heap.update_of_ne _ heq] using hx

theorem allocView (s : State) (x : View) : Fewer s { s with views := s.views.alloc x } := by
  refine grown rfl rfl rfl rfl (fun _ _ _ _ h => h) ?_ (fun _ _ => rfl) (Nat.le_succ _)
    (Nat.le_refl _)
  exact fun v hv => congrArg View.boundObject (s.views.alloc_of_lt hv x)

/-- A new window is not an initial one. -/
theorem allocWindow (hs : Sane s) (x : Window) :
    Fewer s { s with windows := s.windows.alloc x } := by
  refine grown rfl rfl rfl rfl ?_ (fun _ _ => rfl) (fun _ _ => rfl) (Nat.le_refl _) (Nat.le_refl _)
  intro p w hmem v hv
  have hlt := hs.procWindows p w (List.mem_append_left _ hmem)
  simpa only [Heap.alloc_of_lt _ hlt] using hv

theorem allocObject (s : State) (x : AnonymousMemoryObject) :
    Fewer s { s with objects := s.objects.alloc x } := by
  refine grown rfl rfl rfl rfl (fun _ _ _ _ h => h) (fun _ _ => rfl) ?_ (Nat.le_refl _)
    (Nat.le_succ _)
  exact fun o ho => congrArg AnonymousMemoryObject.attributes (s.objects.alloc_of_lt ho x)

theorem updObject (s : State) (o : ObjectRef)
    {f : AnonymousMemoryObject → AnonymousMemoryObject}
    (hf : (f (s.objects o)).attributes = (s.objects o).attributes) :
    Fewer s { s with objects := s.objects.update o f } :=
  grown rfl rfl rfl rfl (fun _ _ _ _ h => h) (fun _ _ => rfl)
    (fun o' _ => s.objects.update_preserves AnonymousMemoryObject.attributes hf o') (Nat.le_refl _)
    (Nat.le_refl _)

theorem linkView (s : State) {w : WindowRef} (hw : ∀ p, w ∉ s.initialOf p) (o : ObjectRef)
    (x : View) : Fewer s (s.linkView w o x) := by
  have h₁ := allocView s x
  have h₂ := h₁.trans (bindWindow { s with views := s.views.alloc x } (v := some s.views.next)
    (.inr hw))
  exact h₂.trans (updObject _ o rfl)

theorem updServer (s : State) (srv : ServerRef) {f : Server → Server}
    (hf : (f (s.servers srv)).ntfnBufferView = (s.servers srv).ntfnBufferView) :
    Fewer s { s with servers := s.servers.update srv f } :=
  sameLinks (.withLists s _ s.connections s.irqs) rfl (s.servers.update_preserves Server.ntfnBufferView hf)

/-- A message in a ring moves no frame. -/
theorem notified {v : ViewRef} (h : Notified v s s') : Fewer s s' := by
  unfold Notified at h
  split at h
  · subst h
    exact updServer s _ rfl
  · subst h
    exact .refl _

/-- An unbound window keeps no object. -/
theorem dissociated {v : ViewRef} {o : ObjectRef} {pos : Nat} (h : Dissociated v o pos s s') :
    Fewer s s' := by
  rw [h.eq]
  exact updObject s o rfl

theorem windowDestroyed {w : WindowRef} {destroyView : Bool}
    (h : WindowDestroyed w destroyView s s') : Fewer s s' := by
  cases h with
  | unbound => exact .refl s
  | kept v s' _ _ hn => exact notified hn
  | destroyed v o pos s₁ s₂ r' _ _ hn hdis _ =>
    exact ((notified hn).trans (dissociated hdis)).trans (withRes s₂ r')

theorem unviewed {v : ViewRef} {o : ObjectRef} {pos : Nat} {r' : Res}
    (h : Unviewed v o pos r' s s') : Fewer s s' := by
  have h₁ := (withRes s r').trans
    (bindWindow { s with res := r' } (w := (s.views v).boundWindow) (.inl rfl))
  exact h₁.trans (dissociated h.dissociated)

end Fewer

/-- The frames of objects stay when windows and views are taken apart. -/
theorem Dissociated.frames {v : ViewRef} {o : ObjectRef} {pos : Nat} {s s' : State}
    (h : Dissociated v o pos s s') (o' : ObjectRef) :
    (s'.objects o').frames = (s.objects o').frames := by
  have heq := h.eq
  subst heq
  exact s.objects.update_preserves AnonymousMemoryObject.frames (r := o)
    (f := fun object => { object with
      associatedViews := swapRemove object.associatedViews pos }) rfl o'

/-- The object of a window's view keeps its frames when the window goes. -/
theorem WindowDestroyed.frames {w : WindowRef} {destroyView : Bool} {s s' : State}
    (h : WindowDestroyed w destroyView s s') (o : ObjectRef) :
    (s'.objects o).frames = (s.objects o).frames := by
  cases h with
  | unbound => rfl
  | kept v s' _ _ hn => rw [hn.frame]
  | destroyed v o' pos s₁ s₂ r' _ _ hn hdis _ =>
    have hobjects := hdis.frames o
    rw [hn.frame] at hobjects
    exact hobjects

theorem Unviewed.frames {v : ViewRef} {o : ObjectRef} {pos : Nat} {r' : Res} {s s' : State}
    (h : Unviewed v o pos r' s s') (o' : ObjectRef) :
    (s'.objects o').frames = (s.objects o').frames := h.dissociated.frames o'

/-- Only slots are given back. -/
theorem WindowDestroyed.frameTable {w : WindowRef} {destroyView : Bool} {s s' : State}
    (h : WindowDestroyed w destroyView s s') : s'.res.frameTable = s.res.frameTable := by
  cases h with
  | unbound => rfl
  | kept v s' _ _ hn => rw [hn.frame]
  | destroyed v o' pos s₁ s₂ r' _ _ hn hdis hc => exact hc.frameTable

theorem Unviewed.frameTable {v : ViewRef} {o : ObjectRef} {pos : Nat} {r' : Res} {s s' : State}
    (h : Unviewed v o pos r' s s') : s'.res.frameTable = s.res.frameTable := by
  rw [h.dissociated.eq]
  exact h.cleaned.frameTable

namespace Owned

variable {s s' s₁ : State} {p : Nat}

/-- A new window has no view, and so no object. -/
theorem windowCreated (h : Owned s) (hs : Sane s) {args : WindowCreateArgs}
    (hc : WindowCreated p args s s') : Owned s' := by
  obtain ⟨idx, hv, -, rfl⟩ := hc.made
  have h₁ := Fewer.allocWindow hs ⟨args.baseVaddr, args.size, none⟩
  have hnew : ∀ c, s.windows.next ∉ s.initialOf c := fun c hw =>
    Nat.lt_irrefl _ (hs.procWindows c _ (List.mem_append_left _ hw))
  have h₂ := h₁.andSet rfl hv (x := some (.window s.windows.next)) (by simp) fun w hw => by
    cases hw
    exact hnew
  have h₃ := (h₂.trans (.recordCap _ p args.returnCap idx)).trans (.pushWindow _ p s.windows.next)
  refine h.rests hs h₃ (.of_eq ?_) fun o _ => ?_
  · simp only [State.giveHandle, State.updProc_res, State.setHandleAt_res]
  · simp only [State.giveHandle, State.updProc_objects, State.setHandleAt_objects]

/-- Its handle goes with a window, and the object stays where it is. -/
theorem windowRemoved (h : Owned s) (hs : Sane s) {hndl : HandleArg} {loc : HandleLoc}
    {w : WindowRef} (hr : WindowRemoved p hndl loc w s₁ s s') : Owned s' := by
  have hvalid : s₁.ValidLoc loc :=
    (State.validLoc_congr (s := s) (by rw [hr.destroyed.frame])).mpr hr.valid
  have h₁ := ((Fewer.windowDestroyed hr.destroyed).trans (.dropWindow s₁ p w)).trans
    ((Fewer.refl _).andClear rfl ((State.validLoc_updProc _ loc).mpr hvalid))
  rw [hr.eq]
  refine h.rests hs h₁ (.of_eq ?_) fun o _ => ?_
  · rw [State.setHandleAt_res, State.updProc_res]
    exact hr.destroyed.frameTable
  · rw [State.setHandleAt_objects, State.updProc_objects]
    exact hr.destroyed.frames o

/-- The view of a registration has no object. -/
theorem windowRegistered (h : Owned s) (hs : Sane s) {args : WindowRegisterArgs}
    {srv : ServerRef} {w : WindowRef} {idx : Nat}
    (hr : WindowRegistered p args srv w idx s s') : Owned s' := by
  have h₁ := (Fewer.allocView s
    (View.new w none (some (srv, args.clientId, args.reference)) .all 0 0)).trans
    (.bindWindow _ (v := some s.views.next) (.inr (h.places.apart _ w hr.window)))
  have h₂ := h₁.andSet rfl hr.valid (x := some (.windowRegistration s.views.next)) (by simp)
    (by simp)
  rw [hr.eq]
  refine h.rests hs h₂ (.of_eq ?_) fun o _ => ?_
  · rw [State.setHandleAt_res]
  · rw [State.setHandleAt_objects]

theorem windowDeregistered (h : Owned s) (hs : Sane s) {hndl : Nat} {v : ViewRef} {r' : Res}
    (hd : WindowDeregistered p hndl v r' s s') : Owned s' := by
  have h₁ := ((Fewer.withRes s r').trans (.bindWindow { s with res := r' }
    (w := (s.views v).boundWindow) (.inl rfl))).andClear rfl hd.valid
  rw [hd.eq]
  refine h.rests hs h₁ (.of_eq ?_) fun o _ => ?_
  · rw [State.setHandleAt_res]
    exact hd.cleaned.frameTable
  · rw [State.setHandleAt_objects]

theorem linkView_frames (s : State) (w : WindowRef) (o : ObjectRef) (x : View) (o' : ObjectRef) :
    ((s.linkView w o x).objects o').frames = (s.objects o').frames :=
  s.objects.update_preserves AnonymousMemoryObject.frames (r := o)
    (f := fun object => { object with
      associatedViews := object.associatedViews ++ [s.views.next] }) rfl o'

theorem viewAccepted (h : Owned s) {args : ViewArgs} {w : WindowRef} {o : ObjectRef}
    (ha : ViewAccepted p args w o s) : Fewer s (s.linkView w o (args.newView w o)) := by
  obtain ⟨loc, -, hw⟩ := ha.window
  exact .linkView s (h.places.apart loc w hw) o _

/-- An object is not owned by the views it has. -/
theorem viewMade (h : Owned s) (hs : Sane s) {args : ViewArgs} {w : WindowRef} {o : ObjectRef}
    {idx : Nat} (hm : ViewMade p args w o idx s s') : Owned s' := by
  have h₁ := ((h.viewAccepted hm.accepted).andSet rfl hm.valid
    (x := some (.view s.views.next)) (by simp) (by simp)).trans (.pushView _ p s.views.next)
  rw [hm.eq]
  refine h.rests hs h₁ (.of_eq ?_) fun o' _ => ?_
  · rw [State.updProc_res, State.setHandleAt_res]
    rfl
  · rw [State.updProc_objects, State.setHandleAt_objects]
    exact linkView_frames s w o _ o'

theorem viewLeft (h : Owned s) (hs : Sane s) {args : ViewArgs} {w : WindowRef} {o : ObjectRef}
    (ha : ViewAccepted p args w o s) : Owned (s.linkView w o (args.newView w o)) :=
  h.rests hs (h.viewAccepted ha) (.of_eq rfl) fun o' _ => linkView_frames s w o _ o'

theorem unviewed (h : Owned s) (hs : Sane s) {v : ViewRef} {o : ObjectRef} {pos hndl : Nat}
    {r' : Res} (hv : s.ValidLoc (.table p hndl)) (hu : Unviewed v o pos r' s s₁) :
    Owned (s₁.setHandleAt (.table p hndl) none) := by
  have h₁ := (Fewer.unviewed hu).andClear (SameShape.unviewed hu).procCells hv
  refine h.rests hs h₁ (.of_eq ?_) fun o' _ => ?_
  · rw [State.setHandleAt_res]
    exact hu.frameTable
  · rw [State.setHandleAt_objects]
    exact hu.frames o'

end Owned

end Smos.RootServer
