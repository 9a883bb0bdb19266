/-
Smos.RootServer.FrameOwnerRuns — giving frames back, and every run.

`ObjDestroy` and `LoadComplete` walk over the tables of what they end. With
the turns that take frames each keeps `Owned`, so in every run from boot the
two lists of the frame table are all frames there are, a frame that some owner
has is given out, to this owner alone, and destroying an object gives back
exactly its frames.
-/
import Smos.RootServer.FrameOwnerMoves

namespace Smos.RootServer

open Smos.Base

variable {s s' s₁ s₂ : State} {p : Nat}

/-! ## What ends -/

/-- The object of the view that a window is bound to. -/
def State.objectOf (s : State) (w : WindowRef) : Option ObjectRef :=
  (s.windows w).boundView.bind fun v => (s.views v).boundObject

/-- The objects of initial windows are given back one after the other. -/
theorem Owning.allUnloaded {ws : List WindowRef} (hu : AllUnloaded ws s s₁) :
    ∀ {live : FrameOwner → Prop}, Owning live s → ws.Nodup →
      (∀ w ∈ ws, ∀ o, s.objectOf w = some o → live (.object o)) →
      (∀ w ∈ ws, ∀ w' ∈ ws, ∀ o, s.objectOf w = some o → s.objectOf w' = some o → w = w') →
      Owning (fun i => live i ∧ ¬ ∃ w ∈ ws, ∃ o, s.objectOf w = some o ∧ i = .object o) s₁ := by
  induction hu with
  | nil s => exact fun h _ _ _ => h.less fun i hi => hi.1
  | @cons w ws s s₁ s₂ v o r₁ r' first _ ih =>
    intro live h hn hlive hone
    obtain ⟨hw, hws⟩ := List.nodup_cons.mp hn
    have ho : s.objectOf w = some o := by
      simp only [State.objectOf, first.bound, Option.bind_some, first.object]
    have h₁ := (h.freed (hlive w List.mem_cons_self o ho) first.freed).cleaned first.cleaned
    have hsame : ∀ w', s₁.objectOf w' = s.objectOf w' := by
      rw [first.eq]
      exact fun _ => rfl
    rw [← first.eq] at h₁
    have h₂ := ih h₁ hws ?_ ?_
    · refine h₂.less fun i hi => ⟨⟨hi.1, ?_⟩, ?_⟩
      · rintro rfl
        exact hi.2 ⟨w, List.mem_cons_self, o, ho, rfl⟩
      · rintro ⟨w', hw', o', ho', rfl⟩
        rw [hsame] at ho'
        exact hi.2 ⟨w', List.mem_cons_of_mem w hw', o', ho', rfl⟩
    · intro w' hw' o' ho'
      rw [hsame] at ho'
      refine ⟨hlive w' (List.mem_cons_of_mem w hw') o' ho', fun heq => ?_⟩
      cases heq
      obtain rfl := hone w List.mem_cons_self w' (List.mem_cons_of_mem w hw') o ho ho'
      exact hw hw'
    · intro w₁ h₁ w₂ h₂ o' ho₁ ho₂
      rw [hsame] at ho₁ ho₂
      exact hone w₁ (List.mem_cons_of_mem w h₁) w₂ (List.mem_cons_of_mem w h₂) o' ho₁ ho₂

theorem AllUnloaded.servers {ws : List WindowRef} (h : AllUnloaded ws s s') :
    s'.servers = s.servers := by
  induction h with
  | nil s => rfl
  | cons first _ ih => rw [ih, first.eq]

namespace Owned

theorem objDestroyed (h : Owned s) (hs : Sane s) {hndl : HandleArg} {loc : HandleLoc}
    {o : ObjectRef} {r' : Res} (hd : ObjDestroyed p hndl loc o r' s s')
    (hord : (s.objects o).Ordinary) : Owned s' := by
  have hplace : s.keeps (.handle loc) = some (.object o) :=
    State.keeps_handle.mpr ⟨o, hd.object, rfl⟩
  have h₁ := h.owning.freed ⟨⟨_, hplace⟩, hord⟩ hd.freed
  have hvalid : State.ValidLoc { s with res := r' } loc :=
    (State.validLoc_congr (s := s) rfl).mpr hd.valid
  rw [hd.eq]
  refine h.gone hs ((Fewer.withRes s r').andClear rfl hd.valid) (G := fun i => i = .object o) ?_ ?_
  · intro i hi
    subst hi
    refine ⟨.handle loc, hplace, fun hx => ?_⟩
    obtain ⟨o', hl, -⟩ := State.keeps_handle.mp hx
    rw [State.handleAt_setHandleAt hvalid, if_pos rfl] at hl
    cases hl
  · refine h₁.still (.of_eq ?_) (fun _ hi => hi) fun i _ => frameRefs_setHandleAt _ _ i
    rw [State.setHandleAt_res]

theorem keeps_of_objectOf {w : WindowRef} {o : ObjectRef} (hw : w ∈ s.initialOf p)
    (ho : s.objectOf w = some o) : s.keeps (.initial p w) = some (.object o) := by
  obtain ⟨v, hv, ho⟩ := Option.bind_eq_some_iff.mp ho
  exact State.keeps_initial.mpr ⟨hw, v, o, hv, ho, rfl⟩

theorem loadComplete (h : Owned s) (hs : Sane s) {u : UserProcess}
    (hp : s.procCells p = .activeProcess u) (hu : AllUnloaded (s.initialOf p) s s₁) :
    Owned (s₁.updProc p fun u => { u with initialWindows := [] }) := by
  have hone : ∀ w ∈ s.initialOf p, ∀ w' ∈ s.initialOf p, ∀ o, s.objectOf w = some o →
      s.objectOf w' = some o → w = w' := by
    intro w hw w' hw' o ho ho'
    have heq := h.places.one _ _ _ (keeps_of_objectOf hw ho) (keeps_of_objectOf hw' ho')
    cases heq
    rfl
  have hlive : ∀ w ∈ s.initialOf p, ∀ o, s.objectOf w = some o → s.Kept (.object o) :=
    fun w hw o ho => ⟨⟨_, keeps_of_objectOf hw ho⟩,
      h.places.initialOrdinary p w o (keeps_of_objectOf hw ho)⟩
  have h₁ := h.owning.allUnloaded hu (h.places.initialNodup p) hlive hone
  have hlinks := SameLinks.allUnloaded hu
  have hservers := hu.servers
  have hfewer : Fewer s (s₁.updProc p fun u => { u with initialWindows := [] }) :=
    (Fewer.sameLinks hlinks (by rw [hservers]) (by rw [hservers]; exact fun _ => rfl)).trans
      (.updProc s₁ p (fun _ => ⟨rfl, rfl, rfl⟩) (fun _ _ _ hx => hx) fun _ => List.nil_sublist _)
  refine h.gone hs hfewer ?_ (h₁.updProc p (f := fun u => { u with initialWindows := [] })
    fun _ => ⟨rfl, rfl⟩)
  intro i hi
  obtain ⟨w, hw, o, ho, rfl⟩ := hi
  refine ⟨.initial p w, keeps_of_objectOf hw ho, fun hx => ?_⟩
  obtain ⟨hmem, -⟩ := State.keeps_initial.mp hx
  have hcell : s₁.procCells p = .activeProcess u := hlinks.procCells ▸ hp
  simp only [State.initialOf, State.procCells_updProc, if_true, hcell, ProcessType.map] at hmem
  cases hmem

end Owned

/-! ## Every turn -/

/-- Where a handle is of an object, its frames are frames of the table. -/
def State.NoForeign (s : State) : Option RootServerResource → Prop
  | some (.object o) => (s.objects o).Ordinary
  | _ => True

/-- The operation gives back no device and no contiguous object. -/
def SparesForeign (s : State) (op : Op) : Prop :=
  match op with
  | .objDestroy _ _ => s.NoForeign (s.named op)
  | _ => True

instance (s : State) : ∀ x : Option RootServerResource, Decidable (s.NoForeign x)
  | some (.object o) => inferInstanceAs (Decidable (s.objects o).Ordinary)
  | none | some (.window _) | some (.connRegistration _) | some (.windowRegistration _)
  | some (.irqRegistration _) | some (.view _) | some (.connection _) | some (.server _)
  | some (.process _) | some (.reply _) | some (.handleCap _) | some (.channelAuthority _ _) =>
    .isTrue trivial

instance (s : State) : ∀ op : Op, Decidable (SparesForeign s op)
  | .objDestroy pid hndl => inferInstanceAs (Decidable (s.NoForeign (s.named (.objDestroy pid hndl))))
  | .windowDestroy _ _ | .windowRegister _ _ | .windowDeregister _ _ | .pageMap _ _ | .unview _ _
  | .loadComplete _ | .windowCreate _ _ | .objCreate _ _ _ | .view _ _ | .connPublish _ _
  | .registry _ _ | .connDestroy _ _ | .processWait _ _ | .vmFault _ _ | .processExit _ _
  | .takeNotification _ | .userWrite _ _ _ => .isTrue trivial

theorem Fewer.takeNotification (s : State) (srv : ServerRef) : Fewer s { s with
    servers := s.servers.update srv fun server =>
      { server with ntfnBuffer := server.ntfnBuffer.tail } } :=
  .updServer s srv rfl

theorem Owned.turn (h : Owned s) (hs : Sane s) {op : Op} (hop : SparesForeign s op)
    (ht : Turn s op s') : Owned s' := by
  cases ht with
  | refused => exact h
  | windowCreate p u _ hc => exact h.windowCreated hs hc
  | windowDestroy p u loc w s₁ _ hr => exact h.windowRemoved hs hr
  | windowRegister p u srv w idx _ hr => exact h.windowRegistered hs hr
  | windowDeregister p u v r' _ hd => exact h.windowDeregistered hs hd
  | objCreate p u s₁ idx _ hm hv _ => exact h.objCreated hs hm hv
  | objLeft p u _ hm => exact h.objLeft hs hm
  | @objDestroy pid hndl s' p u loc o r' act hd =>
    refine h.objDestroyed hs hd ?_
    have hnamed : s.named (.objDestroy pid hndl) = some (.object o) := by
      simp only [State.named, Op.handleLoc, act.cell, Option.bind_some, hd.loc_eq, hd.object]
    simpa only [SparesForeign, State.NoForeign, hnamed] using hop
  | view p u w o idx _ hm => exact h.viewMade hs hm
  | viewLeft p u w o _ accepted => exact h.viewLeft hs accepted
  | unview p u v o pos r' s₁ _ valid _ hu => exact h.unviewed hs valid hu
  | connPublish p u f r₁ r₂ object page s₁ idx srv _ hp hp' => exact h.published hs hp hp'
  | connTried p u r' _ ht => exact h.rests hs (.withRes s r') ht.frames fun _ _ => rfl
  | connLeft p u f r₁ r₂ object page _ hp => exact h.connLeft hs hp
  | pageMap p u dst src w cap slot cs k view s₁ s₂ _ hm => exact h.pageMapped hs hm
  | loadComplete p u s₁ act hu => exact h.loadComplete hs act.proc hu
  | registry p u _ hb => exact h.entered hs hb.entered hb.quiet.frameTable
  | connDestroy p u _ hd =>
    obtain ⟨c, hres⟩ := hd.res
    exact h.entered hs hd.entered (by rw [hres])
  | processWait p u proc r' reply _ renewed => exact h.awaited hs renewed
  | @faultServed pid addr p u s₁ _ hf => exact h.faultServed hs pid hf
  | @faultLeft pid addr s' p u x s₁ r' reply _ hf _ renewed => exact h.faultLeft hs pid hf renewed
  | takeNotification srv =>
    exact h.rests hs (.takeNotification s srv) (.of_eq rfl) fun _ _ => rfl
  | userWrite p u => exact h.rests hs (.withRes s _) (.of_eq rfl) fun _ _ => rfl

/-! ## Boot -/

/-- A state after boot in which the loaded objects and the processes have frames of their own. -/
structure BootedOwning (s : State) : Prop extends Booted s where
  initialNodup : ∀ p, (s.initialOf p).Nodup
  initialApart : ∀ p p' w, w ∈ s.initialOf p → w ∈ s.initialOf p' → p = p'
  noServers : s.servers.next = 0
  pids : ∀ pid p u, s.procs pid = some p → s.procCells p = .activeProcess u → u.pid = pid
  owning : Owning s.Kept s

namespace BootedOwning

theorem keeps (h : BootedOwning s) {x : Place} {i : FrameOwner} (hx : s.keeps x = some i) :
    (∃ p w, x = .initial p w ∧ w ∈ s.initialOf p ∧ i = .object w) ∨
      ∃ pid p u, x = .cell pid ∧ s.procs pid = some p ∧ s.procCells p = .activeProcess u ∧
        i = .process p := by
  cases x with
  | handle loc =>
    obtain ⟨o, hl, -⟩ := State.keeps_handle.mp hx
    rw [h.handleAt] at hl
    cases hl
  | initial p w =>
    obtain ⟨hw, v, o, hv, ho, hi⟩ := State.keeps_initial.mp hx
    have hl := h.loaded w (h.initialOf_lt hw)
    cases hl.boundView.symm.trans hv
    cases hl.boundObject.symm.trans ho
    exact .inl ⟨p, w, rfl, hw, hi.symm⟩
  | ring srv =>
    obtain ⟨hsrv, -⟩ := State.keeps_ring.mp hx
    rw [h.noServers] at hsrv
    exact absurd hsrv (Nat.not_lt_zero srv)
  | cell pid =>
    obtain ⟨p, u, hp, hu, hi⟩ := State.keeps_cell.mp hx
    exact .inr ⟨pid, p, u, rfl, hp, hu, hi.symm⟩

theorem places (h : BootedOwning s) : Places s where
  one x y i hx hy := by
    rcases h.keeps hx with ⟨p, w, rfl, hw, rfl⟩ | ⟨pid, p, u, rfl, hp, hu, rfl⟩
    · rcases h.keeps hy with ⟨p', w', rfl, hw', hi⟩ | ⟨pid', p', u', rfl, hp', hu', hi⟩
      · cases hi
        rw [h.initialApart p p' w hw hw']
      · cases hi
    · rcases h.keeps hy with ⟨p', w', rfl, hw', hi⟩ | ⟨pid', p', u', rfl, hp', hu', hi⟩
      · cases hi
      · cases hi
        rw [← h.pids pid p u hp hu, ← h.pids pid' p u hp' hu]
  apart loc w hl := by
    rw [h.handleAt] at hl
    cases hl
  initialNodup := h.initialNodup
  initialOrdinary p w o hx := by
    rcases h.keeps hx with ⟨p', w', hxw, hw, hi⟩ | ⟨_, _, _, hxc, -⟩
    · cases hi
      have hl := h.loaded o (h.initialOf_lt hw)
      unfold AnonymousMemoryObject.Ordinary
      rw [hl.attributes]
      exact ⟨rfl, rfl⟩
    · cases hxc
  ringViews srv hsrv := by
    rw [h.noServers] at hsrv
    exact absurd hsrv (Nat.not_lt_zero srv)
  pids := h.pids

theorem owned (h : BootedOwning s) : Owned s := ⟨h.places, h.owning⟩

end BootedOwning

/-! ## Every run -/

/-- An object that is destroyed gives its frames back, the last one first. -/
theorem destroy_returned {pid : Pid} {hndl : HandleArg} {o : ObjectRef}
    (hnamed : s.named (.objDestroy pid hndl) = some (.object o))
    (ht : Turn s (.objDestroy pid hndl) s') :
    s' = s ∨ s'.res.frameTable.free = (s.objects o).refs.reverse ++ s.res.frameTable.free ∧
      s'.res.frameTable.allocated = s.res.frameTable.allocated.diff (s.objects o).refs := by
  cases ht with
  | refused => exact .inl rfl
  | objDestroy p u loc o' r' act hd =>
    simp only [State.named, Op.handleLoc, act.cell, Option.bind_some, hd.loc_eq, hd.object,
      Option.some.injEq, RootServerResource.object.injEq] at hnamed
    subst hnamed
    have hlists := hd.freed.lists
    refine .inr ?_
    rw [hd.eq, State.setHandleAt_res]
    exact ⟨hlists.1, hlists.2.1⟩

/-- In a run that gives back no device and no contiguous object, every frame is once in the
lists, frames have one owner each, and they come back when their object is destroyed. -/
theorem frames_owned {ops : List Op} {s : State}
    (run : Run BootedOwning next SparesForeign ops s) :
    (s.res.frameTable.free ++ s.res.frameTable.allocated).Perm
      (List.range s.res.frameTable.used) ∧
    (∀ i, s.Kept i → (s.frameRefs i).Nodup ∧
      ∀ f ∈ s.frameRefs i, f ∈ s.res.frameTable.allocated ∧ f ∉ s.res.frameTable.free) ∧
    (∀ i j, s.Kept i → s.Kept j → i ≠ j → (s.frameRefs i).Disjoint (s.frameRefs j)) ∧
    (∀ pid hndl o s', s.named (.objDestroy pid hndl) = some (.object o) →
      next s (.objDestroy pid hndl) = some s' →
      s' = s ∨ s'.res.frameTable.free = (s.objects o).refs.reverse ++ s.res.frameTable.free ∧
        s'.res.frameTable.allocated = s.res.frameTable.allocated.diff (s.objects o).refs) := by
  obtain ⟨hs, hi⟩ := run_invariant (I := Owned) (fun _ h => h.toBooted) (fun _ h => h.owned)
    (fun _ _ _ hs hi hg _ ht => hi.turn hs hg ht) run
  have hcustody := hi.owning.custody
  refine ⟨hcustody.every, fun i hk => ⟨hcustody.single i hk, fun f hf => ?_⟩, hcustody.apart, ?_⟩
  · exact ⟨hcustody.given i hk f hf, hcustody.not_free hk hf⟩
  · intro pid hndl o s' hnamed hn
    exact destroy_returned hnamed (next_turn hs hn)

/-! ## The small system -/

theorem demo_kept {i : FrameOwner} (h : demo.Kept i) : i = .process 0 ∨ i = .process 1 := by
  obtain ⟨⟨x, hx⟩, -⟩ := h
  cases x with
  | handle loc =>
    obtain ⟨o, hl, -⟩ := State.keeps_handle.mp hx
    rw [demo_booted.handleAt] at hl
    cases hl
  | initial p w =>
    obtain ⟨hw, -⟩ := State.keeps_initial.mp hx
    exact absurd (demo_booted.initialOf_lt hw) (Nat.not_lt_zero w)
  | ring srv =>
    obtain ⟨hsrv, -⟩ := State.keeps_ring.mp hx
    exact absurd hsrv (Nat.not_lt_zero srv)
  | cell pid =>
    obtain ⟨p, u, -, hu, rfl⟩ := State.keeps_cell.mp hx
    rcases demo_processes hu with ⟨rfl, -⟩ | ⟨rfl, -⟩
    · exact .inl rfl
    · exact .inr rfl

theorem demo_owning : Owning demo.Kept demo where
  custody :=
    { distinct := List.nodup_range
      every := by decide
      given := fun i hi => by
        rcases demo_kept hi with rfl | rfl <;> decide
      single := fun i hi => by
        rcases demo_kept hi with rfl | rfl <;> decide
      apart := fun i j hi hj hne => by
        have h01 : ([2, 3] : List Nat).Disjoint [4, 5] := by simp
        rcases demo_kept hi with rfl | rfl
        · rcases demo_kept hj with rfl | rfl
          · exact absurd rfl hne
          · exact h01
        · rcases demo_kept hj with rfl | rfl
          · exact h01.symm
          · exact absurd rfl hne }

theorem demo_bootedOwning : BootedOwning demo where
  toBooted := demo_booted
  initialNodup p := by
    have hnone : demo.initialOf p = [] := List.eq_nil_iff_forall_not_mem.mpr fun w hw =>
      Nat.not_lt_zero w (demo_booted.initialOf_lt hw)
    rw [hnone]
    exact List.nodup_nil
  initialApart p p' w hw := absurd (demo_booted.initialOf_lt hw) (Nat.not_lt_zero w)
  noServers := rfl
  pids pid p u hp hu := by
    simp only [demo] at hp
    split at hp
    · cases hp
      rcases demo_processes hu with ⟨rfl, rfl⟩ | ⟨rfl, rfl⟩ <;> rfl
    · cases hp
  owning := demo_owning

/-- Two processes have an object of one page each, and the first gives its own back. -/
def demoOwners : List Op :=
  [.objCreate 0 ⟨none, 0x1000, .all, { ObjAttributes.default with eager := true }, false⟩ none,
    .objCreate 1 ⟨none, 0x1000, .all, { ObjAttributes.default with eager := true }, false⟩ none,
    .objDestroy 0 (.handle 0)]

theorem frames_owned_demo : ∃ s, Run BootedOwning next SparesForeign demoOwners s ∧
    s.frameRefs (.object 1) = [1] ∧ 0 ∈ s.res.frameTable.free ∧
    (s.res.frameTable.free ++ s.res.frameTable.allocated).Perm
      (List.range s.res.frameTable.used) := by
  obtain ⟨s, run, hrefs, hfree⟩ := demo_reaches demo_bootedOwning SparesForeign demoOwners
    (fun s => s.frameRefs (.object 1) = [1] ∧ 0 ∈ s.res.frameTable.free)
    (by decide +kernel) (by decide +kernel)
  exact ⟨s, run, hrefs, hfree, (frames_owned run).1⟩

/-- The small system with one page for contiguous objects. -/
def demoDma : State := { demo with dma := ⟨0, [30], []⟩ }

theorem demoDma_bootedOwning : BootedOwning demoDma where
  rooted := demo_booted.rooted
  apart := demo_booted.apart
  viewsNext := rfl
  objectsNext := rfl
  loaded i hi := absurd hi (Nat.not_lt_zero i)
  blankWindow := demo_booted.blankWindow
  blankView := demo_booted.blankView
  blankObject := demo_booted.blankObject
  processes p u hp := ⟨(demo_booted.processes p u hp).noHandles,
    (demo_booted.processes p u hp).noWindows, (demo_booted.processes p u hp).noWaiter,
    (demo_booted.processes p u hp).initial⟩
  noCell := demo_booted.noCell
  noHandleCaps := rfl
  initialNodup := demo_bootedOwning.initialNodup
  initialApart := demo_bootedOwning.initialApart
  noServers := rfl
  pids := demo_bootedOwning.pids
  owning := ⟨demo_owning.custody⟩

/-- Destroying the contiguous object frees frame 0, which the other process's object has. -/
def demoForeign : List Op :=
  [.objCreate 1 ⟨none, 0x1000, .all, { ObjAttributes.default with eager := true }, false⟩ none,
    .objCreate 0 ⟨none, 0x1000, .all, { ObjAttributes.default with contiguous := true }, false⟩
      (some 0),
    .objDestroy 0 (.handle 0),
    .objCreate 0 ⟨none, 0x1000, .all, { ObjAttributes.default with eager := true }, false⟩ none]

theorem foreign_frames_shared : ¬ ∀ (ops : List Op) (s : State),
    Run BootedOwning next (fun _ _ => True) ops s →
    ∀ i j, s.Kept i → s.Kept j → i ≠ j → (s.frameRefs i).Disjoint (s.frameRefs j) := by
  intro h
  have hany : (Run.steps next demoDma demoForeign).any (fun s =>
      decide (s.keeps (.handle (.table 1 0)) = some (.object 0) ∧
        s.keeps (.handle (.table 0 0)) = some (.object 2) ∧ (s.objects 0).Ordinary ∧
        (s.objects 2).Ordinary ∧ s.frameRefs (.object 0) = [0] ∧
        s.frameRefs (.object 2) = [0])) = true := by decide +kernel
  obtain ⟨s, run, h₀, h₂, hord₀, hord₂, hrefs₀, hrefs₂⟩ :=
    Run.exists_of_steps demoDma_bootedOwning (Run.guarded_true _ _) hany
  have hd := h _ s run (.object 0) (.object 2) ⟨⟨_, h₀⟩, hord₀⟩ ⟨⟨_, h₂⟩, hord₂⟩ (by decide)
  rw [hrefs₀, hrefs₂] at hd
  exact hd List.mem_cons_self List.mem_cons_self

end Smos.RootServer
