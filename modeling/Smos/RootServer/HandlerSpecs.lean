/-
Smos.RootServer.HandlerSpecs — one specification for each handler.

For each handler a relation says what a call that succeeds found and what
it made of the state; the specification says that this is all it can do.
Most handlers that answer an error have changed nothing. The exceptions
are spelled out: `handle_view` leaves its links when the handle table is
full, `handle_obj_create` leaves the object it filled, and
`handle_conn_publish` leaves what it had made.

Invariants are proved from these relations, never from the handlers.
-/
import Smos.RootServer.Effects

namespace Smos.RootServer

open Smos.Base

variable {s s' : State} {p : Nat}

/-! ## What an update of a process leaves alone -/

namespace State

theorem procCells_updProc (f : UserProcess → UserProcess) (c : Nat) :
    (s.updProc p f).procCells c =
      if c = p then ProcessType.map f (s.procCells p) else s.procCells c :=
  s.procCells.update_apply p c _

theorem updProc_id {f : UserProcess → UserProcess} (hf : ∀ u, f u = u) :
    s.updProc p f = s := by
  unfold updProc
  rw [Heap.update_id]
  cases s.procCells p <;> simp [ProcessType.map, hf]

@[simp] theorem updProc_res (f : UserProcess → UserProcess) : (s.updProc p f).res = s.res := rfl

@[simp] theorem updProc_windows (f : UserProcess → UserProcess) : (s.updProc p f).windows = s.windows := rfl

@[simp] theorem updProc_views (f : UserProcess → UserProcess) : (s.updProc p f).views = s.views := rfl

@[simp] theorem updProc_objects (f : UserProcess → UserProcess) : (s.updProc p f).objects = s.objects := rfl

@[simp] theorem updProc_servers (f : UserProcess → UserProcess) : (s.updProc p f).servers = s.servers := rfl

@[simp] theorem updProc_procs (f : UserProcess → UserProcess) : (s.updProc p f).procs = s.procs := rfl

@[simp] theorem updProc_published (f : UserProcess → UserProcess) : (s.updProc p f).published = s.published := rfl

@[simp] theorem updProc_dma (f : UserProcess → UserProcess) : (s.updProc p f).dma = s.dma := rfl

@[simp] theorem updProc_reply (f : UserProcess → UserProcess) : (s.updProc p f).reply = s.reply := rfl

@[simp] theorem updProc_handleCaps (f : UserProcess → UserProcess) :
    (s.updProc p f).handleCaps = s.handleCaps := rfl

@[simp] theorem setHandleAt_res (loc : HandleLoc) (h : Option RootServerResource) :
    (s.setHandleAt loc h).res = s.res := by
  cases loc <;> rfl

@[simp] theorem setHandleAt_windows (loc : HandleLoc) (h : Option RootServerResource) :
    (s.setHandleAt loc h).windows = s.windows := by
  cases loc <;> rfl

@[simp] theorem setHandleAt_views (loc : HandleLoc) (h : Option RootServerResource) :
    (s.setHandleAt loc h).views = s.views := by
  cases loc <;> rfl

@[simp] theorem setHandleAt_objects (loc : HandleLoc) (h : Option RootServerResource) :
    (s.setHandleAt loc h).objects = s.objects := by
  cases loc <;> rfl

@[simp] theorem setHandleAt_servers (loc : HandleLoc) (h : Option RootServerResource) :
    (s.setHandleAt loc h).servers = s.servers := by
  cases loc <;> rfl

@[simp] theorem setHandleAt_procs (loc : HandleLoc) (h : Option RootServerResource) :
    (s.setHandleAt loc h).procs = s.procs := by
  cases loc <;> rfl

@[simp] theorem setHandleAt_published (loc : HandleLoc) (h : Option RootServerResource) :
    (s.setHandleAt loc h).published = s.published := by
  cases loc <;> rfl

@[simp] theorem setHandleAt_dma (loc : HandleLoc) (h : Option RootServerResource) :
    (s.setHandleAt loc h).dma = s.dma := by
  cases loc <;> rfl

@[simp] theorem setHandleAt_reply (loc : HandleLoc) (h : Option RootServerResource) :
    (s.setHandleAt loc h).reply = s.reply := by
  cases loc <;> rfl

theorem windowsOf_updProc_of_eq {f : UserProcess → UserProcess}
    (hf : ∀ u, (f u).windows = u.windows) (c : Nat) :
    (s.updProc p f).windowsOf c = s.windowsOf c := by
  simp only [windowsOf, procCells_updProc]
  by_cases hc : c = p
  · subst hc
    simp only [if_true]
    cases s.procCells c <;> simp [ProcessType.map, hf]
  · simp [hc]

theorem initialOf_updProc_of_eq {f : UserProcess → UserProcess}
    (hf : ∀ u, (f u).initialWindows = u.initialWindows) (c : Nat) :
    (s.updProc p f).initialOf c = s.initialOf c := by
  simp only [initialOf, procCells_updProc]
  by_cases hc : c = p
  · subst hc
    simp only [if_true]
    cases s.procCells c <;> simp [ProcessType.map, hf]
  · simp [hc]

theorem handleAt_updProc_of_eq {f : UserProcess → UserProcess}
    (hf : ∀ u, (f u).handleTable = u.handleTable) (loc : HandleLoc) :
    (s.updProc p f).handleAt loc = s.handleAt loc := by
  cases loc with
  | cap idx => rfl
  | table c idx =>
    simp only [handleAt, procCells_updProc]
    by_cases hc : c = p
    · subst hc
      simp only [if_true]
      cases s.procCells c <;> simp [ProcessType.map, hf]
    · simp [hc]

/-- Handles live in the process table and the handle capability table. -/
theorem handleAt_congr {s' : State} (hp : s'.procCells = s.procCells)
    (hc : s'.handleCaps = s.handleCaps) (loc : HandleLoc) : s'.handleAt loc = s.handleAt loc := by
  cases loc with
  | cap idx => simp only [handleAt, hc]
  | table c idx => simp only [handleAt, hp]

theorem validLoc_congr {s' : State} (hp : s'.procCells = s.procCells) {loc : HandleLoc} :
    s'.ValidLoc loc ↔ s.ValidLoc loc := by
  cases loc with
  | cap idx => rfl
  | table c idx => simp only [ValidLoc, hp]

theorem validLoc_updProc (f : UserProcess → UserProcess) (loc : HandleLoc) :
    (s.updProc p f).ValidLoc loc ↔ s.ValidLoc loc := by
  cases loc with
  | cap idx => rfl
  | table c idx =>
    simp only [ValidLoc, procCells_updProc]
    by_cases hc : c = p
    · subst hc
      simp only [if_true]
      cases s.procCells c <;> simp [ProcessType.map]
    · simp [hc]

theorem windowsOf_setHandleAt (loc : HandleLoc) (h : Option RootServerResource) (c : Nat) :
    (s.setHandleAt loc h).windowsOf c = s.windowsOf c := by
  cases loc with
  | cap idx => rfl
  | table p idx =>
    exact windowsOf_updProc_of_eq
      (f := fun u => { u with handleTable := Function.update u.handleTable idx h }) (fun _ => rfl) c

theorem initialOf_setHandleAt (loc : HandleLoc) (h : Option RootServerResource) (c : Nat) :
    (s.setHandleAt loc h).initialOf c = s.initialOf c := by
  cases loc with
  | cap idx => rfl
  | table p idx =>
    exact initialOf_updProc_of_eq
      (f := fun u => { u with handleTable := Function.update u.handleTable idx h }) (fun _ => rfl) c

end State

/-! ## Windows -/

/-- `created_handle_caps.push(idx)`, when a handle capability was asked for. -/
def recordCap (returnCap : Bool) (idx : Nat) (u : UserProcess) : UserProcess :=
  if returnCap then { u with createdHandleCaps := u.createdHandleCaps ++ [idx] } else u

/-- A new resource gets its handle, and a handle capability is recorded. -/
def State.giveHandle (s : State) (p : Nat) (returnCap : Bool) (idx : Nat)
    (h : RootServerResource) : State :=
  (s.setHandleAt (allocatedLoc p returnCap idx) (some h)).updProc p (recordCap returnCap idx)

/-- Recording a handle capability, as the handlers do it. -/
theorem wp_recordCap {returnCap : Bool} {idx : Nat} {m : Handler SMOSReply}
    {Q : SMOSReply → State → Prop} {E : InvocationError → State → Prop} {P : Panic → Prop} :
    ((returnCap = true → (do
        modifyProc p fun u => { u with createdHandleCaps := u.createdHandleCaps ++ [idx] }
        m).wp Q E P s) ∧
      (¬ returnCap = true → m.wp Q E P s)) ↔
    m.wp Q E P (s.updProc p (recordCap returnCap idx)) := by
  cases returnCap with
  | true =>
    simp only [forall_const, not_true_eq_false, false_implies, and_true, Prog.wp_bind,
      wp_modifyProc]
    rfl
  | false =>
    rw [State.updProc_id (f := recordCap false idx) fun _ => rfl]
    simp

/-- `handle_window_create` found no window the test notices, and an empty handle. -/
structure WindowCreated (p : Nat) (args : WindowCreateArgs) (s s' : State) : Prop where
  aligned : args.baseVaddr % pageSize4K = 0
  clear : ∀ w ∈ s.windowsOf p, ¬ (s.windows w).Overlaps args.baseVaddr args.size
  made : ∃ idx, s.ValidLoc (allocatedLoc p args.returnCap idx) ∧
    s.handleAt (allocatedLoc p args.returnCap idx) = none ∧
    s' = (({ s with windows := s.windows.alloc ⟨args.baseVaddr, args.size, none⟩ } :
      State).giveHandle p args.returnCap idx (.window s.windows.next)).updProc p fun u =>
        { u with windows := u.windows ++ [s.windows.next] }

theorem handleWindowCreate_spec (s : State) (p : Nat) (args : WindowCreateArgs) :
    (handleWindowCreate p args).wp (fun _ s' => WindowCreated p args s s') (fun _ s' => s' = s)
      Panic.Low s := by
  simp only [handleWindowCreate, Prog.wp_ite, Prog.wp_fail, Prog.wp_bind, wp_getProc]
  refine ⟨fun _ => trivial, fun hal => ⟨fun u hu => ?_, fun _ _ => by decide⟩⟩
  have hal' : args.baseVaddr % pageSize4K = 0 := by simpa using hal
  refine Prog.wp_mono (overlappingWindow_spec s args.baseVaddr args.size u.windows) ?_
    (fun _ _ => False.elim) fun _ hp => hp
  rintro x _ ⟨rfl, hx⟩
  cases x with
  | some w =>
    simp only [Prog.wp_bind, wp_getWindow, wp_addU, Prog.wp_fail]
    exact ⟨fun _ => ⟨fun _ => trivial, fun _ => by decide⟩, fun _ => by decide⟩
  | none =>
    simp only [Prog.wp_bind]
    refine Prog.wp_mono (genericAllocateHandle_spec _ p args.returnCap) ?_ (fun _ _ h => h)
      fun _ hp => hp
    rintro idx s₁ ⟨rfl, hv, he⟩
    have hclear : ∀ w ∈ s₁.windowsOf p, ¬ (s₁.windows w).Overlaps args.baseVaddr args.size := by
      simpa [State.windowsOf, hu] using hx.mp rfl
    simp only [wp_newWindow, wp_setAllocatedHandle, Prog.wp_ite]
    refine wp_recordCap.mpr ?_
    simp only [Prog.wp_bind, addWindowUnchecked, wp_modifyProc, Prog.wp_pure]
    exact ⟨hal', hclear, idx, hv, he, rfl⟩

/-- Bind a window to a view, or to none. -/
def Window.bind (v : Option ViewRef) (w : Window) : Window := { w with boundView := v }

/-- `handle_window_register` found a server and a window, whatever is bound to it. -/
structure WindowRegistered (p : Nat) (args : WindowRegisterArgs) (srv : ServerRef)
    (w : WindowRef) (idx : Nat) (s s' : State) : Prop where
  server : s.handleAt (.table p args.publishHndl) = some (.server srv)
  window : s.handleAt (.cap args.windowHndl) = some (.window w)
  valid : s.ValidLoc (.table p idx)
  empty : s.handleAt (.table p idx) = none
  eq : s' = ({ s with
    views := s.views.alloc
      (View.new w none (some (srv, args.clientId, args.reference)) .all 0 0)
    windows := s.windows.update w (Window.bind (some s.views.next)) } : State).setHandleAt
      (.table p idx) (some (.windowRegistration s.views.next))

theorem handleWindowRegister_spec (s : State) (p : Nat) (args : WindowRegisterArgs) :
    (handleWindowRegister p args).wp
      (fun _ s' => ∃ srv w idx, WindowRegistered p args srv w idx s s') (fun _ s' => s' = s)
      Panic.Low s := by
  simp only [handleWindowRegister, Prog.wp_bind, Prog.wp_catchErr, Prog.wp_fail]
  refine Prog.wp_mono (getHandle_spec s p args.publishHndl) ?_ (fun _ _ h => h) fun _ hp => hp
  rintro h _ ⟨rfl, -, hh⟩
  rw [Prog.wp_unwrap]
  refine ⟨fun res hres => ?_, fun _ => by decide⟩
  have hpub := hh.symm.trans hres
  cases res with
  | server srv =>
    simp only [Prog.wp_bind, Prog.wp_catchErr, Prog.wp_fail]
    refine Prog.wp_mono (getHandleCap_spec _ args.windowHndl) ?_ (fun _ _ h => h) fun _ hp => hp
    rintro h' s₁ ⟨rfl, -, hh'⟩
    rw [Prog.wp_unwrap]
    refine ⟨fun res' hres' => ?_, fun _ => by decide⟩
    have hwin := hh'.symm.trans hres'
    cases res' with
    | window w =>
      simp only [Prog.wp_bind]
      refine Prog.wp_mono (allocateHandle_spec _ p) ?_ (fun _ _ h => h) fun _ hp => hp
      rintro idx s₂ ⟨rfl, hv, he⟩
      simp only [wp_newView, wp_modifyWindow, wp_setHandle, Prog.wp_pure]
      exact ⟨srv, w, idx, hpub, hwin, hv, he, rfl⟩
    | _ => exact rfl
  | _ => exact rfl

/-- `handle_window_deregister` emptied the view and unbound its window. -/
structure WindowDeregistered (p : Nat) (hndl : Nat) (v : ViewRef) (r' : Res) (s s' : State) :
    Prop where
  valid : s.ValidLoc (.table p hndl)
  registration : s.handleAt (.table p hndl) = some (.windowRegistration v)
  boundObject : (s.views v).boundObject = none
  cleaned : Cleaned true (s.views v).caps.values s.res r'
  eq : s' = ({ s with
    res := r'
    windows := s.windows.update (s.views v).boundWindow (Window.bind none) } : State).setHandleAt
      (.table p hndl) none

theorem handleWindowDeregister_spec (s : State) (p : Nat) (hndl : Nat) :
    (handleWindowDeregister p hndl).wp
      (fun _ s' => ∃ v r', WindowDeregistered p hndl v r' s s') (fun _ s' => s' = s)
      (fun π => π.Low ∨ ∃ v, s.handleAt (.table p hndl) = some (.windowRegistration v) ∧
        (s.views v).boundObject ≠ none) s := by
  simp only [handleWindowDeregister, Prog.wp_bind, Prog.wp_catchErr, Prog.wp_fail]
  refine Prog.wp_mono (getHandle_spec s p hndl) ?_ (fun _ _ h => h) fun _ hp => .inl hp
  rintro h _ ⟨rfl, hvalid, hh⟩
  rw [Prog.wp_unwrap]
  refine ⟨fun res hres => ?_, fun _ => .inl (by decide)⟩
  have hreg := hh.symm.trans hres
  cases res with
  | windowRegistration v =>
    simp only [Prog.wp_bind]
    refine Prog.wp_mono (cleanupCapTable_spec v true) ?_ (fun _ _ => False.elim)
      fun _ hp => .inl hp
    rintro _ s₁ ⟨r', hc, rfl⟩
    simp only [wp_getView, wp_modifyWindow, Prog.wp_assert, Prog.wp_expect, Prog.wp_pure]
    refine ⟨fun ho => ?_, fun ho => .inr ⟨v, hreg, fun hnone => by simp [hnone] at ho⟩⟩
    refine Prog.wp_mono (cleanupHandle_spec _ p hndl) ?_ (fun _ _ _ => .inl (by decide))
      fun _ hp => .inl hp
    rintro _ s₂ rfl
    exact ⟨v, r', hvalid, hreg, by simpa using ho, hc, rfl⟩
  | _ => exact rfl

/-- The managing server of a view has a new message in its ring. -/
def Notified (v : ViewRef) (s s' : State) : Prop :=
  match (s.views v).managingServerInfo with
  | some (srv, clientId, reference) =>
    s' = { s with servers := s.servers.update srv fun server =>
      { server with ntfnBuffer := server.ntfnBuffer ++ [.windowDestroy clientId reference] } }
  | none => s' = s

/-- `dissociateView` found the view in its object's list and took it out. -/
structure Dissociated (v : ViewRef) (o : ObjectRef) (pos : Nat) (s s' : State) : Prop where
  boundObject : (s.views v).boundObject = some o
  found : (s.objects o).associatedViews.findIdx? (· == v) = some pos
  eq : s' = { s with objects := s.objects.update o fun object =>
    { object with associatedViews := swapRemove object.associatedViews pos } }

/-- The view is in the list of its object. -/
def State.Associated (s : State) (v : ViewRef) : Prop :=
  ∃ o, (s.views v).boundObject = some o ∧ v ∈ (s.objects o).associatedViews

/-- The window is bound to a view that is in no list. -/
def State.Astray (s : State) (w : WindowRef) : Prop :=
  ∃ v, (s.windows w).boundView = some v ∧ ¬ s.Associated v

theorem dissociateView_spec {ε : Type} (s : State) (v : ViewRef) :
    (dissociateView v : SProg ε Unit).wp (fun _ s' => ∃ o pos, Dissociated v o pos s s')
      (fun _ _ => False) (fun _ => ¬ s.Associated v) s := by
  simp only [dissociateView, Prog.wp_bind, wp_getView, Prog.wp_unwrap, wp_getObject,
    wp_modifyObject]
  refine ⟨fun o ho => ⟨fun pos hpos => ⟨o, pos, ho, hpos, rfl⟩, fun hnone => ?_⟩, fun hnone => ?_⟩
  · rintro ⟨o', ho', hmem⟩
    cases ho.symm.trans ho'
    have := List.findIdx?_eq_none_iff.mp hnone v hmem
    simp at this
  · rintro ⟨o, ho, -⟩
    cases hnone.symm.trans ho

/-- `handle_window_destroy_internal`. -/
inductive WindowDestroyed (w : WindowRef) (destroyView : Bool) (s : State) : State → Prop
  | unbound (h : (s.windows w).boundView = none) : WindowDestroyed w destroyView s s
  | kept (v : ViewRef) (s' : State) (h : (s.windows w).boundView = some v)
    (hd : destroyView = false) (notified : Notified v s s') : WindowDestroyed w destroyView s s'
  | destroyed (v : ViewRef) (o : ObjectRef) (pos : Nat) (s₁ s₂ : State) (r' : Res)
    (h : (s.windows w).boundView = some v) (hd : destroyView = true) (notified : Notified v s s₁)
    (dissociated : Dissociated v o pos s₁ s₂)
    (cleaned : Cleaned true (s.views v).caps.values s.res r') :
    WindowDestroyed w destroyView s { s₂ with res := r' }

theorem enqueueNtfnBufferMsg_spec {ε : Type} (s : State) (srv : ServerRef)
    (msg : NotificationType) :
    (enqueueNtfnBufferMsg srv msg : SProg ε Unit).wp
      (fun _ s' => s' = { s with servers := s.servers.update srv fun server =>
        { server with ntfnBuffer := server.ntfnBuffer ++ [msg] } })
      (fun _ _ => False) Panic.Low s := by
  simp only [enqueueNtfnBufferMsg, Prog.wp_bind, wp_getServer, Prog.wp_ite, wp_modifyServer,
    Prog.wp_panic]
  exact ⟨fun _ => trivial, fun _ => by decide⟩

theorem Notified.frame {v : ViewRef} (h : Notified v s s') :
    s' = { s with servers := s'.servers } := by
  unfold Notified at h
  split at h <;> (subst h; rfl)

theorem handleWindowDestroyInternal_spec {ε : Type} (s : State) (w : WindowRef)
    (destroyView : Bool) :
    (handleWindowDestroyInternal w destroyView : SProg ε Unit).wp
      (fun _ s' => WindowDestroyed w destroyView s s') (fun _ _ => False)
      (fun π => π.Low ∨ destroyView = true ∧ s.Astray w) s := by
  simp only [handleWindowDestroyInternal, Prog.wp_bind, wp_getWindow]
  cases hv : (s.windows w).boundView with
  | none => exact .unbound hv
  | some v =>
    have hend : ∀ s₁ : State, Notified v s s₁ →
        (if destroyView = true then do
          dissociateView v
          cleanupCapTable v true
        else pure () : SProg ε Unit).wp (fun _ s' => WindowDestroyed w destroyView s s')
          (fun _ _ => False) (fun π => π.Low ∨ destroyView = true ∧ s.Astray w) s₁ := by
      intro s₁ hn
      simp only [Prog.wp_ite, Prog.wp_bind, Prog.wp_pure]
      refine ⟨fun hd => ?_, fun hd => .kept v s₁ hv (by simpa using hd) hn⟩
      refine Prog.wp_mono (dissociateView_spec s₁ v) ?_ (fun _ _ => False.elim)
        fun _ hp => .inr ⟨hd, v, hv, ?_⟩
      swap
      · rw [hn.frame] at hp
        exact hp
      rintro _ s₂ ⟨o, pos, hdis⟩
      refine Prog.wp_mono (cleanupCapTable_spec v true) ?_ (fun _ _ => False.elim)
        fun _ hp => .inl hp
      rintro _ s₃ ⟨r', hc, rfl⟩
      refine .destroyed v o pos s₁ s₂ r' hv hd hn hdis ?_
      rw [hdis.eq, hn.frame] at hc
      exact hc
    simp only [Prog.wp_bind, wp_getView]
    cases hm : (s.views v).managingServerInfo with
    | none => exact hend s (by simp [Notified, hm])
    | some info =>
      obtain ⟨srv, clientId, reference⟩ := info
      simp only [Prog.wp_bind]
      refine Prog.wp_mono (enqueueNtfnBufferMsg_spec s srv _) ?_ (fun _ _ => False.elim)
        fun _ hp => .inl hp
      rintro _ s₁ rfl
      exact hend _ (by simp [Notified, hm])

/-- `swap_remove` is a removal, up to the order. -/
theorem swapRemove_perm {xs : List Nat} {pos : Nat} (h : pos < xs.length) :
    (swapRemove xs pos).Perm (xs.eraseIdx pos) := by
  obtain ⟨init, last, rfl⟩ : ∃ init last, xs = init ++ [last] := by
    rcases List.eq_nil_or_concat xs with rfl | ⟨init, last, rfl⟩
    · simp at h
    · exact ⟨init, last, List.concat_eq_append⟩
  simp only [swapRemove, List.getLast?_concat]
  by_cases hpos : pos < init.length
  · rw [List.set_append_left _ _ hpos, List.dropLast_concat,
      List.eraseIdx_append_of_lt_length hpos]
    exact (List.set_perm_cons_eraseIdx hpos last).trans (List.perm_append_singleton last _).symm
  · have hpos' : pos = init.length := by simp at h; omega
    subst hpos'
    simp [List.eraseIdx_append_of_length_le]

/-- The window list after `remove_window`. -/
def dropWindow (w : WindowRef) (u : UserProcess) : UserProcess :=
  match u.windows.findIdx? (· == w) with
  | some pos => { u with windows := swapRemove u.windows pos }
  | none => u

/-- `handle_window_destroy` found a window and removed it from the caller's list. -/
structure WindowRemoved (p : Nat) (hndl : HandleArg) (loc : HandleLoc) (w : WindowRef)
    (s₁ s s' : State) : Prop where
  loc_eq : hndl.loc p = some loc
  valid : s.ValidLoc loc
  window : s.handleAt loc = some (.window w)
  destroyed : WindowDestroyed w true s s₁
  eq : s' = (s₁.updProc p (dropWindow w)).setHandleAt loc none

theorem WindowDestroyed.frame {w : WindowRef} {destroyView : Bool}
    (h : WindowDestroyed w destroyView s s') :
    s' = { s with res := s'.res, objects := s'.objects, servers := s'.servers } := by
  cases h with
  | unbound => rfl
  | kept v s' _ _ hn => rw [hn.frame]
  | destroyed v o pos s₁ s₂ r' _ _ hn hdis _ => rw [hdis.eq, hn.frame]

theorem handleWindowDestroy_spec (s : State) (p : Nat) (hndl : HandleArg) :
    (handleWindowDestroy p hndl).wp
      (fun _ s' => ∃ loc w s₁, WindowRemoved p hndl loc w s₁ s s') (fun _ s' => s' = s)
      (fun π => π.Low ∨ ∃ loc w, hndl.loc p = some loc ∧ s.handleAt loc = some (.window w) ∧
        s.Astray w) s := by
  simp only [handleWindowDestroy, Prog.wp_bind]
  refine Prog.wp_mono (genericGetHandle_spec s p hndl 0) ?_ (fun _ _ h => h) fun _ hp => .inl hp
  rintro h _ ⟨rfl, loc, hloc, hvalid, hh⟩
  rw [Prog.wp_unwrap]
  refine ⟨fun res hres => ?_, fun _ => .inl (by decide)⟩
  have hwin := hh.symm.trans hres
  cases res with
  | window w =>
    simp only [Prog.wp_bind]
    refine Prog.wp_mono (handleWindowDestroyInternal_spec _ w true) ?_ (fun _ _ => False.elim)
      fun _ hp => hp.imp_right fun hw => ⟨loc, w, hloc, hwin, hw.2⟩
    intro _ s₁ hd
    simp only [removeWindow, wp_modifyProc]
    refine Prog.wp_mono (genericCleanupHandle_spec _ p hndl 0) ?_ ?_ fun _ hp => .inl hp
    · rintro _ s₂ ⟨loc', hloc', rfl⟩
      cases hloc.symm.trans hloc'
      exact ⟨loc, w, s₁, hloc, hvalid, hwin, hd, rfl⟩
    · rintro _ s₂ ⟨-, hno⟩
      refine absurd ?_ (hno loc hloc)
      rw [hd.frame]
      exact (State.validLoc_updProc (dropWindow w) loc).mpr hvalid
  | _ =>
    exact Prog.wp_mono (genericInvalidHandleError_spec _ hndl 0) (fun _ _ h => h) (fun _ _ h => h)
      fun _ hp => .inl hp

/-! ## Views -/

/-- The state with a new view of the object linked to the window and the object. -/
def State.linkView (s : State) (w : WindowRef) (o : ObjectRef) (x : View) : State :=
  { s with
    views := s.views.alloc x
    windows := s.windows.update w (Window.bind (some s.views.next))
    objects := s.objects.update o fun object =>
      { object with associatedViews := object.associatedViews ++ [s.views.next] } }

/-- What `handle_view` tests before it makes a view. -/
structure ViewAccepted (p : Nat) (args : ViewArgs) (w : WindowRef) (o : ObjectRef)
    (s : State) : Prop where
  window : ∃ loc, args.window.loc p = some loc ∧ s.handleAt loc = some (.window w)
  object : ∃ loc, args.object.loc p = some loc ∧ s.handleAt loc = some (.object o)
  size_pos : args.size ≠ 0
  winOffset : pageBitSet args.windowOffset = false
  objOffset : pageBitSet args.objOffset = false
  objEnd : args.objOffset + args.size ≤ (s.objects o).size
  winEnd : args.windowOffset + args.size ≤ (s.windows w).size
  unbound : (s.windows w).boundView = none

/-- The view `handle_view` makes. -/
def ViewArgs.newView (args : ViewArgs) (w : WindowRef) (o : ObjectRef) : View :=
  View.new w (some o) none args.rights args.windowOffset args.objOffset

/-- `handle_view` made a view and gave it a handle. -/
structure ViewMade (p : Nat) (args : ViewArgs) (w : WindowRef) (o : ObjectRef) (idx : Nat)
    (s s' : State) : Prop where
  accepted : ViewAccepted p args w o s
  valid : s.ValidLoc (.table p idx)
  empty : s.handleAt (.table p idx) = none
  eq : s' = ((s.linkView w o (args.newView w o)).setHandleAt (.table p idx)
    (some (.view s.views.next))).updProc p fun u => { u with views := u.views ++ [s.views.next] }

theorem handleView_spec (s : State) (p : Nat) (args : ViewArgs) :
    (handleView p args).wp (fun _ s' => ∃ w o idx, ViewMade p args w o idx s s')
      (fun _ s' => s' = s ∨ ∃ w o, ViewAccepted p args w o s ∧
        (∀ idx, idx < maxHandles → s.handleAt (.table p idx) ≠ none) ∧
        s' = s.linkView w o (args.newView w o))
      Panic.Low s := by
  simp only [handleView, Prog.wp_bind]
  refine Prog.wp_mono (genericGetHandle_spec s p args.window 0) ?_ (fun _ _ h => .inl h)
    fun _ hp => hp
  rintro h _ ⟨rfl, loc, hloc, -, hh⟩
  rw [Prog.wp_unwrap]
  refine ⟨fun res hres => ?_, fun _ => by decide⟩
  have hwin := hh.symm.trans hres
  cases res with
  | window w =>
    simp only [Prog.wp_bind]
    refine Prog.wp_mono (genericGetHandle_spec _ p args.object 1) ?_ (fun _ _ h => .inl h)
      fun _ hp => hp
    rintro h' s₁ ⟨rfl, loc', hloc', -, hh'⟩
    rw [Prog.wp_unwrap]
    refine ⟨fun res' hres' => ?_, fun _ => by decide⟩
    have hobj := hh'.symm.trans hres'
    cases res' with
    | object o =>
      simp only [Prog.wp_ite, Prog.wp_fail, Prog.wp_bind, wp_addU, wp_getObject, wp_getWindow]
      refine ⟨fun _ => .inl trivial, fun hsize => ⟨fun _ => .inl trivial, fun hwo =>
        ⟨fun _ => .inl trivial, fun hoo => ⟨fun _ => ⟨fun _ => .inl trivial, fun hoe =>
        ⟨fun _ => ⟨fun _ => .inl trivial, fun hwe => ⟨fun _ => .inl trivial, fun hb => ?_⟩⟩,
        fun _ => by decide⟩⟩, fun _ => by decide⟩⟩⟩⟩
      have hacc : ViewAccepted p args w o s₁ :=
        ⟨⟨loc, hloc, hwin⟩, ⟨loc', hloc', hobj⟩, hsize, by simpa using hwo, by simpa using hoo,
          by omega, by omega, by simpa using hb⟩
      simp only [wp_newView, wp_modifyWindow, wp_modifyObject, allocateHandle, Prog.wp_bind,
        wp_getProc, Prog.wp_okOr, wp_setHandle, wp_modifyProc, Prog.wp_pure]
      refine ⟨fun u hu => ⟨fun idx hidx => ?_, fun hfull => .inr ⟨w, o, hacc, ?_, rfl⟩⟩,
        fun _ _ => by decide⟩
      · obtain ⟨hlt, hnone⟩ := firstEmpty_spec hidx
        exact ⟨w, o, idx, hacc, ⟨hlt, u, hu⟩, by simp [State.handleAt, hu, hnone], rfl⟩
      · intro idx hidx
        have := List.find?_eq_none.mp hfull idx (List.mem_range.mpr hidx)
        simpa [State.handleAt, hu, hidx] using this
    | _ =>
      exact Prog.wp_mono (genericInvalidHandleError_spec _ args.object 1) (fun _ _ h => h) (fun _ _ h => .inl h) fun _ hp => hp
  | _ =>
    exact Prog.wp_mono (genericInvalidHandleError_spec _ args.window 0) (fun _ _ h => h) (fun _ _ h => .inl h) fun _ hp => hp

/-- `handle_unview_internal`: the view is emptied and unlinked. -/
structure Unviewed (v : ViewRef) (o : ObjectRef) (pos : Nat) (r' : Res) (s s' : State) :
    Prop where
  cleaned : Cleaned true (s.views v).caps.values s.res r'
  dissociated : Dissociated v o pos { s with
    res := r'
    windows := s.windows.update (s.views v).boundWindow (Window.bind none) } s'

theorem handleUnviewInternal_spec {ε : Type} (s : State) (v : ViewRef) :
    (handleUnviewInternal v : SProg ε Unit).wp (fun _ s' => ∃ o pos r', Unviewed v o pos r' s s')
      (fun _ _ => False) (fun π => π.Low ∨ ¬ s.Associated v) s := by
  simp only [handleUnviewInternal, Prog.wp_bind]
  refine Prog.wp_mono (cleanupCapTable_spec v true) ?_ (fun _ _ => False.elim) fun _ hp => .inl hp
  rintro _ s₁ ⟨r', hc, rfl⟩
  simp only [wp_getView, wp_modifyWindow, Prog.wp_assert]
  refine ⟨fun _ => ?_, fun hno => .inr ?_⟩
  swap
  · rintro ⟨o, ho, -⟩
    rw [ho] at hno
    cases hno
  refine Prog.wp_mono (dissociateView_spec _ v) ?_ (fun _ _ => False.elim) fun _ hp => .inr hp
  rintro _ s₂ ⟨o, pos, hdis⟩
  exact ⟨o, pos, r', hc, hdis⟩

theorem handleUnview_spec (s : State) (p : Nat) (hndl : Nat) :
    (handleUnview p hndl).wp
      (fun _ s' => ∃ v o pos r' s₁, s.ValidLoc (.table p hndl) ∧
        s.handleAt (.table p hndl) = some (.view v) ∧ Unviewed v o pos r' s s₁ ∧
        s' = s₁.setHandleAt (.table p hndl) none)
      (fun _ s' => s' = s) (fun π => π.Low ∨ ∃ v,
        s.handleAt (.table p hndl) = some (.view v) ∧ ¬ s.Associated v) s := by
  simp only [handleUnview, Prog.wp_bind, Prog.wp_catchErr, Prog.wp_fail]
  refine Prog.wp_mono (getHandle_spec s p hndl) ?_ (fun _ _ h => h) fun _ hp => .inl hp
  rintro h _ ⟨rfl, hvalid, hh⟩
  rw [Prog.wp_unwrap]
  refine ⟨fun res hres => ?_, fun _ => .inl (by decide)⟩
  have hview := hh.symm.trans hres
  cases res with
  | view v =>
    simp only [Prog.wp_bind]
    refine Prog.wp_mono (handleUnviewInternal_spec _ v) ?_ (fun _ _ => False.elim)
      fun _ hp => hp.imp_right fun hno => ⟨v, hview, hno⟩
    rintro _ s₁ ⟨o, pos, r', hu⟩
    simp only [Prog.wp_expect, Prog.wp_pure]
    refine Prog.wp_mono (cleanupHandle_spec s₁ p hndl) ?_ (fun _ _ _ => .inl (by decide))
      fun _ hp => .inl hp
    rintro _ s₂ rfl
    exact ⟨v, o, pos, r', s₁, hvalid, hview, hu, rfl⟩
  | _ => exact rfl

/-! ## Objects -/

/-- Frames entered one after the other at consecutive pages. -/
inductive FramesInserted : Nat → List ObjectFrame → AnonymousMemoryObject →
    AnonymousMemoryObject → Prop
  | nil (offset : Nat) (x : AnonymousMemoryObject) : FramesInserted offset [] x x
  | cons {offset : Nat} {f : ObjectFrame} {fs : List ObjectFrame}
    {x y z : AnonymousMemoryObject} (insert : x.insertFrameAt offset f = .ok y)
    (rest : FramesInserted (offset + pageSize4K) fs y z) : FramesInserted offset (f :: fs) x z

/-- The pages of an EAGER object, taken and entered one by one; none is cleared. -/
inductive EagerFilled (o : ObjectRef) : List Nat → State → State → Prop
  | nil (s : State) : EagerFilled o [] s s
  | cons {i : Nat} {is : List Nat} {s s' : State} (f : Nat) (r : Res)
    (object : AnonymousMemoryObject) (alloc : FrameAllocated s.res f r)
    (insert : (s.objects o).insertFrameAt (i * pageSize4K) ⟨r.frameTable.cap f, f⟩ = .ok object)
    (rest : EagerFilled o is
      { s with res := r, objects := s.objects.update o fun _ => object } s') :
    EagerFilled o (i :: is) s s'

/-- What is in the new object `o` when it gets its handle. -/
inductive ObjFilled (args : ObjCreateArgs) (o : ObjectRef) (s : State) : State → Prop
  | device (paddr : Nat) (fs : List (Slot × Nat)) (r : Res) (object : AnonymousMemoryObject)
    (attr : args.attributes.device = true) (memory : DeviceMemory paddr args.size fs s.res r)
    (inserted : FramesInserted 0 (fs.map fun f => ⟨f.1, f.2⟩) (s.objects o) object) :
    ObjFilled args o s { s with res := r, objects := s.objects.update o fun _ => object }
  | contiguous (allocation : Nat) (object : AnonymousMemoryObject)
    (notDevice : args.attributes.device = false) (attr : args.attributes.contiguous = true)
    (bound : allocation + args.size / pageSize4K ≤ s.dma.pages.length)
    (inserted : FramesInserted 0
      (((s.dma.pages.drop allocation).take (args.size / pageSize4K)).map fun c => ⟨c, 0⟩)
      { s.objects o with dmaAllocation := some allocation } object) :
    ObjFilled args o s { s with
      dma := { s.dma with allocations := allocation :: s.dma.allocations }
      objects := s.objects.update o fun _ => object }
  | eager (s' : State) (notDevice : args.attributes.device = false)
    (notContiguous : args.attributes.contiguous = false) (attr : args.attributes.eager = true)
    (filled : EagerFilled o (List.range (args.size / pageSize4K)) s s') : ObjFilled args o s s'
  | empty (notDevice : args.attributes.device = false)
    (notContiguous : args.attributes.contiguous = false) (notEager : args.attributes.eager = false) :
    ObjFilled args o s s

section Fill

variable {ε : Type}

theorem insertFrame_spec (s : State) (o : ObjectRef) (offset : Nat) (f : ObjectFrame) :
    (insertFrame o offset f : SProg ε Unit).wp
      (fun _ s' => ∃ object, (s.objects o).insertFrameAt offset f = .ok object ∧
        s' = { s with objects := s.objects.update o fun _ => object })
      (fun _ _ => False) (fun π => ¬ π.Unlinked) s := by
  simp only [insertFrame, Prog.wp_bind, wp_getObject]
  cases hins : (s.objects o).insertFrameAt offset f with
  | ok object => exact ⟨object, rfl, rfl⟩
  | error _ => exact (by decide : ¬ Panic.Unlinked .insertFrame)

theorem insertFrames_spec (o : ObjectRef) : ∀ (fs : List ObjectFrame) (s : State) (offset : Nat),
    (insertFrames o offset fs : SProg ε Unit).wp
      (fun _ s' => ∃ object, FramesInserted offset fs (s.objects o) object ∧
        s' = { s with objects := s.objects.update o fun _ => object })
      (fun _ _ => False) (fun π => ¬ π.Unlinked) s
  | [], s, offset => ⟨s.objects o, .nil _ _, by rw [Heap.update_id _ rfl]⟩
  | f :: fs, s, offset => by
      simp only [insertFrames, Prog.wp_bind]
      refine Prog.wp_mono (insertFrame_spec s o offset f) ?_ (fun _ _ => False.elim)
        fun _ hp => hp
      rintro _ s₁ ⟨x, hx, rfl⟩
      refine Prog.wp_mono (insertFrames_spec o fs _ _) ?_ (fun _ _ => False.elim) fun _ hp => hp
      rintro _ s₂ ⟨y, hy, rfl⟩
      rw [Heap.update_self] at hy
      exact ⟨y, .cons hx hy, by rw [Heap.update_overwrite]⟩

theorem eagerPages_spec (o : ObjectRef) : ∀ (is : List Nat) (s : State), Rooted s.res →
    (Prog.forEach (eagerPage o) is : SProg ε Unit).wp (fun _ s' => EagerFilled o is s s')
      (fun _ _ => False) (fun π => ¬ π.Unlinked) s
  | [], s, _ => .nil s
  | i :: is, s, hr => by
      simp only [Prog.forEach, Prog.wp_prog_bind, eagerPage, Prog.wp_bind, wp_onRes,
        Prog.wp_expect]
      refine Prog.wp_mono (allocFrame_spec hr) ?_ (fun _ _ _ => by decide) fun _ hp => hp.linked
      intro f r hf
      refine Prog.wp_mono (frameCap_spec r f) ?_ (fun _ _ => False.elim) fun _ hp => hp.linked
      rintro cap r ⟨rfl, rfl⟩
      refine Prog.wp_mono (insertFrame_spec _ o _ _) ?_ (fun _ _ => False.elim) fun _ hp => hp
      rintro _ s₁ ⟨object, hins, rfl⟩
      refine Prog.wp_mono (eagerPages_spec o is _ (hf.grow.rooted hr)) ?_ (fun _ _ h => h) fun _ hp => hp
      intro _ s₂ hrest
      exact .cons f r object hf hins hrest

end Fill

/-- The state with the new object, still empty. -/
def State.allocObject (s : State) (args : ObjCreateArgs) : State :=
  { s with objects := s.objects.alloc (.new args.size args.rights args.attributes) }

/-- `handle_obj_create` up to the handle: the new object is filled. -/
structure ObjMade (args : ObjCreateArgs) (s s₁ : State) : Prop where
  size_pos : args.size ≠ 0
  aligned : args.size % pageSize4K = 0
  filled : ObjFilled args s.objects.next (s.allocObject args) s₁

theorem handleObjCreate_spec (s : State) (hr : Rooted s.res) (p : Nat) (args : ObjCreateArgs)
    (dmaAnswer : Option Nat) :
    (handleObjCreate p args dmaAnswer).wp
      (fun _ s' => ∃ s₁ idx, ObjMade args s s₁ ∧
        s₁.ValidLoc (allocatedLoc p args.returnCap idx) ∧
        s₁.handleAt (allocatedLoc p args.returnCap idx) = none ∧
        s' = s₁.giveHandle p args.returnCap idx (.object s.objects.next))
      (fun _ s' => s' = s ∨ ObjMade args s s') (fun π => ¬ π.Unlinked) s := by
  simp only [handleObjCreate, Prog.wp_ite, Prog.wp_fail, Prog.wp_bind, wp_newObject]
  refine ⟨fun _ => .inl trivial, fun _ => ⟨fun _ => .inl trivial, fun hsize =>
    ⟨fun _ => .inl trivial, fun _ => ?_⟩⟩⟩
  have hsize' : args.size ≠ 0 ∧ args.size % pageSize4K = 0 := by
    constructor <;> by_contra h <;> exact hsize (by tauto)
  -- the handle, once the object is filled
  have hend : ∀ s₁ : State, ObjFilled args s.objects.next (s.allocObject args) s₁ →
      Prog.wp (do
        let idx ← genericAllocateHandle p args.returnCap
        setAllocatedHandle p args.returnCap idx (.object s.objects.next)
        if args.returnCap then
          modifyProc p fun u => { u with createdHandleCaps := u.createdHandleCaps ++ [idx] }
        pure (.objCreate (newHandle args.returnCap idx)) : Handler SMOSReply)
      (fun _ s' => ∃ s₁ idx, ObjMade args s s₁ ∧
        s₁.ValidLoc (allocatedLoc p args.returnCap idx) ∧
        s₁.handleAt (allocatedLoc p args.returnCap idx) = none ∧
        s' = s₁.giveHandle p args.returnCap idx (.object s.objects.next))
      (fun _ s' => s' = s ∨ ObjMade args s s') (fun π => ¬ π.Unlinked) s₁ := by
    intro s₁ hf
    have hmade : ObjMade args s s₁ := ⟨hsize'.1, hsize'.2, hf⟩
    simp only [Prog.wp_bind]
    refine Prog.wp_mono (genericAllocateHandle_spec s₁ p args.returnCap) ?_ ?_
      fun _ hp => hp.linked
    · rintro idx _ ⟨rfl, hv, he⟩
      simp only [wp_setAllocatedHandle, Prog.wp_ite]
      refine wp_recordCap.mpr ?_
      exact ⟨_, idx, hmade, hv, he, rfl⟩
    · rintro _ _ rfl
      exact .inr hmade
  simp only [Prog.wp_bind, Prog.wp_ite] at hend
  refine ⟨fun hdev => ?_, fun hdev => ?_⟩
  · simp only [Prog.wp_unwrap]
    refine ⟨fun name _ => ⟨fun paddr _ => ?_, fun _ => by decide⟩, fun _ => by decide⟩
    simp only [wp_onRes]
    refine Prog.wp_mono (allocDeviceMem_spec _ paddr args.size) ?_ (fun _ _ => False.elim)
      fun _ hp => hp.linked
    intro fs r hmem
    refine Prog.wp_mono (insertFrames_spec _ _ _ 0) ?_ (fun _ _ => False.elim) fun _ hp => hp
    rintro _ s₁ ⟨object, hins, rfl⟩
    have hf : ObjFilled args s.objects.next (s.allocObject args) _ :=
      .device paddr fs r object hdev hmem hins
    exact hend _ hf
  · have hdev' : args.attributes.device = false := by simpa using hdev
    refine ⟨fun hcont => ?_, fun hcont => ⟨fun heag => ?_, fun heag => ?_⟩⟩
    · simp only [allocateContigPages, Prog.wp_ite, Prog.wp_bind, Prog.wp_unwrap, Prog.wp_gets,
        Prog.wp_modify, Prog.wp_pure, Prog.wp_panic, wp_modifyObject]
      refine ⟨fun _ => ⟨fun allocation _ => ⟨fun hb => ?_, fun _ => by decide⟩, fun _ => by decide⟩,
        fun _ => by decide⟩
      refine Prog.wp_mono (insertFrames_spec _ _ _ 0) ?_ (fun _ _ => False.elim) fun _ hp => hp
      rintro _ s₁ ⟨object, hins, rfl⟩
      rw [Heap.update_self] at hins
      have hf := ObjFilled.contiguous (s := s.allocObject args) (o := s.objects.next) allocation
        object hdev' hcont hb hins
      rw [Heap.update_overwrite]
      exact hend _ hf
    · have hcont' : args.attributes.contiguous = false := by simpa using hcont
      have hr' : Rooted (s.allocObject args).res := hr
      refine Prog.wp_mono (eagerPages_spec s.objects.next _ (s.allocObject args) hr') ?_
        (fun _ _ => False.elim) fun _ hp => hp
      intro _ s₁ hfill
      exact hend _ (.eager s₁ hdev' hcont' heag hfill)
    · have hcont' : args.attributes.contiguous = false := by simpa using hcont
      have heag' : args.attributes.eager = false := by simpa using heag
      exact hend _ (.empty hdev' hcont' heag')

/-- `handle_obj_destroy_internal`; without force, an object with views is a `todo!()`. -/
theorem handleObjDestroyInternal_spec {ε : Type} (s : State) (o : ObjectRef)
    (forceDelete : Bool) :
    (handleObjDestroyInternal o forceDelete : SProg ε Unit).wp
      (fun _ s' => ((s.objects o).associatedViews = [] ∨ forceDelete = true) ∧
        ∃ r', Freed (decide ((s.objects o).associatedViews.length ≠ 0))
          (s.objects o).frames.values s.res r' ∧ s' = { s with res := r' })
      (fun _ _ => False) Panic.Low s := by
  simp only [handleObjDestroyInternal, Prog.wp_bind, wp_getObject, Prog.wp_ite, Prog.wp_panic]
  refine ⟨fun _ => by decide, fun h => ?_⟩
  refine Prog.wp_mono (cleanupFrameTable_spec o) ?_ (fun _ _ => False.elim) fun _ hp => hp
  intro _ s₁ hf
  refine ⟨?_, hf⟩
  by_contra hc
  rw [not_or] at hc
  exact h ⟨hc.1, by simpa using hc.2⟩

/-- `handle_obj_destroy` freed the frames of an object without views. -/
structure ObjDestroyed (p : Nat) (hndl : HandleArg) (loc : HandleLoc) (o : ObjectRef) (r' : Res)
    (s s' : State) : Prop where
  loc_eq : hndl.loc p = some loc
  valid : s.ValidLoc loc
  object : s.handleAt loc = some (.object o)
  noViews : (s.objects o).associatedViews = []
  freed : Freed false (s.objects o).frames.values s.res r'
  eq : s' = ({ s with res := r' } : State).setHandleAt loc none

theorem handleObjDestroy_spec (s : State) (p : Nat) (hndl : HandleArg) :
    (handleObjDestroy p hndl).wp
      (fun _ s' => ∃ loc o r', ObjDestroyed p hndl loc o r' s s') (fun _ s' => s' = s)
      Panic.Low s := by
  simp only [handleObjDestroy, Prog.wp_bind]
  refine Prog.wp_mono (genericGetHandle_spec s p hndl 0) ?_ (fun _ _ h => h) fun _ hp => hp
  rintro h _ ⟨rfl, loc, hloc, hvalid, hh⟩
  rw [Prog.wp_unwrap]
  refine ⟨fun res hres => ?_, fun _ => by decide⟩
  have hobj := hh.symm.trans hres
  cases res with
  | object o =>
    simp only [Prog.wp_bind]
    refine Prog.wp_mono (handleObjDestroyInternal_spec _ o false) ?_ (fun _ _ => False.elim)
      fun _ hp => hp
    rintro _ s₁ ⟨hnv, r', hf, rfl⟩
    have hnv' := hnv.resolve_right (by decide)
    refine Prog.wp_mono (genericCleanupHandle_spec _ p hndl 0) ?_ ?_ fun _ hp => hp
    · rintro _ s₂ ⟨loc', hloc', rfl⟩
      cases hloc.symm.trans hloc'
      exact ⟨loc, o, r', hloc, hvalid, hobj, hnv', by simpa [hnv'] using hf, rfl⟩
    · rintro _ s₂ ⟨-, hno⟩
      refine absurd ?_ (hno loc hloc)
      cases loc with
      | cap idx => exact hvalid
      | table c idx => exact hvalid
  | _ => exact genericInvalidHandleError_spec _ hndl 0

/-! ## Exiting -/

section Exiting

variable {ε : Type}

/-- Taking a handle apart answers no error. -/
theorem destroyResource_spec (s : State) (h : RootServerResource) :
    (destroyResource h : SProg ε Unit).wp (fun _ _ => True) (fun _ _ => False) (fun _ => True)
      s := by
  cases h with
  | window w =>
    exact Prog.wp_mono (handleWindowDestroyInternal_spec s w false) (fun _ _ _ => trivial)
      (fun _ _ => False.elim) fun _ _ => trivial
  | object o =>
    exact Prog.wp_mono (handleObjDestroyInternal_spec s o true) (fun _ _ _ => trivial)
      (fun _ _ => False.elim) fun _ _ => trivial
  | view v =>
    exact Prog.wp_mono (handleUnviewInternal_spec s v) (fun _ _ _ => trivial)
      (fun _ _ => False.elim) fun _ _ => trivial
  | _ => trivial

theorem destroyHandles_spec (t : HandleTable) (s : State) :
    (Prog.forEach (destroyHandle t) (List.range maxHandles) : SProg ε Unit).wp (fun _ _ => True)
      (fun _ _ => False) (fun _ => True) s := by
  refine Prog.wp_forEach (I := fun _ => True) trivial fun idx _ s₁ _ => ?_
  unfold destroyHandle
  cases t idx with
  | none => trivial
  | some h => exact destroyResource_spec s₁ h

/-- The cspace of a process has fewer slots than `UserCSpace::destroy` deletes. -/
theorem deleteUserSlots_panics (caps : Nat → Option Cap) (r : Res) :
    (deleteUserSlots caps : RProg ε Unit) r = .panic .assertionFailed := by
  have hdestroy := UserSlots.destroy_panics (k := UserSlots.newCnode caps) ⟨rfl, rfl⟩
  simp only [deleteUserSlots, Prog.zoom, Prog.expect, Prog.catchErr, hdestroy]

theorem destroyResources_spec (r : Res) (u : UserProcess) (caps : Nat → Option Cap) :
    (destroyResources u caps : RProg ε Unit).wp (fun _ _ => False) (fun _ _ => False)
      (fun _ => True) r := by
  have hdealloc : ∀ (x : Alloc) (r : Res), (deallocRetyped x : RProg ε Unit).wp (fun _ _ => True)
      (fun _ _ => False) (fun _ => True) r := fun x r =>
    Prog.wp_mono (deallocRetyped_spec r x) (fun _ _ _ => trivial) (fun _ _ => False.elim)
      fun _ _ => trivial
  have hslots : ∀ r : Res, (userCSpaceDestroy u.cspace caps : RProg ε Unit).wp
      (fun _ _ => False) (fun _ _ => False) (fun _ => True) r := by
    intro r
    rw [userCSpaceDestroy, Prog.wp_bind, Prog.wp, deleteUserSlots_panics]
    trivial
  simp only [destroyResources, Prog.wp_bind]
  refine Prog.wp_mono (hdealloc _ r) (fun _ r₁ _ => ?_) (fun _ _ h => h) fun _ _ => trivial
  refine Prog.wp_mono (hdealloc _ r₁) (fun _ r₂ _ => ?_) (fun _ _ h => h) fun _ _ => trivial
  refine Prog.wp_mono (hdealloc _ r₂) (fun _ r₃ _ => ?_) (fun _ _ h => h) fun _ _ => trivial
  simp only [deleteCap, kmodify, Prog.wp_modify, freeFrame, Prog.wp_bind, Prog.wp_gets,
    Prog.wp_assert, modifyFrameTable]
  exact ⟨fun _ => ⟨fun _ => ⟨fun _ => ⟨fun _ => hslots _, fun _ => trivial⟩, fun _ => trivial⟩,
    fun _ => trivial⟩, fun _ => trivial⟩

theorem handleProcessExit_spec (s : State) (p : Nat) (caps : Nat → Option Cap) :
    (handleProcessExit p caps : SProg ε Unit).wp (fun _ _ => False) (fun _ _ => False)
      (fun _ => True) s := by
  simp only [handleProcessExit, destroy, Prog.wp_bind, wp_getProc]
  refine ⟨fun u _ => ?_, fun _ _ => trivial⟩
  refine Prog.wp_mono (destroyHandles_spec u.handleTable s) (fun _ s₁ _ => ?_)
    (fun _ _ => False.elim) fun _ _ => trivial
  simp only [wp_modifyProc, wp_onRes]
  exact Prog.wp_mono (destroyResources_spec s₁.res u caps) (fun _ _ => False.elim)
    (fun _ _ => False.elim) fun _ _ => trivial

/-- Whoever exits, and whatever is in its cspace, `ProcessExit` ends the root server. -/
theorem handleProcessExit_panics (s : State) (p : Nat) (caps : Nat → Option Cap) :
    ∃ π, (handleProcessExit p caps : SProg ε Unit) s = .panic π := by
  obtain ⟨π, hπ, -⟩ := Prog.exists_panic (handleProcessExit_spec (ε := ε) s p caps)
  exact ⟨π, hπ⟩

end Exiting

end Smos.RootServer
