/-
Smos.RootServer.SaneTurns — every turn keeps the state sane.

First each effect of `Smos.RootServer.Effects` and each outcome of the
handlers, then whole turns. With that, a step of the machine from a sane
state is a `Turn`, and runs from a sane state pass through sane states
only; `Run.turn_invariant` is the rule for an invariant of such runs.
-/
import Smos.RootServer.TurnSpecs

namespace Smos.RootServer

open Smos.Base

variable {s s' s₁ : State} {p : Nat}

/-! ## Resources -/

namespace Rooted

variable {r r' : Res}

/-- Only the root server's slot and its capability matter. -/
theorem congr (h : Rooted r) (ha : r'.cspace.Allocated rootVSpaceSlot)
    (hk : r'.kernel.caps rootVSpaceSlot = r.kernel.caps rootVSpaceSlot) : Rooted r' :=
  ⟨ha, hk.trans h.cap⟩

/-- Mapping a frame leaves the root server's capability alone: that one is of an address space. -/
theorem mapsFrom {c vspace : Slot} {vaddr : Nat} {rights : CapRights} (h : Rooted r)
    (hm : MapsFrom r c vspace vaddr rights r') : Rooted r' := by
  obtain ⟨r₁, k, hq, hk, rfl⟩ := hm
  have h₁ := hq.grow.rooted h
  obtain ⟨obj, orig, access, m, vs, hc, -, -, -, rfl⟩ := Kernel.frameMap_ok hk
  refine h₁.congr h₁.allocated ?_
  rw [Kernel.enterPage_caps]
  refine Function.update_of_ne ?_ _ _
  rintro rfl
  rw [h₁.cap] at hc
  cases hc

/-- Objects that were made and given back again leave it alone as well. -/
theorem tried (h : Rooted r) (ht : Tried r r') : Rooted r' := ht.grow.rooted h

end Rooted

/-! ## Effects -/

namespace Sane

/-- No page of a view is kept in the slot of the root server's address space. -/
theorem capsApart (h : Sane s) (v : ViewRef) : ∀ c ∈ (s.views v).caps.values, c ≠ rootVSpaceSlot :=
  fun c hc => h.apart (.view v) c (List.mem_append_left _ hc)

/-- So emptying a view's table does not delete that slot. -/
theorem cleaned (h : Sane s) {v : ViewRef} {delete : Bool} {r' : Res}
    (hc : Cleaned delete (s.views v).caps.values s.res r') : Rooted r' :=
  h.rooted.cleaned hc (h.capsApart v)

/-- A page for an object, looked up or new. -/
theorem gotFrame {o : ObjectRef} {objOffset : Nat} {cap : Slot} (h : Sane s)
    (ho : o < s.objects.next) (hg : GotFrame o objOffset cap s s') : Sane s' := by
  cases hg with
  | found => exact h
  | made f r object page _ halloc _ hins _ =>
    obtain ⟨t, -, rfl⟩ := insertFrameAt_ok hins
    have hr := halloc.grow.rooted h.rooted
    exact (h.withRes (r := { r with kernel := r.kernel.writeMem page.obj zeroPage })
      (hr.congr hr.allocated rfl)).updObject ho (h.associated o)

/-- A copy for a view goes to a slot that nobody had, so not to the root server's. -/
theorem copied {v : ViewRef} {offset : Nat} {src slot : Slot} {cs : CSpace} {k : Kernel}
    {view : View} (h : Sane s) (hv : v < s.views.next)
    (hc : Copied v offset src s s' slot cs k view) : Sane s' := by
  have hslot : slot ≠ rootVSpaceSlot := by
    rintro rfl
    exact hc.fresh h.rooted.allocated
  obtain ⟨cap, cap', -, -, hk, -⟩ := Kernel.copy_ok hc.copy
  have hr : Rooted { s.res with cspace := cs, kernel := k } := by
    refine h.rooted.congr ((hc.allocated _).mpr (.inl h.rooted.allocated)) ?_
    show k.caps _ = _
    rw [hk]
    exact Kernel.setCap_caps_of_ne hslot.symm _
  obtain ⟨t, ht, hview⟩ := insertCapAt_ok hc.insert
  rw [hc.eq]
  refine (h.withRes hr).updView hv (by rw [hview]) (by rw [hview]) ?_
  intro c hcs
  rw [hview] at hcs
  rcases List.mem_append.mp hcs with hcs | hcs
  · rcases List.mem_cons.mp ((insertAt_ok ht).1.mem_iff.mp hcs) with rfl | hcs
    · exact hslot
    · exact h.capsApart v c hcs
  · exact h.apart (.view v) c (List.mem_append_right _ hcs)

/-- An object's page, and the copy of it for the view. -/
theorem populated {v : ViewRef} {o : ObjectRef} {offset : Nat} (h : Sane s)
    (ho : (s.views v).boundObject = some o) (hv : v < s.views.next)
    (hp : Populated v o offset s s') : Sane s' := by
  obtain ⟨-, cap, s₁, slot, cs, k, view, hg, hc⟩ := hp
  refine (h.gotFrame (h.boundObject v o ho) hg).copied ?_ hc
  cases hg <;> exact hv

/-- The page is there, or the object that the view is bound to has it. -/
theorem sourcePage {v : ViewRef} {offset : Nat} (h : Sane s) (hv : v < s.views.next)
    (hs : SourcePage v offset s s') : Sane s' := by
  cases hs with
  | there => exact h
  | filled o s' _ ho hp => exact h.populated ho hv hp

/-- Mapping changes resources only. -/
theorem mapped {v : ViewRef} {offset : Nat} {vspace : Slot} {addr : Nat} (h : Sane s)
    (hm : Mapped v offset vspace addr s s') : Sane s' := by
  obtain ⟨cap, r, -, hmf, rfl⟩ := hm
  exact h.withRes (h.rooted.mapsFrom hmf)

/-- A message changes only its server's ring. -/
theorem notified {v : ViewRef} (h : Sane s) (hn : Notified v s s') : Sane s' := by
  unfold Notified at hn
  split at hn
  · subst hn
    exact h.updServer _ _
  · subst hn
    exact h

/-- `swap_remove` adds nothing. -/
theorem mem_swapRemove {xs : List Nat} {pos x : Nat} (hx : x ∈ swapRemove xs pos) : x ∈ xs := by
  unfold swapRemove at hx
  split at hx
  · rename_i last hlast
    have := List.dropLast_subset _ hx
    rcases List.mem_or_eq_of_mem_set this with h | h
    · exact h
    · exact h ▸ List.mem_of_getLast? hlast
  · exact hx

/-- The object of a view forgets it. -/
theorem dissociated {v : ViewRef} {o : ObjectRef} {pos : Nat} (h : Sane s)
    (hd : Dissociated v o pos s s') : Sane s' := by
  rw [hd.eq]
  exact h.updObject (h.boundObject v o hd.boundObject) fun x hx =>
    h.associated o x (mem_swapRemove hx)

/-- A window that goes takes its view along, or leaves it. -/
theorem windowDestroyed {w : WindowRef} {destroyView : Bool} (h : Sane s)
    (hd : WindowDestroyed w destroyView s s') : Sane s' := by
  cases hd with
  | unbound => exact h
  | kept v s' _ _ hn => exact h.notified hn
  | destroyed v o pos s₁ s₂ r' _ _ hn hdis hc =>
    exact ((h.notified hn).dissociated hdis).withRes (h.cleaned hc)

/-- The window is free again, and the object forgets the view. -/
theorem unviewed {v : ViewRef} {o : ObjectRef} {pos : Nat} {r' : Res} (h : Sane s)
    (hv : v < s.views.next) (hu : Unviewed v o pos r' s s') : Sane s' := by
  have h₁ := (h.withRes (h.cleaned hu.cleaned)).bindWindow (v := none) (h.boundWindow v hv) (by simp)
  exact h₁.dissociated hu.dissociated

/-- A new view between a window and an object that are both there. -/
theorem linkView {w : WindowRef} {o : ObjectRef} {x : View} (h : Sane s)
    (hw : w < s.windows.next) (ho : o < s.objects.next) (hx : x.boundWindow = w)
    (hxo : x.boundObject = some o) (hs : x.slots = []) : Sane (s.linkView w o x) := by
  have h₁ : Sane { s with views := s.views.alloc x } :=
    h.allocView (hx ▸ hw) (fun o' ho' => by rw [hxo] at ho'; cases ho'; exact ho)
      (by rw [hs]; simp)
  have h₂ := h₁.bindWindow hw (v := some s.views.next) (by
    rintro _ ⟨⟩
    exact Nat.lt_succ_self _)
  refine h₂.updObject ho fun v hv => ?_
  rcases List.mem_append.mp hv with hv | hv
  · exact Nat.lt_succ_of_lt (h.associated o v hv)
  · rw [List.mem_singleton.mp hv]
    exact Nat.lt_succ_self _

/-! ## Outcomes of the handlers -/

/-- The windows of a process are allocated. -/
theorem windows_lt (h : Sane s) {u : UserProcess} (hu : s.procCells p = .activeProcess u) :
    ∀ w ∈ u.initialWindows ++ u.windows, w < s.windows.next := by
  intro w hw
  exact h.procWindows p w (by simpa [State.initialOf, State.windowsOf, hu] using hw)

/-- A handle for something that is allocated, as long as it is no registration. -/
theorem giveHandle (h : Sane s) {returnCap : Bool} {idx : Nat} {x : RootServerResource}
    (hloc : s.ValidLoc (allocatedLoc p returnCap idx)) (hx : s.InRange x)
    (hreg : ∀ v, x ≠ .windowRegistration v) : Sane (s.giveHandle p returnCap idx x) := by
  have h₁ := h.setHandleAt hloc (x := some x) (by rintro _ ⟨⟩; exact hx)
    (by rintro v ⟨⟩; exact absurd rfl (hreg v))
  refine h₁.updProc ?_ ?_ ?_
  · intro u
    cases returnCap <;> rfl
  · intro u idx' y hy
    cases returnCap <;> exact hy
  · intro u hu w hw
    refine h₁.windows_lt hu w ?_
    cases returnCap <;> exact hw

/-- A process has one window more. -/
theorem pushWindow (h : Sane s) {w : WindowRef} (hw : w < s.windows.next) :
    Sane (s.updProc p fun u => { u with windows := u.windows ++ [w] }) := by
  refine h.updProc (fun _ => rfl) (fun _ _ _ hx => hx) fun u hu w' hw' => ?_
  simp only [← List.append_assoc] at hw'
  rcases List.mem_append.mp hw' with hw' | hw'
  · exact h.windows_lt hu w' hw'
  · exact List.mem_singleton.mp hw' ▸ hw

/-- A process has one view more. -/
theorem pushView (h : Sane s) (v : ViewRef) :
    Sane (s.updProc p fun u => { u with views := u.views ++ [v] }) :=
  h.updProc (fun _ => rfl) (fun _ _ _ hx => hx) fun u hu => h.windows_lt (u := u) hu

/-- The new window is in range once it is allocated. -/
theorem windowCreated {args : WindowCreateArgs} (h : Sane s) (hc : WindowCreated p args s s') :
    Sane s' := by
  obtain ⟨idx, hv, -, rfl⟩ := hc.made
  have h₁ := h.allocWindow (x := ⟨args.baseVaddr, args.size, none⟩) rfl
  refine (h₁.giveHandle (x := .window s.windows.next) ?_ (Nat.lt_succ_self _) (by simp)).pushWindow ?_
  · exact (State.validLoc_congr (s := s) rfl).mpr hv
  · simp only [State.giveHandle, State.updProc_windows, State.setHandleAt_windows]
    exact Nat.lt_succ_self _

/-- Losing a window is no matter of slots. -/
theorem slots_dropWindow (w : WindowRef) (u : UserProcess) : (dropWindow w u).slots = u.slots := by
  unfold dropWindow
  split <;> rfl

/-- Windows only go from the list of the process. -/
theorem windowRemoved {hndl : HandleArg} {loc : HandleLoc} {w : WindowRef} (h : Sane s)
    (hr : WindowRemoved p hndl loc w s₁ s s') : Sane s' := by
  have h₁ := h.windowDestroyed hr.destroyed
  have hvalid : s₁.ValidLoc loc :=
    (State.validLoc_congr (s := s) (by rw [hr.destroyed.frame])).mpr hr.valid
  rw [hr.eq]
  refine Sane.setHandleAt ?_ ((State.validLoc_updProc _ loc).mpr hvalid) (by simp) (by simp)
  refine h₁.updProc (slots_dropWindow w) ?_ ?_
  · intro u idx x hx
    unfold dropWindow at hx
    split at hx <;> exact hx
  · intro u hu w' hw'
    refine h₁.windows_lt hu w' ?_
    unfold dropWindow at hw'
    split at hw'
    · rcases List.mem_append.mp hw' with hw' | hw'
      · exact List.mem_append_left _ hw'
      · exact List.mem_append_right _ (mem_swapRemove hw')
    · exact hw'

/-- A registration is a view without an object. -/
theorem windowRegistered {args : WindowRegisterArgs} {srv : ServerRef} {w : WindowRef} {idx : Nat}
    (h : Sane s) (hr : WindowRegistered p args srv w idx s s') : Sane s' := by
  have hw : w < s.windows.next := h.handles _ _ hr.window
  have h₁ := h.allocView (x := View.new w none (some (srv, args.clientId, args.reference)) .all 0 0)
    hw (by simp [View.new]) (by simp [View.slots, View.new, Table.values_new])
  have h₂ := h₁.bindWindow hw (v := some s.views.next) (by
    rintro _ ⟨⟩
    exact Nat.lt_succ_self _)
  rw [hr.eq]
  refine h₂.setHandleAt ((State.validLoc_congr (s := s) rfl).mpr hr.valid) ?_ ?_
  · rintro _ ⟨⟩
    exact Nat.lt_succ_self _
  · rintro v ⟨⟩
    simp [View.new]

/-- The handle goes after the window has been unbound. -/
theorem windowDeregistered {hndl : Nat} {v : ViewRef} {r' : Res} (h : Sane s)
    (hd : WindowDeregistered p hndl v r' s s') : Sane s' := by
  have hv : v < s.views.next := h.handles _ _ hd.registration
  have h₁ := (h.withRes (h.cleaned hd.cleaned)).bindWindow (v := none) (h.boundWindow v hv) (by simp)
  rw [hd.eq]
  exact h₁.setHandleAt ((State.validLoc_congr (s := s) rfl).mpr hd.valid) (by simp) (by simp)

/-- The handles of an accepted request are of a window and an object that are there. -/
theorem viewAccepted_lt {args : ViewArgs} {w : WindowRef} {o : ObjectRef} (h : Sane s)
    (ha : ViewAccepted p args w o s) : w < s.windows.next ∧ o < s.objects.next := by
  obtain ⟨_, -, hw⟩ := ha.window
  obtain ⟨_, -, ho⟩ := ha.object
  exact ⟨h.handles _ _ hw, h.handles _ _ ho⟩

/-- Linking is done before the handle is looked for, and stays without one. -/
theorem viewLinked {args : ViewArgs} {w : WindowRef} {o : ObjectRef} (h : Sane s)
    (ha : ViewAccepted p args w o s) : Sane (s.linkView w o (args.newView w o)) := by
  obtain ⟨hw, ho⟩ := h.viewAccepted_lt ha
  exact h.linkView hw ho rfl rfl (by simp [View.slots, ViewArgs.newView, View.new])

/-- With the handle it is the whole of the turn. -/
theorem viewMade {args : ViewArgs} {w : WindowRef} {o : ObjectRef} {idx : Nat} (h : Sane s)
    (hm : ViewMade p args w o idx s s') : Sane s' := by
  have h₁ := h.viewLinked hm.accepted
  rw [hm.eq]
  refine (h₁.setHandleAt ((State.validLoc_congr (s := s) rfl).mpr hm.valid) ?_ (by simp)).pushView _
  rintro _ ⟨⟩
  exact Nat.lt_succ_self _

end Sane

/-- Entering frames changes the table of the object only. -/
theorem FramesInserted.eq {offset : Nat} {fs : List ObjectFrame} {x y : AnonymousMemoryObject}
    (h : FramesInserted offset fs x y) : y = { x with frames := y.frames } := by
  induction h with
  | nil => rfl
  | cons insert rest ih =>
    obtain ⟨t, -, rfl⟩ := insertFrameAt_ok insert
    rw [ih]

namespace Sane

/-- An object whose table changes. -/
theorem setFrames (h : Sane s) {o : ObjectRef} (ho : o < s.objects.next)
    (object : AnonymousMemoryObject)
    (heq : object.associatedViews = (s.objects o).associatedViews) :
    Sane { s with objects := s.objects.update o fun _ => object } :=
  h.updObject ho fun v hv => h.associated o v (heq ▸ hv)

/-- A frame from the frame table. -/
theorem frameAllocated {f : Nat} {r : Res} (h : Sane s) (hf : FrameAllocated s.res f r) :
    Sane { s with res := r } :=
  h.withRes (hf.grow.rooted h.rooted)

/-- All pages of an object, one after the other. -/
theorem eagerFilled {o : ObjectRef} {is : List Nat} (h : Sane s) (ho : o < s.objects.next)
    (hf : EagerFilled o is s s') : Sane s' := by
  induction hf with
  | nil s => exact h
  | cons f r object alloc insert _ ih =>
    obtain ⟨t, -, rfl⟩ := insertFrameAt_ok insert
    exact ih ((h.frameAllocated alloc).setFrames ho _ rfl) ho

/-- Whatever kind of object it is, only its own table is filled. -/
theorem objFilled {args : ObjCreateArgs} {o : ObjectRef} (h : Sane s) (ho : o < s.objects.next)
    (hf : ObjFilled args o s s') : Sane s' := by
  cases hf with
  | device paddr fs r object _ memory inserted =>
    have hr : Rooted r := by
      cases memory with
      | cached => exact h.rooted
      | made r₁ frames =>
        have := frames.quiet.grow.rooted h.rooted
        exact ⟨this.allocated, this.cap⟩
    exact (h.withRes hr).setFrames ho object (by rw [inserted.eq])
  | contiguous allocation object _ _ _ inserted =>
    exact (h.withDma { s.dma with allocations := allocation :: s.dma.allocations }).setFrames ho
      object (by rw [inserted.eq])
  | eager _ _ _ _ filled => exact h.eagerFilled ho filled
  | empty => exact h

/-- A new object, filled. -/
theorem objMade {args : ObjCreateArgs} (h : Sane s) (hm : ObjMade args s s') : Sane s' :=
  (h.allocObject (x := .new args.size args.rights args.attributes) rfl).objFilled
    (Nat.lt_succ_self _) hm.filled

/-- Its frames are given back, then its handle goes. -/
theorem objDestroyed {hndl : HandleArg} {loc : HandleLoc} {o : ObjectRef} {r' : Res} (h : Sane s)
    (hd : ObjDestroyed p hndl loc o r' s s') : Sane s' := by
  rw [hd.eq]
  exact (h.withRes (h.rooted.freed hd.freed)).setHandleAt
    ((State.validLoc_congr (s := s) rfl).mpr hd.valid) (by simp) (by simp)

/-- The ring of a server: a window, an object and the view between them. -/
theorem linkRing (h : Sane s) (base : Nat) : Sane (s.linkRing base) := by
  have h₁ := (h.allocWindow (x := ⟨base, pageSize4K, none⟩) rfl).allocObject
    (x := .new pageSize4K .all .default) rfl
  exact h₁.linkView (Nat.lt_succ_self _) (Nat.lt_succ_self _) rfl rfl
    (by simp [View.slots, View.new])

/-- The first half of publishing ends with the window and the view in the process's lists. -/
theorem publishing {args : ConnPublishArgs} {f : Nat} {r₁ r₂ : Res}
    {object : AnonymousMemoryObject} {page : PageEntry} (h : Sane s)
    (hp : Publishing p args f r₁ r₂ object page s s') : Sane s' := by
  have hr₂ : Rooted r₂ := hp.frame.grow.rooted (h.rooted.tried hp.tried)
  obtain ⟨t, -, hobj⟩ := insertFrameAt_ok hp.insert
  have h₁ := ((h.linkRing args.ntfnBuffer).withRes
    (r := { r₂ with kernel := r₂.kernel.writeMem page.obj (s.initRing (r₂.kernel.mem page.obj)) })
    (hr₂.congr hr₂.allocated rfl)).setFrames (o := s.objects.next)
    (Nat.lt_succ_self _) object (by rw [hobj])
  rw [hp.eq]
  exact (h₁.pushWindow (Nat.lt_succ_self _)).pushView _

/-- The second half makes the server and gives out the handle. -/
theorem published {args : ConnPublishArgs} {f idx : Nat} {srv : Server} (h : Sane s₁)
    (hp : Published p args f idx srv s s₁ s') : Sane s' := by
  rw [hp.eq]
  refine ((h.allocServer srv).withPublished _).setHandleAt
    ((State.validLoc_congr (s := s₁) rfl).mpr hp.valid) ?_ (by simp)
  rintro _ ⟨⟩
  exact Nat.lt_succ_self _

/-- A fault that was answered: the reply object is not the root server's slot, so deleting it is
harmless. -/
theorem answered {v : ViewRef} {offset : Nat} (h : Sane s) (hv : v < s.views.next)
    (ha : Answered v offset s s') : Sane s' := by
  cases ha with
  | idle => exact h
  | answered pending s₁ r' hp hm hd =>
    have h₁ := h.mapped hm
    obtain ⟨cap, r, -, -, rfl⟩ := hm
    have hne : pending.reply.1 ≠ rootVSpaceSlot :=
      h.apart (.view v) _ (List.mem_append_right _ (by simp [hp]))
    have hr : Rooted { r with kernel := r.kernel.replySend pending.reply.1 } :=
      h₁.rooted.congr h₁.rooted.allocated (by simp)
    refine (h₁.withRes (hr.deallocated hd hne)).updView hv rfl rfl fun c hc => ?_
    exact h.capsApart v c (by simpa [View.slots] using hc)

/-- The registration is no other view than before, although pages were entered in between. -/
theorem pageMapped {args : PageMapArgs} {dst src : ViewRef} {w : WindowRef} {cap slot : Slot}
    {cs : CSpace} {k : Kernel} {view : View} {s₂ : State} (h : Sane s)
    (hm : PageMapped p args dst src w cap slot cs k view s₁ s₂ s s') : Sane s' := by
  have hdst : dst < s.views.next := h.handles _ _ hm.registration
  have hsrc : src < s.views.next := h.boundView w src hm.bound
  have hnext₁ : s₁.views.next = s.views.next := by
    cases hm.source with
    | there => rfl
    | filled o _ _ _ hp =>
      obtain ⟨-, _, _, _, _, _, _, hg, hc⟩ := hp
      rw [hc.eq]
      cases hg <;> rfl
  have hnext₂ : s₂.views.next = s₁.views.next := by rw [hm.copied.eq]; rfl
  refine ((h.sourcePage hsrc hm.source).copied ?_ hm.copied).answered ?_ hm.answered
  · rw [hnext₁]; exact hdst
  · rw [hnext₂, hnext₁]; exact hdst

/-- Waiting is nothing that `Sane` speaks of. -/
theorem blockOn (h : Sane s) (pid : Pid) : Sane (s.blockOn pid) :=
  h.withRes (h.rooted.congr h.rooted.allocated rfl)

/-- Nor is waking up. -/
theorem resume (h : Sane s) (reply : Alloc) : Sane (s.resume reply) :=
  h.withRes (h.rooted.congr h.rooted.allocated (by simp))

/-- A fault that is forwarded leaves the reply object with the view, so it must be none of the
root server's. -/
theorem faulted {reply : Alloc} {addr : Nat} {x : Option FaultReply} (h : Sane s)
    (hreply : reply.1 ≠ rootVSpaceSlot) (hf : Faulted p reply addr s x s') : Sane s' := by
  cases hf with
  | nowhere => exact h
  | unbound => exact h
  | forwarded w v srv clientId reference u _ bound =>
    have h₁ := h.updView (f := fun view => { view with
      pendingFault := some ⟨reply, addr, u.vspace.1⟩ }) (h.boundView w v bound) rfl rfl
      fun c hc => by
        rcases List.mem_append.mp hc with hc | hc
        · exact h.capsApart v c hc
        · simp only [Option.map_some, Option.toList_some, List.mem_singleton] at hc
          exact hc ▸ hreply
    exact h₁.updServer srv fun server => { server with
      ntfnBuffer := server.ntfnBuffer ++
        [.vmFault clientId reference (roundDown (addr - (s.windows w).start))] }
  | served w v u s₁ s' _ bound source _ hm =>
    exact (h.sourcePage (h.boundView w v bound) source).mapped hm

/-- The objects of the initial windows give back their frames. -/
theorem allUnloaded {ws : List WindowRef} (h : Sane s) (hu : AllUnloaded ws s s') : Sane s' := by
  induction hu with
  | nil s => exact h
  | cons first _ ih =>
    refine ih ?_
    have hr := (h.rooted.freed first.freed).cleaned first.cleaned (h.capsApart _)
    rw [first.eq]
    exact h.withRes hr

/-- The new reply object is in a slot that nobody had. -/
theorem renewed {r' : Res} {reply : Alloc} (h : Sane s) (hr : Renewed r' reply s s') :
    Sane s' := by
  have hne : reply.1 ≠ rootVSpaceSlot := by
    intro heq
    exact hr.fresh (heq ▸ h.rooted.allocated)
  rw [hr.eq]
  exact (h.withRes (hr.quiet.grow.rooted h.rooted)).withReply hne

/-- An entry is of nothing that a handle must be in range for. -/
theorem entered (h : Sane s) (he : Entered s s') : Sane s' := by
  induction he with
  | refl => exact h
  | @lists s₁ _ servers connections irqs next rings ih =>
    exact { ih with
      handles := fun loc y hl => inRange_mono (ih.handles loc y hl) (Nat.le_refl _)
        (Nat.le_refl _) (Nat.le_refl _) (Nat.le_of_eq next.symm) }
  | @handle s₁ _ loc x valid new ih =>
    refine ih.setHandleAt valid (fun y hy => ?_) fun v hv => (new _ hv).elim
    have hreg := new y hy
    cases y <;> trivial
  | @created s₁ _ p idx ih =>
    exact ih.updProc (fun _ => rfl) (fun _ _ _ hx => hx) fun u hu => ih.windows_lt (u := u) hu

theorem beside (h : Sane s) (hb : Beside s s') : Sane s' :=
  (h.entered hb.entered).withRes (hb.quiet.grow.rooted h.rooted)

theorem severed (h : Sane s) (hd : Severed s s') : Sane s' := by
  obtain ⟨c, hres⟩ := hd.res
  refine (h.entered hd.entered).withRes (r := s'.res) ?_
  rw [hres]
  exact h.rooted.revoke c

/-- The reply object a process is waited for with is not the root server's slot. -/
theorem awaits (h : Sane s) (proc : Nat) (pid : Pid) : Sane (s.awaits proc pid) := by
  have h₁ : Sane (s.updProc proc fun u => { u with waiter := some s.reply }) := by
    refine h.updSlots (fun u hu c hc => ?_) (fun _ _ _ hx => hx) fun u hu =>
      h.windows_lt (u := u) hu
    rcases List.mem_append.mp hc with hc | hc
    · refine h.apart (.proc proc) c ?_
      simp only [State.held, hu]
      exact List.mem_append_left _ hc
    · simp only [Option.map_some, Option.toList_some, List.mem_singleton] at hc
      exact hc ▸ h.apart .reply _ (List.mem_singleton_self _)
  exact h₁.blockOn pid

end Sane

/-! ## Whole turns -/

/-- A store changes the bytes of one frame. -/
theorem Rooted.userWrite {r : Res} (h : Rooted r) (vspace : Slot) (vaddr byte : Nat) :
    Rooted { r with kernel := r.kernel.userWrite vspace vaddr byte } := by
  refine h.congr h.allocated ?_
  unfold Kernel.userWrite
  split
  · split
    · split <;> rfl
    · rfl
  · rfl

/-- Every turn keeps the state sane. -/
theorem Sane.turn {op : Op} (h : Sane s) (ht : Turn s op s') : Sane s' := by
  cases ht with
  | refused => exact h
  | windowCreate p u _ hc => exact h.windowCreated hc
  | windowDestroy p u loc w s₁ _ hr => exact h.windowRemoved hr
  | windowRegister p u srv w idx _ hr => exact h.windowRegistered hr
  | windowDeregister p u v r' _ hd => exact h.windowDeregistered hd
  | objCreate p u s₁ idx _ hm valid _ =>
    refine (h.objMade hm).giveHandle valid ?_ (by simp)
    have hnext : s.objects.next < s₁.objects.next := by
      have hall : (s.allocObject _).objects.next = s₁.objects.next := hm.filled.objectsNext
      rw [← hall]
      exact Nat.lt_succ_self _
    exact hnext
  | objLeft p u _ hm => exact h.objMade hm
  | objDestroy p u loc o r' _ hd => exact h.objDestroyed hd
  | view p u w o idx _ hm => exact h.viewMade hm
  | viewLeft p u w o _ ha _ => exact h.viewLinked ha
  | unview p u v o pos r' s₁ _ valid handle hu =>
    refine (h.unviewed (h.handles _ _ handle) hu).setHandleAt ?_ (by simp) (by simp)
    exact (State.validLoc_congr (s := s) (SameShape.unviewed hu).procCells).mpr valid
  | connPublish p u f r₁ r₂ object page s₁ idx srv _ hp hp' => exact (h.publishing hp).published hp'
  | connTried p u r' _ hr => exact h.withRes (h.rooted.tried hr)
  | connLeft p u f r₁ r₂ object page _ hp => exact h.publishing hp
  | pageMap p u dst src w cap slot cs k view s₁ s₂ _ hm => exact h.pageMapped hm
  | loadComplete p u s₁ _ hu =>
    have h₁ := h.allUnloaded hu
    refine h₁.updProc (fun _ => rfl) (fun _ _ _ hx => hx) fun u' hu' w hw => ?_
    exact h₁.windows_lt hu' w (List.mem_append_right _ hw)
  | registry p u _ hb => exact h.beside hb
  | connDestroy p u _ hd => exact h.severed hd
  | processWait p u proc r' reply _ renewed => exact (h.awaits _ _).renewed renewed
  | faultServed p u s₁ _ hf =>
    exact ((h.blockOn _).faulted (h.apart .reply _ (List.mem_singleton_self _)) hf).resume _
  | faultLeft p u x s₁ r' reply _ hf _ renewed =>
    exact ((h.blockOn _).faulted (h.apart .reply _ (List.mem_singleton_self _)) hf).renewed renewed
  | takeNotification srv => exact h.updServer srv _
  | userWrite p u _ => exact h.withRes (h.rooted.userWrite _ _ _)

/-- The panics an operation can end in: only a teardown reaches a broken link, and no
fault or `PageMap` fails to insert into a table. -/
def Op.MayPanic (s : State) (π : Panic) : Op → Prop
  | .windowDestroy _ hndl => π.Low ∨ ∃ p loc w, hndl.loc p = some loc ∧
      s.handleAt loc = some (.window w) ∧ s.Astray w
  | .windowDeregister _ hndl => π.Low ∨ ∃ p v,
      s.handleAt (.table p hndl) = some (.windowRegistration v) ∧ (s.views v).boundObject ≠ none
  | .unview _ hndl => π.Low ∨ ∃ p v,
      s.handleAt (.table p hndl) = some (.view v) ∧ ¬ s.Associated v
  | .objCreate _ _ _ | .connPublish _ _ => ¬ π.Unlinked
  | .processExit _ _ => True
  | _ => π.Low

/-- The low-level panics can come in any turn. -/
theorem Op.mayPanic_of_low {π : Panic} (h : π.Low) (op : Op) : op.MayPanic s π := by
  cases op <;> first | exact h | exact .inl h | exact h.linked | trivial

/-- Getting a new reply object fails in no other way than by a panic. -/
theorem renewReply_spec {ε : Type} (hr : Rooted s.res) :
    (renewReply : SProg ε Unit).wp (fun _ s' => ∃ r' reply, Renewed r' reply s s')
      (fun _ _ => False) Panic.Low s := by
  simp only [renewReply, Prog.wp_bind, wp_onRes, Prog.wp_expect]
  refine Prog.wp_mono (allocRetype_spec hr _) ?_ (fun _ _ _ => by decide) fun _ hp => hp
  rintro reply r' ⟨hq, hfresh, hall, k, hk, -⟩
  exact ⟨r', reply, hq, hfresh, hall, plain_of_retype hk, rfl⟩

/-- A turn of an acting process is what its handler makes of the state. -/
theorem invoke_spec {α : Type} {pid : Pid} {handler : Nat → Handler α} {op : Op}
    (hh : ∀ p u, Acting s pid p u →
      (handler p).wp (fun _ s' => Turn s op s') (fun _ s' => Turn s op s')
        (fun π => op.MayPanic s π) s) :
    (invoke pid handler).wp (fun _ s' => Turn s op s') (fun _ s' => Turn s op s')
      (fun π => op.MayPanic s π) s := by
  simp only [invoke, Prog.wp_bind, Prog.wp_pure]
  refine Prog.wp_mono (procCell_spec s pid) ?_ (fun _ _ => False.elim)
    fun _ hp => op.mayPanic_of_low hp
  rintro p s ⟨rfl, u, hact⟩
  exact hh p u hact

/-- A fault is served at once, or left with a new reply object for the next one. -/
theorem faultTurn_spec {ε : Type} {E : ε → State → Prop} (h : Sane s) (pid : Pid) (addr : Nat) :
    (faultTurn pid addr : SProg ε Unit).wp (fun _ s' => Turn s (.vmFault pid addr) s') E
      Panic.Low s := by
  simp only [faultTurn, Prog.wp_bind]
  refine Prog.wp_mono (procCell_spec s pid) ?_ (fun _ _ => False.elim) fun _ hp => hp
  rintro p s ⟨rfl, u, hact⟩
  simp only [Prog.wp_gets, wp_onRes, kmodify, Prog.wp_modify]
  have hb := h.blockOn pid
  refine Prog.wp_mono (handleVmFault_spec hb p s.reply addr) ?_ (fun _ _ => False.elim)
    fun _ hp => hp
  intro x s₁ hf
  have hleft : x ≠ some ⟨true⟩ →
      (renewReply : SProg ε Unit).wp (fun _ s' => Turn s (.vmFault pid addr) s') E Panic.Low s₁ := by
    intro hx
    have h₁ := hb.faulted (h.apart .reply _ (List.mem_singleton_self _)) hf
    refine Prog.wp_mono (renewReply_spec h₁.rooted) ?_ (fun _ _ => False.elim) fun _ hp => hp
    rintro _ s' ⟨r', reply, hren⟩
    exact .faultLeft p u x s₁ r' reply hact hf hx hren
  rcases x with _ | ⟨_ | _⟩
  · exact hleft (by simp)
  · exact hleft (by simp)
  · simp only [wp_onRes, Prog.wp_modify]
    exact .faultServed p u s₁ hact hf

/-- Who waits for a process that has ended already gets an answer that cannot be sent. -/
theorem waitTurn_spec (h : Sane s) (pid : Pid) (hndl : Nat) :
    (waitTurn pid hndl).wp (fun _ s' => Turn s (.processWait pid hndl) s') (fun _ s' => s' = s)
      Panic.Low s := by
  simp only [waitTurn, Prog.wp_bind]
  refine Prog.wp_mono (procCell_spec s pid) ?_ (fun _ _ => False.elim) fun _ hp => hp
  rintro p s ⟨rfl, u, hact⟩
  simp only [Prog.wp_gets, handleProcessWait, Prog.wp_bind, Prog.wp_catchErr, Prog.wp_fail]
  refine Prog.wp_mono (getHandle_spec s p hndl) ?_ (fun _ _ he => he) fun _ hp => hp
  rintro x s ⟨rfl, -, -⟩
  simp only [Prog.wp_unwrap]
  refine ⟨fun y _ => ?_, fun _ => by decide⟩
  cases y with
  | process proc =>
    simp only [Prog.wp_ite, Prog.wp_panic, Prog.wp_bind, Prog.wp_gets]
    refine ⟨fun _ => by decide, fun _ => ?_⟩
    cases s.procCells proc with
    | activeProcess u' =>
      simp only [Prog.wp_bind, Prog.wp_gets, wp_modifyProc, Prog.wp_pure, wp_onRes, kmodify,
        Prog.wp_modify]
      refine Prog.wp_mono (renewReply_spec (h.awaits proc pid).rooted) ?_ (fun _ _ => False.elim)
        fun _ hp => hp
      rintro _ s' ⟨r', reply, hren⟩
      exact .processWait p u proc r' reply hact hren
    | zombieProcess pid' =>
      simp only [procsSet, Prog.wp_bind, Prog.wp_ite, Prog.wp_modify, Prog.wp_pure,
        replyProcessWait, Prog.wp_panic]
      exact ⟨fun _ => by decide, fun _ => by decide⟩
  | _ => exact rfl

/-- The machine's turns are the ones `Turn` lists. -/
theorem exec_spec (h : Sane s) (op : Op) :
    (exec op).wp (fun _ s' => Turn s op s') (fun _ s' => Turn s op s')
      (fun π => op.MayPanic s π) s := by
  -- a handler that changes nothing when it answers an error
  have hrefuse : ∀ s', s' = s → Turn s op s' := by
    rintro _ rfl
    exact .refused op
  cases op with
  | windowCreate pid args =>
    refine invoke_spec fun p u hact => Prog.wp_mono (handleWindowCreate_spec s p args) ?_
      (fun _ => hrefuse) fun _ hp => hp
    exact fun _ s' hc => .windowCreate p u hact hc
  | windowDestroy pid hndl =>
    refine invoke_spec fun p u hact => Prog.wp_mono (handleWindowDestroy_spec s p hndl) ?_
      (fun _ => hrefuse) fun _ hp => hp.imp_right fun h => ⟨p, h⟩
    rintro _ s' ⟨loc, w, s₁, hr⟩
    exact .windowDestroy p u loc w s₁ hact hr
  | windowRegister pid args =>
    refine invoke_spec fun p u hact => Prog.wp_mono (handleWindowRegister_spec s p args) ?_
      (fun _ => hrefuse) fun _ hp => hp
    rintro _ s' ⟨srv, w, idx, hr⟩
    exact .windowRegister p u srv w idx hact hr
  | windowDeregister pid hndl =>
    refine invoke_spec fun p u hact => Prog.wp_mono (handleWindowDeregister_spec s p hndl) ?_
      (fun _ => hrefuse) fun _ hp => hp.imp_right fun h => ⟨p, h⟩
    rintro _ s' ⟨v, r', hd⟩
    exact .windowDeregister p u v r' hact hd
  | objCreate pid args dmaAnswer =>
    refine invoke_spec fun p u hact =>
      Prog.wp_mono (handleObjCreate_spec s h.rooted p args dmaAnswer) ?_ ?_ fun _ hp => hp
    · rintro _ s' ⟨s₁, idx, hm, hv, he, rfl⟩
      exact .objCreate p u s₁ idx hact hm hv he
    · rintro _ s' (rfl | hm)
      · exact .refused _
      · exact .objLeft p u hact hm
  | objDestroy pid hndl =>
    refine invoke_spec fun p u hact => Prog.wp_mono (handleObjDestroy_spec s p hndl) ?_
      (fun _ => hrefuse) fun _ hp => hp
    rintro _ s' ⟨loc, o, r', hd⟩
    exact .objDestroy p u loc o r' hact hd
  | view pid args =>
    refine invoke_spec fun p u hact => Prog.wp_mono (handleView_spec s p args) ?_ ?_
      fun _ hp => hp
    · rintro _ s' ⟨w, o, idx, hm⟩
      exact .view p u w o idx hact hm
    · rintro _ s' (rfl | ⟨w, o, ha, hfull, rfl⟩)
      · exact .refused _
      · exact .viewLeft p u w o hact ha hfull
  | unview pid hndl =>
    refine invoke_spec fun p u hact => Prog.wp_mono (handleUnview_spec s p hndl) ?_
      (fun _ => hrefuse) fun _ hp => hp.imp_right fun h => ⟨p, h⟩
    rintro _ s' ⟨v, o, pos, r', s₁, hv, hh, hu, rfl⟩
    exact .unview p u v o pos r' s₁ hact hv hh hu
  | connPublish pid args =>
    refine invoke_spec fun p u hact => Prog.wp_mono (handleConnPublish_spec s h.rooted p args) ?_ ?_
      fun _ hp => hp
    · rintro _ s' ⟨f, r₁, r₂, object, page, s₁, idx, srv, hp, hp'⟩
      exact .connPublish p u f r₁ r₂ object page s₁ idx srv hact hp hp'
    · rintro _ s' (rfl | ⟨r', hr, rfl⟩ | ⟨f, r₁, r₂, object, page, hp⟩)
      · exact .refused _
      · exact .connTried p u r' hact hr
      · exact .connLeft p u f r₁ r₂ object page hact hp
  | pageMap pid args =>
    refine invoke_spec fun p u hact => Prog.wp_mono (handlePageMap_spec h p args) ?_
      (fun _ => hrefuse) fun _ hp => hp
    rintro _ s' ⟨dst, src, w, cap, slot, cs, k, view, s₁, s₂, hm⟩
    exact .pageMap p u dst src w cap slot cs k view s₁ s₂ hact hm
  | loadComplete pid =>
    refine invoke_spec fun p u hact => Prog.wp_mono (handleLoadComplete_spec s p) ?_
      (fun _ _ => False.elim) fun _ hp => hp
    rintro _ s' ⟨s₁, hu, rfl⟩
    exact .loadComplete p u s₁ hact hu
  | registry pid inv =>
    exact invoke_spec fun p u hact => Prog.wp_mono (handleRegistry_beside h.rooted p inv)
      (fun _ s' hb => .registry p u hact hb) (fun _ s' hb => .registry p u hact hb) fun _ hp => hp
  | connDestroy pid hndl =>
    exact invoke_spec fun p u hact => Prog.wp_mono (handleConnDestroy_severed s p hndl)
      (fun _ s' hd => .connDestroy p u hact hd) (fun _ => hrefuse) fun _ hp => hp
  | processWait pid hndl =>
    exact Prog.wp_mono (waitTurn_spec h pid hndl) (fun _ _ ht => ht) (fun _ => hrefuse)
      fun _ hp => hp
  | vmFault pid addr => exact faultTurn_spec h pid addr
  | processExit pid caps =>
    simp only [exec, Prog.wp_bind]
    refine Prog.wp_mono (procCell_spec s pid) ?_ (fun _ _ => False.elim) fun _ _ => trivial
    rintro p s ⟨rfl, u, hact⟩
    exact Prog.wp_mono (handleProcessExit_spec s p caps) (fun _ _ => False.elim)
      (fun _ _ => False.elim) fun _ _ => trivial
  | takeNotification srv =>
    simp only [exec, wp_modifyServer]
    exact .takeNotification srv
  | userWrite pid vaddr byte =>
    simp only [exec, Prog.wp_bind]
    refine Prog.wp_mono (procCell_spec s pid) ?_ (fun _ _ => False.elim) fun _ hp => hp
    rintro p s ⟨rfl, u, hact⟩
    simp only [wp_getProc, wp_onRes, kmodify, Prog.wp_modify]
    refine ⟨fun u' hu' => ?_, fun _ _ => (by decide : Panic.Low .zombie)⟩
    cases hact.proc.symm.trans hu'
    exact .userWrite p u hact

/-- So is a step of the machine. -/
theorem next_turn (h : Sane s) {op : Op} (hn : next s op = some s') : Turn s op s' :=
  next_of_wp (exec_spec h op) hn

end Smos.RootServer
