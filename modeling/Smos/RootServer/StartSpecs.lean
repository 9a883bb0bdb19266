/-
Smos.RootServer.StartSpecs — what starting a process does to the others.

All of `start_process` but its end only allocates. Whatever is said of the
rest of the state survives it (`Memory`); in particular no process changes,
and no thread is woken up (`Steady`). When it succeeds there is one process
more, under a pid that was free, with no handles and nobody waiting for it.
The one capability it has been given is the root server's endpoint with its
pid as the badge and all rights.
-/
import Smos.RootServer.Calm
import Smos.RootServer.Effects
import Smos.RootServer.Spawn

namespace Smos.RootServer

open Smos.Base

/-- The processes are as they were, and so is who waits. -/
structure Steady (X : KernelEvent → Prop) (s s' : State) : Prop where
  procs : s'.procs = s.procs
  procCells : s'.procCells = s.procCells
  calm : Calm X s.res.kernel s'.res.kernel

/-- The program keeps `I`, whether it succeeds or not. -/
def Keeping (I : State → Prop) {ε α : Type} (m : SProg ε α) : Prop := m.Keeps I fun _ => True

/-- What a view is linked to. -/
def View.links (x : View) : WindowRef × Option ObjectRef × Option (ServerRef × Nat × Nat) :=
  (x.boundWindow, x.boundObject, x.managingServerInfo)

/-- The heaps of windows, views and objects do not matter to `I`, nor what the allocators do. -/
class Memory (I : State → Prop) : Prop where
  heaps {s : State} (windows : Heap Window) (views : Heap View)
    (objects : Heap AnonymousMemoryObject) (h : I s) :
    I { s with windows := windows, views := views, objects := objects }
  onRes {ε α : Type} {m : RProg ε α} (h : ∀ X k, CalmProg X k m) : Keeping I (onRes m)

/-- What giving a region its pages touches does not matter to `I`. -/
class Paging (I : State → Prop) : Prop where
  object {s : State} (o : ObjectRef) (f : AnonymousMemoryObject → AnonymousMemoryObject)
    (hf : ∀ x, (f x).size = x.size) (h : I s) : I { s with objects := s.objects.update o f }
  view {s : State} (v : ViewRef) (f : View → View) (hf : ∀ x, (f x).links = x.links) (h : I s) :
    I { s with views := s.views.update v f }
  onRes {ε α : Type} {m : RProg ε α} (h : ∀ X k, CalmProg X k m) : Keeping I (onRes m)

/-- What does not depend on the heaps does not depend on a page in them. -/
instance paging_memory {I : State → Prop} [Memory I] : Paging I where
  object _ _ _ h := Memory.heaps _ _ _ h
  view _ _ _ h := Memory.heaps _ _ _ h
  onRes h := Memory.onRes h

section Rules

variable {ε ε' α β : Type} {X : KernelEvent → Prop} {s : State} {I : State → Prop}

protected theorem Steady.refl (s : State) : Steady X s s := ⟨rfl, rfl, .refl _⟩

/-- Resources hold no process. -/
theorem onRes_steady {m : RProg ε α} (h : CalmProg X s.res.kernel m) :
    Keeping (Steady X s) (onRes m) :=
  Prog.Keeps.zoom h (fun _ ht => ht.calm) fun _ _ ht hr => ⟨ht.procs, ht.procCells, hr⟩

instance memory_steady : Memory (Steady X s) where
  heaps _ _ _ h := ⟨h.procs, h.procCells, h.calm⟩
  onRes h := onRes_steady (h X s.res.kernel)

namespace Keeping

theorem bind {m : SProg ε α} {f : α → SProg ε β} (hm : Keeping I m)
    (hf : ∀ a, Keeping I (f a)) : Keeping I (m >>= f) :=
  Prog.Keeps.bind hm fun a _ => hf a

theorem catchErr {m : SProg ε' α} {h : ε' → SProg ε α} (hm : Keeping I m)
    (hh : ∀ e, Keeping I (h e)) : Keeping I (m.catchErr h) :=
  Prog.Keeps.catchErr hm hh

theorem expect {m : SProg ε' α} {p : Panic} (hm : Keeping I m) :
    Keeping I (m.expect p : SProg ε α) := Prog.Keeps.expect hm

theorem map {m : SProg ε α} {f : α → β} (hm : Keeping I m) : Keeping I (f <$> m) :=
  Prog.Keeps.bind hm fun _ _ => Prog.Keeps.pure trivial

theorem pure (a : α) : Keeping I (Pure.pure a : SProg ε α) := Prog.Keeps.pure trivial

theorem fail (e : ε) : Keeping I (Prog.fail e : SProg ε α) := Prog.Keeps.fail e

theorem panic (p : Panic) : Keeping I (Prog.panic p : SProg ε α) := Prog.Keeps.panic p

theorem attempt {m : SProg ε' α} (hm : Keeping I m) :
    Keeping I (m.attempt : SProg ε (Except ε' α)) := Prog.Keeps.attempt hm

theorem gets {f : State → α} : Keeping I (Prog.gets f : SProg ε α) := Prog.Keeps.gets_any

theorem unwrap (p : Panic) (o : Option α) : Keeping I (Prog.unwrap p o : SProg ε α) :=
  Prog.Keeps.unwrap fun _ _ => trivial

theorem okOr (e : ε) (o : Option α) : Keeping I (Prog.okOr e o : SProg ε α) :=
  Prog.Keeps.okOr fun _ _ => trivial

theorem assert (p : Panic) (c : Bool) : Keeping I (Prog.assert p c : SProg ε Unit) :=
  Prog.Keeps.assert

theorem ite {c : Prop} [Decidable c] {m m' : SProg ε α} (h : Keeping I m)
    (h' : Keeping I m') : Keeping I (if c then m else m') :=
  Prog.Keeps.ite (fun _ => h) fun _ => h'

theorem forEach {f : β → SProg ε Unit} {xs : List β} (h : ∀ x ∈ xs, Keeping I (f x)) :
    Keeping I (Prog.forEach f xs) :=
  Prog.Keeps.forEach h

/-- A step on the state. -/
theorem modify {f : State → State} (h : ∀ t, I t → I (f t)) :
    Keeping I (Prog.modify f : SProg ε Unit) :=
  Prog.Keeps.modify trivial h

theorem addU (a b : Nat) : Keeping I (addU a b : SProg ε Nat) := addU_keeps a b

theorem subU (a b : Nat) : Keeping I (subU a b : SProg ε Nat) := subU_keeps a b

/-- What undoes a step keeps what the step keeps. -/
theorem orUndo {m : SProg Sel4Error α} {undo : SProg Sel4Error Unit} (hm : Keeping I m)
    (hu : Keeping I undo) : Keeping I (orUndo m undo) :=
  hm.catchErr fun e => hu.bind fun _ => .fail e

end Keeping

/-- The end points are added up, which may overflow and changes nothing. -/
theorem segmentOverlaps_keeping (start size : Nat) (w : Window) :
    Keeping I (segmentOverlaps start size w : SProg ε Bool) := by
  unfold segmentOverlaps
  have hlast : Keeping I (do
      let nend ← addU start size
      if nend ≥ w.start then
        let wend ← addU w.start w.size
        pure (decide (nend < wend))
      else pure false : SProg ε Bool) :=
    .bind (.addU _ _) fun _ => .ite (.bind (.addU _ _) fun _ => .pure _) (.pure _)
  refine .ite (.bind (.addU _ _) fun wend => ?_) ?_
  · dsimp only
    exact .ite (.pure _) hlast
  · exact hlast

theorem overlappingSegment_keeping (start size : Nat) : ∀ ws : List WindowRef,
    Keeping I (overlappingSegment start size ws : SProg ε (Option WindowRef))
  | [] => .pure _
  | _ :: ws => .bind .gets fun _ => .bind (segmentOverlaps_keeping _ _ _) fun _ =>
      .ite (.pure _) (overlappingSegment_keeping start size ws)

/-- A shared page is merged or the root server panics, without a write. -/
theorem handleOverlappingSegment_keeping (w : WindowRef) (segment : Segment) :
    Keeping I (handleOverlappingSegment w segment : SProg ε Unit) := by
  refine .bind .gets fun window => .bind (.unwrap _ _) fun v => .bind .gets fun view => ?_
  exact .ite (.panic _) (.ite (.pure _) (.panic _))

section Memory

variable [Memory I]

theorem modifyWindow_keeping (w : WindowRef) (f : Window → Window) :
    Keeping I (modifyWindow w f : SProg ε Unit) :=
  .modify fun _ h => Memory.heaps _ _ _ h

theorem newWindow_keeping (x : Window) : Keeping I (newWindow x : SProg ε WindowRef) :=
  fun _ h => ⟨trivial, Memory.heaps _ _ _ h⟩

theorem newView_keeping (x : View) : Keeping I (newView x : SProg ε ViewRef) :=
  fun _ h => ⟨trivial, Memory.heaps _ _ _ h⟩

end Memory

section Paging

variable [Paging I]

theorem modifyView_keeping (v : ViewRef) {f : View → View} (hf : ∀ x, (f x).links = x.links) :
    Keeping I (modifyView v f : SProg ε Unit) :=
  .modify fun _ h => Paging.view v f hf h

/-- An object keeps its size when it takes a frame. -/
theorem insertFrame_keeping (o : ObjectRef) (offset : Nat) (frame : ObjectFrame) :
    Keeping I (insertFrame o offset frame : SProg ε Unit) := by
  intro s h
  simp only [insertFrame, Prog.wp_bind, wp_getObject]
  cases ho : (s.objects o).insertFrameAt offset frame with
  | error e => trivial
  | ok object =>
    -- only the frames have changed
    have hobject : s.objects.update o (fun _ => object) =
        s.objects.update o fun x => { x with frames := object.frames } := by
      obtain ⟨t, -, rfl⟩ := insertFrameAt_ok ho
      rfl
    simp only [wp_modifyObject]
    rw [hobject]
    exact ⟨trivial, Paging.object o _ (fun _ => rfl) h⟩

/-- A view keeps its links when it takes a page. -/
theorem insertCap_keeping (v : ViewRef) (offset : Nat) (cap : Slot) :
    Keeping I (insertCap v offset cap : SProg ε Unit) := by
  intro s h
  simp only [insertCap, Prog.wp_bind, wp_getView]
  cases hv : (s.views v).insertCapAt offset cap with
  | error e => trivial
  | ok view =>
    -- only the caps have changed
    have hview : s.views.update v (fun _ => view) =
        s.views.update v fun x => { x with caps := view.caps } := by
      obtain ⟨t, -, rfl⟩ := insertCapAt_ok hv
      rfl
    simp only [wp_modifyView]
    rw [hview]
    exact ⟨trivial, Paging.view v _ (fun _ => rfl) h⟩

/-! ## The address space -/

/-- A frame, a slot and a copy for the view. -/
theorem addPage_keeping (o : ObjectRef) (v : ViewRef) (i : Nat) :
    Keeping I (addPage o v i) := by
  have hframe : Keeping I (onRes allocFrame : SProg Unit Nat) :=
    Paging.onRes fun _ _ => allocFrame_keeps
  have hslot : Keeping I (onRes allocSlot : SProg Sel4Error Slot) :=
    Paging.onRes fun _ _ => allocSlot_keeps
  refine .bind (hframe.catchErr fun _ => .fail _) fun frameRef => ?_
  refine .bind (Paging.onRes fun _ _ => frameCap_keeps _) fun cap => ?_
  refine .bind (insertFrame_keeping _ _ _) fun _ => .bind hslot fun slot => .bind ?_ fun _ => ?_
  · exact Paging.onRes fun _ _ => (copyCap_calm _ _ _).catchErr fun _ => Prog.Keeps.panic _
  · exact .bind (insertCap_keeping _ _ _) fun _ => .pure _

/-- By induction on the pages that are left, through the three answers a mapping may get. -/
theorem loadPages_keeping (w : WindowRef) (o : ObjectRef) (v : ViewRef) (vspace : Slot)
    (segment : Segment) (data : Nat → Nat) : ∀ fuel i pos currVaddr : Nat,
    Keeping I (loadPages w o v vspace segment data fuel i pos currVaddr)
  | 0, _, _, _ => .pure _
  | fuel + 1, i, pos, currVaddr => by
    unfold loadPages
    have hnext : ∀ frameRef f bytes, Keeping I (do
        onRes (writeFrameData frameRef f)
        let pos ← addU pos bytes
        let currVaddr ← addU currVaddr bytes
        loadPages w o v vspace segment data fuel (i + 1) pos currVaddr) := fun _ _ _ =>
      .bind (Paging.onRes fun _ _ => writeFrameData_keeps _ _) fun _ => .bind (.addU _ _) fun _ =>
        .bind (.addU _ _) fun _ => loadPages_keeping w o v vspace segment data fuel _ _ _
    refine .ite (.bind (addPage_keeping _ _ _) fun page => .bind .gets fun view => ?_) (.pure _)
    refine .bind (Paging.onRes fun _ _ => mapFrame_keeps _ _ _ _).attempt fun res => ?_
    dsimp only
    split
    · exact .ite (hnext _ _ _) (hnext _ _ _)
    · exact .bind (Paging.onRes fun _ _ => deleteCap_keeps _) fun _ =>
        .bind (Paging.onRes fun _ _ => freeSlot_keeps _) fun _ =>
          .bind (Paging.onRes fun _ _ => freeFrame_keeps _) fun _ =>
            .ite (hnext _ _ _) (hnext _ _ _)
    · exact .fail _

end Paging

section Loading

variable [Memory I]

theorem modifyObject_keeping (o : ObjectRef)
    (f : AnonymousMemoryObject → AnonymousMemoryObject) :
    Keeping I (modifyObject o f : SProg ε Unit) :=
  .modify fun _ h => Memory.heaps _ _ _ h

theorem newObject_keeping (x : AnonymousMemoryObject) :
    Keeping I (newObject x : SProg ε ObjectRef) :=
  fun _ h => ⟨trivial, Memory.heaps _ _ _ h⟩

/-- Window, object and view are linked to each other only. -/
theorem newRegion_keeping (start size : Nat) (objRights viewRights : CapRights) :
    Keeping I (newRegion start size objRights viewRights :
      SProg ε (WindowRef × ObjectRef × ViewRef)) := by
  intro s h
  simp only [newRegion, Prog.wp_bind, wp_newWindow, wp_newObject, wp_newView, wp_modifyWindow,
    wp_modifyObject, Prog.wp_pure, Heap.alloc_update_self]
  exact ⟨trivial, Memory.heaps _ _ _ h⟩

/-- An overlapping segment loads nothing; any other has a region of its own. -/
theorem loadSegment_keeping (vspace : Slot) (segment : Segment) (data : Nat → Nat)
    (windows : List WindowRef) : Keeping I (loadSegment vspace segment data windows) := by
  unfold loadSegment
  refine .bind (.addU _ _) fun lead => .bind (.addU _ _) fun segmentEnd => ?_
  refine .bind (.addU _ _) fun totalSize => .bind (overlappingSegment_keeping _ _ _) fun found => ?_
  cases found with
  | some w => exact .bind (handleOverlappingSegment_keeping _ _) fun _ => .pure _
  | none =>
    refine .ite (.panic _) (.bind (newRegion_keeping _ _ _ _) fun region => ?_)
    exact .bind (loadPages_keeping _ _ _ _ _ _ _ _ _ _) fun _ => .pure _

theorem loadSegments_keeping (vspace : Slot) : ∀ (segments : List Segment) (windows : List WindowRef),
    Keeping I (loadSegments vspace segments windows)
  | [], _ => .pure _
  | segment :: segments, windows => by
    refine .ite (loadSegments_keeping vspace segments windows) ?_
    exact .bind (.unwrap _ _) fun data => .bind (loadSegment_keeping _ _ _ _) fun windows =>
      loadSegments_keeping vspace segments windows

theorem loadElf_keeping (vspace : Slot) (elf : Elf) : Keeping I (loadElf vspace elf) :=
  .bind (.okOr _ _) fun segments => loadSegments_keeping vspace segments []

theorem initProcessStack_keeping : Keeping I initProcessStack := by
  refine .bind (newRegion_keeping _ _ _ _) fun region => .bind ?_ fun _ => .pure _
  exact .forEach fun i _ => (addPage_keeping _ _ i).bind fun _ => .pure _

/-- The bytes go to the frame that the stack has there. -/
theorem writeToStack_keeping (stack : WindowRef) (vaddr : Nat) (bytes : List Nat) :
    Keeping I (writeToStack stack vaddr bytes : SProg ε Unit) := by
  refine .bind (.subU _ _) fun offset => .bind .gets fun _ => .bind (.unwrap _ _) fun v => ?_
  refine .bind .gets fun _ => .bind (.unwrap _ _) fun o => .bind .gets fun _ => ?_
  refine .bind (.unwrap _ _) fun frame => .ite ?_ (.panic _)
  exact Memory.onRes (fun _ _ => writeFrameData_keeps _ _)

/-- By induction on the arguments, downwards from the top of the stack. -/
theorem writeArgStrings_keeping (stack : WindowRef) : ∀ (args : List String) (vaddr : Nat)
    (argv : List Nat), Keeping I (writeArgStrings stack args vaddr argv :
      SProg ε (Nat × List Nat))
  | [], _, _ => .pure _
  | _ :: args, _, _ => .bind (.subU _ _) fun _ => .ite (.panic _)
      (.bind (writeToStack_keeping _ _ _) fun _ => writeArgStrings_keeping stack args _ _)

theorem writeArgsToStack_keeping (stack : WindowRef) (loaderArgs execArgs : Option (List String)) :
    Keeping I (writeArgsToStack stack loaderArgs execArgs : SProg ε Nat) := by
  have henv : Keeping I (writeEnv stack : SProg ε Nat) :=
    .bind (writeToStack_keeping _ _ _) fun _ => .bind (writeToStack_keeping _ _ _) fun _ =>
      .bind (writeToStack_keeping _ _ _) fun _ => .bind (writeToStack_keeping _ _ _) fun _ => .pure _
  have hargv : ∀ vaddr, Keeping I
      (writeArgv stack loaderArgs execArgs vaddr : SProg ε (Nat × Nat × Nat)) := by
    intro vaddr
    refine .ite (.bind (writeArgStrings_keeping _ _ _ _) fun x => ?_) (.pure _)
    refine .bind (writeArgStrings_keeping _ _ _ _) fun y => .bind (.subU _ _) fun _ => ?_
    exact .bind (writeToStack_keeping _ _ _) fun _ => .pure _
  refine .bind henv fun envpPtr => .bind (hargv _) fun x => .bind (.subU _ _) fun _ => ?_
  refine .bind (writeToStack_keeping _ _ _) fun _ => .bind (.subU _ _) fun _ => ?_
  refine .bind (writeToStack_keeping _ _ _) fun _ => .bind (.subU _ _) fun _ => ?_
  exact .bind Prog.Keeps.assert fun _ => .bind (writeToStack_keeping _ _ _) fun _ => .pure _

end Loading

/-! ## The parts of a process -/

section Parts

variable {k : Kernel} (x : Started)

/-- A call whose answer is given does nothing. -/
theorem answered_keeps {σ : Type} {I : σ → Prop} (answer : Except Sel4Error Unit) :
    (answered answer : Prog Panic σ Sel4Error Unit).Keeps I fun _ => True := by
  refine Prog.Keeps.ofExcept fun t t' ht hans => ?_
  cases answer with
  | error e => cases hans
  | ok u =>
    cases hans
    exact ht

theorem ResProg.orUndo {I : Res → Prop} {m : RProg Sel4Error α}
    {undo : RProg Sel4Error Unit} (hm : ResProg I m) (hu : ResProg I undo) :
    ResProg I (orUndo m undo) :=
  hm.catchErr fun e => hu.bind fun _ => .fail e

/-- A new cspace is a capability of the root server's. -/
theorem userCSpaceNew_calm : CalmProg X k UserCSpace.new :=
  .bind (allocRetype_keeps _) fun _ => .bind allocSlot_keeps fun _ =>
    .bind (mintCap_calm _ _ _ _).expect fun _ => .bind (deleteCap_keeps _) fun _ =>
      .bind (freeSlot_keeps _) fun _ => .pure _

theorem unwindIpcFrame_calm : CalmProg X k (unwindIpcFrame x : RProg ε Unit) :=
  .bind (freeFrame_keeps _) fun _ => deallocRetyped_keeps _

theorem unwindIpcBuffer_calm : CalmProg X k (unwindIpcBuffer x : RProg ε Unit) :=
  .bind (deleteCap_keeps _) fun _ => .bind (freeSlot_keeps _) fun _ => unwindIpcFrame_calm x

theorem unwindProcEp_calm : CalmProg X k (unwindProcEp x : RProg ε Unit) :=
  .bind (freeSlot_keeps _) fun _ => unwindIpcBuffer_calm x

theorem unwindTcb_calm : CalmProg X k (unwindTcb x : RProg ε Unit) :=
  .bind (deallocRetyped_keeps _) fun _ => unwindProcEp_calm x

/-- The longest of the chains that undo a start. -/
theorem unwindFaultEp_calm : CalmProg X k (unwindFaultEp x : RProg ε Unit) :=
  .bind (deleteCap_keeps _) fun _ => .bind (freeSlot_keeps _) fun _ => unwindTcb_calm x

/-- Every step is a call of the allocators, and so is what undoes it. -/
theorem startSpaces_calm (answers : StartAnswers) : CalmProg X k (startSpaces answers) := by
  unfold startSpaces
  refine .bind (allocRetype_keeps _) fun vspace => ?_
  refine .bind (.orUndo (answered_keeps _) (deallocRetyped_keeps _)) fun _ => ?_
  refine .bind userCSpaceNew_calm fun procCspace => .bind (allocFrame_keeps.catchErr fun _ => ?_)
    fun ipcBufferRef => ?_
  · exact .bind (deallocRetyped_keeps _) fun _ => .fail _
  refine .bind (.orUndo allocSlot_keeps (unwindIpcFrame_calm _)) fun ipcBufferSlot => ?_
  refine .bind (frameCap_keeps _) fun cap => .bind (.orUndo (copyCap_calm _ _ _) ?_) fun _ => .pure _
  exact .bind (freeSlot_keeps _) fun _ => unwindIpcFrame_calm _

/-- The endpoint capability of a new process: its pid as the badge, and all rights. -/
def Endowed (pid : Pid) (ev : KernelEvent) : Prop :=
  ∃ obj kind, ev = .grant pid (.badged obj kind (pid ||| invocationEpBits) .all)

/-- The capability minted into the new cspace is the one grant of a start. -/
theorem mintTo_calm (ep : Slot) (pos : Pid) : CalmProg (Endowed pos) k
    (kcall fun k => k.mintTo pos ep .all (pos ||| invocationEpBits)) := by
  refine kcall_keeps fun k₁ k₂ h hk => ?_
  unfold Kernel.mintTo at hk
  split at hk
  · cases hk
  · cases hk
    exact h.event (.inr ⟨_, _, rfl⟩) rfl rfl
  · cases hk

theorem copyTo_calm (src : Slot) : CalmProg X k (kcall fun k => k.copyTo src) := by
  refine kcall_keeps fun k₁ k₂ h hk => ?_
  unfold Kernel.copyTo at hk
  split at hk <;> cases hk
  exact h

theorem startCspace_calm (ep : Slot) (pos : Pid) (procCspace : UserCSpace) :
    CalmProg (Endowed pos) k (startCspace ep pos x procCspace) :=
  .bind (.orUndo (mintTo_calm ep pos) (unwindIpcBuffer_calm x)) fun _ =>
    .orUndo (copyTo_calm _) (unwindProcEp_calm x)

/-- The thread, its scheduling context and its fault endpoint, each undone when a later one fails. -/
theorem startThread_calm (ep : Slot) (pos : Pid) (answers : StartAnswers) :
    CalmProg X k (startThread ep pos x answers) := by
  unfold startThread
  refine .bind (.orUndo (allocRetype_keeps _) (unwindProcEp_calm _)) fun tcb => ?_
  refine .bind (.orUndo (answered_keeps _) (unwindTcb_calm _)) fun _ => ?_
  refine .bind (.orUndo (allocRetype_keeps _) (unwindTcb_calm _)) fun schedContext => ?_
  refine .bind (.orUndo (answered_keeps _) (unwindTcb_calm _)) fun _ => ?_
  refine .bind (.orUndo allocSlot_keeps (unwindTcb_calm _)) fun faultEp => ?_
  refine .bind (.orUndo (mintCap_calm _ _ _ _) ?_) fun _ => ?_
  · exact .bind (freeSlot_keeps _) fun _ => unwindTcb_calm _
  · exact .bind (.orUndo (answered_keeps _) (unwindFaultEp_calm _)) fun _ => .pure _

theorem startSharedBuffer_calm : CalmProg X k (startSharedBuffer x) := by
  have hframe : ∀ ref, CalmProg X k (do freeFrame ref; unwindFaultEp x : RProg Sel4Error Unit) :=
    fun _ => .bind (freeFrame_keeps _) fun _ => unwindFaultEp_calm x
  unfold startSharedBuffer
  refine .bind (allocFrame_keeps.catchErr fun _ => ?_) fun sharedBufferRef => ?_
  · exact .bind (unwindFaultEp_calm _) fun _ => .fail _
  refine .bind (.orUndo allocSlot_keeps (hframe _)) fun slot => .bind (frameCap_keeps _) fun cap => ?_
  refine .bind (.orUndo (copyCap_calm _ _ _) ?_) fun _ => ?_
  · exact .bind (freeSlot_keeps _) fun _ => hframe _
  refine .bind (.orUndo (mapFrame_keeps _ _ _ _) ?_) fun _ => .pure _
  exact .bind (deleteCap_keeps _) fun _ => .bind (freeSlot_keeps _) fun _ => hframe _

end Parts

/-- The image, the buffers and the stack are memory. -/
theorem startMemory_keeping [Memory I] (x : Started) (elf : Option Elf) :
    Keeping I (startMemory x elf) := by
  have hundo : Keeping I (onRes (unwindFaultEp x) : SProg Sel4Error Unit) :=
    Memory.onRes (fun _ _ => unwindFaultEp_calm x)
  refine .bind (.orUndo (.okOr _ _) hundo) fun elf => .bind (.orUndo (loadElf_keeping _ _) hundo) ?_
  intro initialWindows
  refine .bind (Memory.onRes (fun _ _ => .orUndo (mapFrame_keeps _ _ _ _) (unwindFaultEp_calm x))) fun _ => ?_
  refine .bind (Memory.onRes (fun _ _ => startSharedBuffer_calm x)) fun sharedBuffer => ?_
  exact .bind (.orUndo initProcessStack_keeping hundo) fun stack => .pure _

/-! ## Starting a process -/

/-- A process more, under the pid that was free. -/
structure ProcessStarted (pos : Pid) (proc : Nat) (u : UserProcess) (s s' : State) : Prop where
  free : findFreeProc s = some pos
  cell : proc = s.procCells.next
  procCells : s'.procCells = s.procCells.alloc (.activeProcess u)
  procs : s'.procs = Function.update s.procs pos (some proc)
  calm : Calm (Endowed pos) s.res.kernel s'.res.kernel
  pid : u.pid = pos
  noHandles : u.handleTable = fun _ => none
  noWaiter : u.waiter = none

/-- Before there is a process nothing but its making has happened: memory, and the endpoint
capability it is given under the pid. -/
class Starting (pos : Pid) (I : State → Prop) : Prop extends Memory I where
  endow {ε α : Type} {m : RProg ε α} (h : ∀ k, CalmProg (Endowed pos) k m) :
    Keeping I (RootServer.onRes m)

instance starting_steady {pos : Pid} : Starting pos (Steady (Endowed pos) s) where
  endow h := onRes_steady (h s.res.kernel)

/-- Go on after a program that keeps `I`. -/
theorem Keeping.wp {m : SProg ε α} {t : State} (hm : Keeping I m) (ht : I t)
    {Q : α → State → Prop} {E : ε → State → Prop} (hQ : ∀ a t', I t' → Q a t')
    (hE : ∀ e t', I t' → E e t') : Prog.wp m Q E (fun _ => True) t :=
  Prog.wp_mono (hm t ht) (fun a t' h => hQ a t' h.2) hE fun _ h => h

/-- Starting a process, for what holds while it is made: without a free pid there is nothing to
make, and the cell of the process is entered last. -/
theorem startProcess_wp {J : Pid → State → Prop} [∀ pos, Starting pos (J pos)]
    {Q : Nat → State → Prop} {E : Sel4Error → State → Prop} (ep : Slot) (elf : Option Elf)
    (loaderArgs execArgs : Option (List String)) (answers : StartAnswers)
    (hstart : ∀ pos, findFreeProc s = some pos → J pos s)
    (hfull : findFreeProc s = none → E .notEnoughMemory s)
    (hleft : ∀ pos e t, findFreeProc s = some pos → J pos t → E e t)
    (hmade : ∀ pos u t, findFreeProc s = some pos → J pos t → u.pid = pos →
      (u.handleTable = fun _ => none) → u.waiter = none → Q t.procCells.next { t with
        procCells := t.procCells.alloc (.activeProcess u)
        procs := Function.update t.procs pos (some t.procCells.next) }) :
    (startProcess ep elf loaderArgs execArgs answers).wp Q E (fun _ => True) s := by
  simp only [startProcess, Prog.wp_bind, Prog.wp_gets, Prog.wp_okOr]
  refine ⟨fun pos hpos => ?_, hfull⟩
  have hE := fun e t => hleft pos e t hpos
  refine Keeping.wp (Memory.onRes fun _ _ => startSpaces_calm answers) (hstart pos hpos)
    (fun spaces t ht => ?_) hE
  rcases spaces with ⟨x, procCspace⟩
  refine Keeping.wp (Starting.endow fun _ => startCspace_calm _ _ _ _) ht (fun _ t ht => ?_) hE
  refine Keeping.wp (Memory.onRes fun _ _ => startThread_calm _ _ _ _) ht
    (fun thread t ht => ?_) hE
  rcases thread with ⟨y, schedContext⟩
  refine Keeping.wp (startMemory_keeping _ _) ht (fun memory t ht => ?_) hE
  rcases memory with ⟨_, sharedBuffer, stack, windows⟩
  refine Keeping.wp (writeArgsToStack_keeping _ _ _) ht (fun _ t ht => ?_) hE
  refine Keeping.wp (answered_keeps _) ht (fun _ t ht => ?_) hE
  simp only [wp_newProcCell, procsSet, Prog.wp_ite, Prog.wp_modify, Prog.wp_panic, Prog.wp_pure]
  refine ⟨fun _ => ?_, fun _ => trivial⟩
  exact hmade pos (.new y pos schedContext procCspace sharedBuffer windows) t hpos ht rfl rfl rfl

/-- One process more, or none and only memory has been made. -/
theorem startProcess_spec (s : State) (ep : Slot) (elf : Option Elf)
    (loaderArgs execArgs : Option (List String)) (answers : StartAnswers) :
    (startProcess ep elf loaderArgs execArgs answers).wp
      (fun proc s' => ∃ pos u, ProcessStarted pos proc u s s')
      (fun _ s' => ∃ pos, Steady (Endowed pos) s s') (fun _ => True) s := by
  refine startProcess_wp (J := fun pos => Steady (Endowed pos) s) ep elf loaderArgs execArgs
    answers (fun _ _ => .refl s) (fun _ => ⟨0, .refl s⟩) (fun pos _ _ _ ht => ⟨pos, ht⟩) ?_
  intro pos u t hpos ht hpid htable hwaiter
  exact ⟨pos, u, hpos, by rw [ht.procCells], by rw [ht.procCells],
    by rw [ht.procs, ht.procCells], ht.calm, hpid, htable, hwaiter⟩

end Rules

end Smos.RootServer
