/-
Smos.RootServer.Bystander — handlers that change nothing but their own business.

An invariant is a bystander to what it does not speak of. The classes say what
such an invariant does not mind, each more than the one before it: `Aside` is
about memory, the allocators, the lists of processes and what servers are told,
`AsideHandling` about the handles of one process and the shared ones, and
`Connecting` about connections as well.

There is one walk over each handler, a list of its steps, for any invariant of
the class that the handler needs; `handleSyscall_keeping` puts them together.
Only the handlers of whole processes, which change what most invariants speak
of, are left to the invariants themselves.
-/
import Smos.RootServer.HandlerSpecs
import Smos.RootServer.StartSpecs
import Smos.RootServer.Syscall

namespace Smos.RootServer

open Smos.Base

/-- A connection, or the registration of one. -/
def RootServerResource.ofConnection : RootServerResource → Bool
  | .connection _ | .connRegistration _ => true
  | _ => false

/-- A handle of a kind that most handlers deal in: not of a connection or a server. -/
def RootServerResource.ordinary : RootServerResource → Bool
  | .connection _ | .connRegistration _ | .server _ => false
  | _ => true

/-- None of the messages says that a connection is gone. -/
def NoneGone (msgs : List NotificationType) : Prop := ∀ id, .connDestroy id ∉ msgs

/-- What most handlers touch does not matter to `I`. -/
class Aside (I : State → Prop) : Prop where
  heaps {s : State} (windows : Heap Window) (views : Heap View)
    (objects : Heap AnonymousMemoryObject) (h : I s) :
    I { s with windows := windows, views := views, objects := objects }
  res {s : State} (r : Res) (h : I s) : I { s with res := r }
  rest {s : State} (irqs : Heap IRQRegistration) (dma : DmaPool) (reply : Alloc) (h : I s) :
    I { s with irqs := irqs, dma := dma, reply := reply }
  server {s : State} (srv : ServerRef) (f : Server → Server)
    (hlist : ∀ x, (f x).connections = x.connections)
    (hring : ∀ x, ∃ msgs, (f x).ntfnBuffer = x.ntfnBuffer ++ msgs ∧ NoneGone msgs) (h : I s) :
    I { s with servers := s.servers.update srv f }
  proc {s : State} (p : Nat) (f : UserProcess → UserProcess) (hpid : ∀ u, (f u).pid = u.pid)
    (htable : ∀ u, (f u).handleTable = u.handleTable) (h : I s) : I (s.updProc p f)

/-- Nor do the ordinary handles of a process and the ordinary handle capabilities, nor that the
process publishes a server, which starts with no connections and nothing to be told. -/
class AsideHandling (p : Nat) (I : State → Prop) : Prop extends Aside I where
  handle {s : State} (idx : Nat) (x : Option RootServerResource)
    (hx : ∀ y, x = some y → y.ordinary = true) (h : I s) : I (s.setHandleAt (.table p idx) x)
  handleCap {s : State} (idx : Nat) (x : Option RootServerResource)
    (hx : ∀ y, x = some y → y.ordinary = true) (h : I s) : I (s.setHandleAt (.cap idx) x)
  publish {s : State} (name : String) (idx : Nat) (x : Server) (hlist : x.connections = [])
    (hring : x.ntfnBuffer = []) (h : I s) : I (State.setHandleAt { s with
      servers := s.servers.alloc x
      published := s.published ++ [(name, s.servers.next)] } (.table p idx)
        (some (.server s.servers.next)))

/-- Nor do connections, what their servers know of them, and the handles to them. -/
class Connecting (p : Nat) (I : State → Prop) : Prop extends AsideHandling p I where
  connections {s : State} (connections : Heap Connection) (h : I s) :
    I { s with connections := connections }
  servers {s : State} (servers : Heap Server) (h : I s) : I { s with servers := servers }
  anyHandle {s : State} (idx : Nat) (x : Option RootServerResource) (h : I s) :
    I (s.setHandleAt (.table p idx) x)

/-! ## Steps that only read -/

section Reads

variable {I : State → Prop} {ε α : Type} {p : Nat}

/-- What only reads keeps everything, whether it finds something or panics. -/
theorem getProc_keeping : Keeping I (getProc p : SProg ε UserProcess) := by
  refine .bind .gets fun x => ?_
  cases x with
  | activeProcess u => exact .pure u
  | zombieProcess z => exact .panic _

theorem getHandle_keeping (idx : Nat) : Keeping I (getHandle p idx) :=
  .ite (.fail _) (.ite (.panic _) (.bind getProc_keeping fun _ => .pure _))

theorem getHandleCap_keeping (idx : Nat) : Keeping I (getHandleCap idx) :=
  .ite (.fail _) .gets

theorem genericGetHandle_keeping (hndl : HandleArg) (whichArg : Nat) :
    Keeping I (genericGetHandle p hndl whichArg) := by
  cases hndl with
  | handle idx => exact .catchErr (getHandle_keeping idx) fun _ => .fail _
  | unwrappedHandleCap idx => exact .catchErr (getHandleCap_keeping idx) fun _ => .fail _
  | wrappedHandleCap => exact .panic _

theorem genericInvalidHandleError_keeping (hndl : HandleArg) (whichArg : Nat) :
    Keeping I (genericInvalidHandleError hndl whichArg : Handler α) := by
  cases hndl with
  | handle idx => exact .fail _
  | unwrappedHandleCap idx => exact .fail _
  | wrappedHandleCap => exact .panic _

theorem allocateHandle_keeping : Keeping I (allocateHandle p) :=
  .bind getProc_keeping fun _ => .okOr _ _

theorem allocateHandleCap_keeping : Keeping I allocateHandleCap :=
  .bind .gets fun _ => .okOr _ _

theorem genericAllocateHandle_keeping (returnCap : Bool) :
    Keeping I (genericAllocateHandle p returnCap) :=
  .ite allocateHandleCap_keeping allocateHandle_keeping

/-- The search adds addresses up and may overflow, but changes nothing. -/
theorem overlappingWindow_keeping (start size : Nat) : ∀ ws : List WindowRef,
    Keeping I (overlappingWindow start size ws : SProg ε (Option WindowRef))
  | [] => .pure _
  | w :: ws => by
    refine .bind .gets fun window => .bind ?_ fun _ =>
      .ite (.pure _) (overlappingWindow_keeping start size ws)
    unfold overlaps
    have hlast : Keeping I (do
        let nend ← addU start size
        if nend > window.start then
          let wend ← addU window.start window.size
          pure (decide (nend < wend))
        else pure false : SProg ε Bool) :=
      .bind (.addU _ _) fun _ => .ite (.bind (.addU _ _) fun _ => .pure _) (.pure _)
    refine .ite (.bind (.addU _ _) fun wend => ?_) hlast
    dsimp only
    exact .ite (.pure _) hlast

/-- The search compares addresses, and changes nothing. -/
theorem findWindow_keeping (vaddr : Nat) : ∀ ws : List WindowRef,
    Keeping I (findWindow vaddr ws : SProg ε (Option WindowRef))
  | [] => .pure _
  | _ :: ws => .bind .gets fun _ => .ite (.bind (.addU _ _) fun _ =>
      .ite (.pure _) (findWindow_keeping vaddr ws)) (findWindow_keeping vaddr ws)

theorem findWindowContaining_keeping (vaddr : Nat) :
    Keeping I (findWindowContaining p vaddr : SProg ε (Option WindowRef)) :=
  .bind getProc_keeping fun _ => findWindow_keeping vaddr _

theorem procCell_keeping (pid : Pid) : Keeping I (procCell pid : SProg ε Nat) :=
  .bind (.assert _ _) fun _ => .bind .gets fun _ => .bind (.unwrap _ _) fun _ =>
    .bind getProc_keeping fun _ => .pure _

theorem findConnection_keeping (clientId : Pid) : ∀ conns : List ConnectionRef,
    Keeping I (findConnection clientId conns : SProg ε (Option ConnectionRef))
  | [] => .pure _
  | _ :: conns => .bind .gets fun _ => .ite (.pure _) (findConnection_keeping clientId conns)

theorem handleObjStat_keeping (hndl : HandleArg) : Keeping I (handleObjStat p hndl) := by
  refine .bind (genericGetHandle_keeping hndl 0) fun x => .bind (.unwrap _ _) fun y => ?_
  cases y with
  | object o => exact .bind .gets fun _ => .bind .gets fun _ => .pure _
  | _ => exact genericInvalidHandleError_keeping hndl 0

theorem handleChannelOpen_keeping (hndlCap : Nat) :
    Keeping I (handleChannelOpen hndlCap) := by
  refine .bind (.catchErr (getHandleCap_keeping _) fun _ => .fail _) fun x => .bind (.unwrap _ _) fun y => ?_
  cases y with
  | channelAuthority ntfn bit => exact .pure _
  | _ => exact .fail _

/-- It ends in a panic. -/
theorem handleProcessExit_keeping (caps : Nat → Option Cap) :
    Keeping I (handleProcessExit p caps : SProg ε Unit) := fun s _ =>
  Prog.wp_mono (handleProcessExit_spec s p caps) (fun _ _ => False.elim) (fun _ _ => False.elim)
    fun _ h => h

end Reads

/-! ## Steps that touch no handle -/

section Aside

variable {I : State → Prop} [Aside I] {ε α : Type} {p : Nat}

theorem onRes_keeping (m : RProg ε α) : Keeping I (onRes m) := by
  intro s h
  rw [wp_onRes]
  exact Prog.wp_mono Prog.wp_trivial (fun _ r _ => ⟨trivial, Aside.res r h⟩)
    (fun _ r _ => Aside.res r h) fun _ _ => trivial

instance memory_aside : Memory I where
  heaps windows views objects h := Aside.heaps windows views objects h
  onRes _ := onRes_keeping _

instance starting_aside (pos : Pid) : Starting pos I where
  endow _ := onRes_keeping _

/-- A reply object is retyped, and kept as the root server's. -/
theorem renewReply_keeping : Keeping I (renewReply : SProg ε Unit) :=
  .bind (onRes_keeping _) fun reply => .modify fun s h => Aside.rest s.irqs s.dma reply h

/-- A process changes, but neither its pid nor its handles. -/
theorem modifyProc_keeping {f : UserProcess → UserProcess} (hpid : ∀ u, (f u).pid = u.pid)
    (htable : ∀ u, (f u).handleTable = u.handleTable) :
    Keeping I (modifyProc p f : SProg ε Unit) :=
  .modify fun _ h => Aside.proc p f hpid htable h

theorem modifyDispatch_keeping (srv : ServerRef)
    (f : NotificationDispatch → NotificationDispatch) :
    Keeping I (modifyDispatch srv f : SProg ε Unit) :=
  .modify fun _ h => Aside.server srv _ (fun _ => rfl)
    (fun _ => ⟨[], by simp, by simp [NoneGone]⟩) h

/-- A server is told anything but that a connection is gone. -/
theorem enqueue_keeping (srv : ServerRef) {msg : NotificationType}
    (hmsg : ∀ id, msg ≠ .connDestroy id) :
    Keeping I (enqueueNtfnBufferMsg srv msg : SProg ε Unit) := by
  refine .bind .gets fun _ => .ite (.modify fun _ h => ?_) (.panic _)
  refine Aside.server srv _ (fun _ => rfl) (fun _ => ⟨[msg], rfl, fun id hid => ?_⟩) h
  exact hmsg id (List.mem_singleton.mp hid).symm

/-- Recording a handle capability that was asked for, and going on. -/
theorem recordCap_keeping (returnCap : Bool) (idx : Nat) {m : Handler α}
    (h : Keeping I m) : Keeping I (if returnCap then do
        modifyProc p fun u => { u with createdHandleCaps := u.createdHandleCaps ++ [idx] }
        m
      else m) := by
  exact .ite (.bind (modifyProc_keeping (fun _ => rfl) fun _ => rfl) fun _ => h) h

theorem allocateContigPages_keeping (nPages : Nat) (answer : Option Nat) :
    Keeping I (allocateContigPages nPages answer : SProg ε (Nat × List Slot)) := by
  refine .ite (.bind (.unwrap _ _) fun offset => .bind .gets fun pages => .ite ?_ (.panic _)) (.panic _)
  exact .bind (.modify fun s h => Aside.rest s.irqs _ s.reply h) fun _ => .pure _

/-- Every slot of the view is emptied or freed; its links stay. -/
theorem cleanupCapTable_keeping (v : ViewRef) (delete : Bool) :
    Keeping I (cleanupCapTable v delete : SProg ε Unit) := by
  refine .bind .gets fun view => ?_
  rw [Node.forEach_eq]
  generalize Node.values view.caps.root = caps
  refine .forEach fun c _ => ?_
  exact .ite (.bind (onRes_keeping _) fun _ => onRes_keeping _) (onRes_keeping _)

/-- The frames of an object go back one by one; its size stays. -/
theorem cleanupFrameTable_keeping (o : ObjectRef) :
    Keeping I (cleanupFrameTable o : SProg ε Unit) := by
  refine .bind .gets fun object => ?_
  dsimp only
  rw [Node.forEach_eq]
  generalize Node.values object.frames.root = frames
  refine .forEach fun f _ => ?_
  exact .ite (.bind (onRes_keeping _) fun _ => onRes_keeping _) (onRes_keeping _)

theorem dissociateView_keeping (v : ViewRef) :
    Keeping I (dissociateView v : SProg ε Unit) :=
  .bind .gets fun _ => .bind (.unwrap _ _) fun _ => .bind .gets fun _ =>
    .bind (.unwrap _ _) fun _ => modifyObject_keeping _ _

theorem handleUnviewInternal_keeping (v : ViewRef) :
    Keeping I (handleUnviewInternal v : SProg ε Unit) :=
  .bind (cleanupCapTable_keeping v true) fun _ => .bind .gets fun _ =>
    .bind (modifyWindow_keeping _ _) fun _ => .bind .gets fun _ =>
      .bind (.assert _ _) fun _ => dissociateView_keeping v

theorem handleObjDestroyInternal_keeping (o : ObjectRef) (forceDelete : Bool) :
    Keeping I (handleObjDestroyInternal o forceDelete : SProg ε Unit) :=
  .bind .gets fun _ => .ite (.panic _) (cleanupFrameTable_keeping o)

theorem copyIntoView_keeping (v : ViewRef) (offset : Nat) (cap : Slot) :
    Keeping I (copyIntoView v offset cap : SProg ε Unit) :=
  .bind (onRes_keeping _) fun _ => .bind (onRes_keeping _) fun _ => insertCap_keeping _ _ _

/-- The object takes a frame where it has none, and the view a copy. -/
theorem populate_keeping (v : ViewRef) (o : ObjectRef) (offset : Nat) :
    Keeping I (populate v o offset : SProg ε Unit) := by
  refine .bind .gets fun view => .bind (.subU _ _) fun delta => .bind (.addU _ _) fun objOffset => ?_
  refine .bind (.bind .gets fun object => ?_) fun cap => copyIntoView_keeping v offset cap
  split
  · exact .pure _
  · exact .bind (onRes_keeping _) fun _ => .bind (onRes_keeping _) fun _ =>
      .bind (insertFrame_keeping _ _ _) fun _ => .bind (onRes_keeping _) fun _ => .pure _

theorem mapViewPage_keeping (v : ViewRef) (offset : Nat) (vspace : Slot) (addr : Nat) :
    Keeping I (mapViewPage v offset vspace addr : SProg ε Unit) :=
  .bind .gets fun _ => .bind (.unwrap _ _) fun _ => onRes_keeping _

theorem insertFrames_keeping (o : ObjectRef) : ∀ (frames : List ObjectFrame) (offset : Nat),
    Keeping I (insertFrames o offset frames : SProg ε Unit)
  | [], _ => .pure _
  | _ :: frames, offset => .bind (insertFrame_keeping _ _ _) fun _ =>
      insertFrames_keeping o frames (offset + pageSize4K)

theorem allocNtfnBit_keeping (srv : ServerRef) : Keeping I (allocNtfnBit srv) :=
  .bind .gets fun _ => .bind (.okOr _ _) fun _ => .bind (.unwrap _ _) fun _ =>
    .bind (modifyDispatch_keeping srv _) fun _ => .pure _

theorem freeNtfnBit_keeping (srv : ServerRef) (bit : Nat) :
    Keeping I (freeNtfnBit srv bit : SProg ε Unit) :=
  .bind .gets fun _ => .bind (.unwrap _ _) fun _ => modifyDispatch_keeping srv _

theorem mintNtfn_keeping (srv : ServerRef) (ntfn : Slot) (bit : Nat) :
    Keeping I (mintNtfn srv ntfn bit : SProg ε Unit) :=
  .bind .gets fun _ => onRes_keeping _

theorem dispatchNtfnRegister_keeping (srv : ServerRef) :
    Keeping I (dispatchNtfnRegister srv) := by
  refine .bind (.catchErr (allocNtfnBit_keeping srv) fun _ => .fail _) fun bit => ?_
  refine .bind (.catchErr (onRes_keeping _) fun _ => ?_) fun ntfn => ?_
  · exact .bind (freeNtfnBit_keeping srv bit) fun _ => .fail _
  · exact .bind (mintNtfn_keeping _ _ _) fun _ => .bind (modifyDispatch_keeping srv _) fun _ => .pure _

/-- Through all the ways out, each with what it gives back. -/
theorem irqRegister_keeping (srv : ServerRef) (irqNum : Nat) :
    Keeping I (irqRegister srv irqNum) := by
  have hfree : ∀ {α : Type} (e : InvocationError) (bit : Nat), Keeping I (do
      freeNtfnBit srv bit
      Prog.fail e : Handler α) := fun e bit =>
    .bind (freeNtfnBit_keeping srv bit) fun _ => .fail _
  refine .bind (.catchErr (allocNtfnBit_keeping srv) fun _ => .fail _) fun bit => ?_
  refine .bind (.catchErr (onRes_keeping _) fun _ => hfree _ bit) fun handler => ?_
  refine .bind (.catchErr (onRes_keeping _) fun _ => ?_) fun ntfn => ?_
  · exact .bind (onRes_keeping _) fun _ => hfree _ bit
  refine .bind (.catchErr (onRes_keeping _) fun _ => ?_) fun _ => ?_
  · exact .bind (onRes_keeping _) fun _ => .bind (onRes_keeping _) fun _ => hfree _ bit
  refine .bind (mintNtfn_keeping _ _ _) fun _ => .bind (.catchErr (onRes_keeping _) fun _ => ?_) fun _ => ?_
  · refine .bind (onRes_keeping _) fun _ => .bind (onRes_keeping _) fun _ => ?_
    exact .bind (onRes_keeping _) fun _ => .bind (onRes_keeping _) fun _ => hfree _ bit
  · exact .bind (modifyDispatch_keeping srv _) fun _ => .pure _

/-- Up to the reply of the fault it answers. -/
theorem handlePageMap_keeping (args : PageMapArgs) :
    Keeping I (handlePageMap p args) := by
  refine .ite (.fail _) (.ite (.fail _) ?_)
  refine .bind (.catchErr (getHandle_keeping _) fun _ => .fail _) fun x => .bind (.unwrap _ _) fun y => ?_
  cases y with
  | windowRegistration dst =>
    have hanswer : Keeping I (answerPendingFault dst args.viewOffset :
        Handler Unit) := by
      refine .bind .gets fun view => ?_
      cases view.pendingFault with
      | none => exact .pure _
      | some pending =>
        exact .bind (mapViewPage_keeping _ _ _ _) fun _ => .bind (onRes_keeping _) fun _ =>
          .bind (onRes_keeping _) fun _ => modifyView_keeping _ fun _ => rfl
    refine .bind .gets fun _ => .ite (.panic _) ?_
    refine .bind (findWindowContaining_keeping _) fun _ => .bind (.okOr _ _) fun srcWin => ?_
    refine .bind .gets fun srcWindow => .bind (.subU _ _) fun srcOffset => ?_
    refine .bind (.okOr _ _) fun srcView => .bind .gets fun view => ?_
    have hrest : Keeping I (do
        let srcCap ← (← getView srcView).lookupCap srcOffset |> Prog.unwrap .unwrapNone
        copyIntoView dst args.viewOffset srcCap
        answerPendingFault dst args.viewOffset
        pure .pageMap : Handler SMOSReply) :=
      .bind .gets fun _ => .bind (.unwrap _ _) fun cap => .bind (copyIntoView_keeping _ _ _) fun _ =>
        .bind hanswer fun _ => .pure _
    exact .ite (.bind (.unwrap _ _) fun o => .bind (populate_keeping _ _ _) fun _ => hrest) hrest
  | _ => exact .fail _

theorem handleLoadComplete_keeping : Keeping I (handleLoadComplete p) := by
  refine .bind getProc_keeping fun u => .bind (.forEach fun w _ => ?_) fun _ =>
    .bind (modifyProc_keeping (fun _ => rfl) fun _ => rfl) fun _ => .pure _
  refine .bind .gets fun _ => .bind (.unwrap _ _) fun v => .bind .gets fun _ => ?_
  exact .bind (.unwrap _ _) fun o => .bind (cleanupFrameTable_keeping o) fun _ =>
    cleanupCapTable_keeping v false

theorem handleWindowDestroyInternal_keeping (w : WindowRef) (destroyView : Bool) :
    Keeping I (handleWindowDestroyInternal w destroyView : SProg ε Unit) := by
  refine .bind .gets fun window => ?_
  cases window.boundView with
  | none => exact .pure _
  | some v =>
    refine .bind .gets fun view => ?_
    have hview : Keeping I (if destroyView then do
        dissociateView v
        cleanupCapTable v true
      else pure () : SProg ε Unit) :=
      .ite (.bind (dissociateView_keeping v) fun _ => cleanupCapTable_keeping v true) (.pure _)
    cases view.managingServerInfo with
    | none => exact hview
    | some info => exact .bind (enqueue_keeping info.1 (by simp)) fun _ => hview

/-- Waiting for a process that has exited frees its pid. -/
theorem handleProcessWait_keeping (hndl : Nat)
    (hfree : ∀ s pid, I s → I { s with procs := Function.update s.procs pid none }) :
    Keeping I (handleProcessWait p hndl) := by
  refine .bind (.catchErr (getHandle_keeping _) fun _ => .fail _) fun x => .bind (.unwrap _ _) fun y => ?_
  cases y with
  | process proc =>
    refine .ite (.panic _) (.bind .gets fun cells => ?_)
    cases cells proc with
    | activeProcess u =>
      exact .bind .gets fun _ =>
        .bind (modifyProc_keeping (fun _ => rfl) fun _ => rfl) fun _ => .pure _
    | zombieProcess pid =>
      exact .bind (.ite (.modify fun s h => hfree s pid h) (.panic _)) fun _ => .pure _
  | _ => exact .fail _

/-! ### Faults -/

theorem forwardVmFault_keeping (v : ViewRef) (offset : Nat) (reply : Alloc) (addr : Nat) :
    Keeping I (forwardVmFault p v offset reply addr : SProg ε Unit) :=
  .bind .gets fun _ => .bind (.unwrap _ _) fun _ => .bind (enqueue_keeping _ (by simp)) fun _ =>
    .bind getProc_keeping fun _ => modifyView_keeping _ fun _ => rfl

/-- A fault is mapped, forwarded or left. -/
theorem handleVmFault_keeping (reply : Alloc) (addr : Nat) :
    Keeping I (handleVmFault p reply addr : SProg ε (Option FaultReply)) := by
  refine .bind (findWindowContaining_keeping addr) fun found => ?_
  cases found with
  | none => exact .pure _
  | some w =>
    refine .bind .gets fun window => ?_
    cases window.boundView with
    | none => exact .pure _
    | some v =>
      have hmap : ∀ offset, Keeping I (do
          let u ← getProc p
          mapViewPage v offset u.vspace.1 addr
          pure (some ⟨true⟩) : SProg ε (Option FaultReply)) := fun offset =>
        .bind getProc_keeping fun _ => .bind (mapViewPage_keeping _ _ _ _) fun _ => .pure _
      refine .bind (.subU _ _) fun offset => .bind .gets fun view => .ite ?_ (hmap offset)
      cases view.boundObject with
      | none => exact .bind (forwardVmFault_keeping _ _ _ _) fun _ => .pure _
      | some o => exact .bind (populate_keeping _ _ _) fun _ => hmap offset

theorem faultTurn_keeping (pid : Pid) (addr : Nat) : Keeping I (faultTurn pid addr : SProg ε Unit) := by
  refine .bind (procCell_keeping pid) fun p => .bind .gets fun reply => ?_
  refine .bind (onRes_keeping _) fun _ => .bind (handleVmFault_keeping _ _) fun answer => ?_
  split
  · exact onRes_keeping _
  · exact renewReply_keeping

end Aside

/-! ## Steps that give or take a handle -/

section Handling

variable {I : State → Prop} {p : Nat} [AsideHandling p I] {ε : Type}

/-- A handle of an ordinary resource, which is no process and no connection. -/
theorem setHandle_keeping (idx : Nat) {x : Option RootServerResource}
    (hx : ∀ y, x = some y → y.ordinary = true) : Keeping I (setHandle p idx x : SProg ε Unit) :=
  .modify fun _ h => AsideHandling.handle idx x hx h

/-- The shared entries do not depend on the process. -/
theorem setHandleCap_keeping (p : Nat) [AsideHandling p I] (idx : Nat) {x : Option RootServerResource}
    (hx : ∀ y, x = some y → y.ordinary = true) : Keeping I (setHandleCap idx x : SProg ε Unit) :=
  .modify fun _ h => AsideHandling.handleCap p idx x hx h

theorem setAllocatedHandle_keeping (returnCap : Bool) (idx : Nat) {x : RootServerResource}
    (hx : x.ordinary = true) : Keeping I (setAllocatedHandle p returnCap idx x) := by
  have hsome : ∀ y, some x = some y → y.ordinary = true := by
    intro y hy
    cases hy
    exact hx
  exact .ite (setHandleCap_keeping p idx hsome) (setHandle_keeping idx hsome)

theorem cleanupHandle_keeping (idx : Nat) : Keeping I (cleanupHandle p idx) :=
  .ite (.fail _) (.ite (.panic _) (setHandle_keeping idx (by simp)))

theorem genericCleanupHandle_keeping (hndl : HandleArg) (whichArg : Nat) :
    Keeping I (genericCleanupHandle p hndl whichArg) := by
  cases hndl with
  | handle idx => exact .catchErr (cleanupHandle_keeping idx) fun _ => .fail _
  | unwrappedHandleCap idx =>
    exact .catchErr (.ite (.fail _) (setHandleCap_keeping p idx (by simp))) fun _ => .fail _
  | wrappedHandleCap => exact .panic _

theorem handleWindowDeregister_keeping (hndl : Nat) :
    Keeping I (handleWindowDeregister p hndl) := by
  refine .bind (.catchErr (getHandle_keeping _) fun _ => .fail _) fun x => .bind (.unwrap _ _) fun y => ?_
  cases y with
  | windowRegistration v =>
    refine .bind (cleanupCapTable_keeping v true) fun _ => .bind .gets fun view => ?_
    refine .bind (modifyWindow_keeping _ _) fun _ => .bind .gets fun view => ?_
    exact .bind (.assert _ _) fun _ => .bind (cleanupHandle_keeping hndl).expect fun _ => .pure _
  | _ => exact .fail _

theorem handleView_keeping (args : ViewArgs) : Keeping I (handleView p args) := by
  refine .bind (genericGetHandle_keeping _ _) fun x => .bind (.unwrap _ _) fun y => ?_
  cases y with
  | window w =>
    refine .bind (genericGetHandle_keeping _ _) fun x => .bind (.unwrap _ _) fun y => ?_
    cases y with
    | object o =>
      refine .ite (.fail _) (.ite (.fail _) (.ite (.fail _) ?_))
      refine .bind (.addU _ _) fun objEnd => .bind .gets fun object => .ite (.fail _) ?_
      refine .bind (.addU _ _) fun winEnd => .bind .gets fun window => .ite (.fail _) (.ite (.fail _) ?_)
      refine .bind (newView_keeping _) fun v => .bind (modifyWindow_keeping _ _) fun _ => ?_
      refine .bind (modifyObject_keeping _ _) fun _ => .bind allocateHandle_keeping fun idx => ?_
      refine .bind (setHandle_keeping idx (by simp [RootServerResource.ordinary])) fun _ => ?_
      exact .bind (modifyProc_keeping (fun _ => rfl) fun _ => rfl) fun _ => .pure _
    | _ => exact genericInvalidHandleError_keeping _ _
  | _ => exact genericInvalidHandleError_keeping _ _

theorem handleUnview_keeping (hndl : Nat) : Keeping I (handleUnview p hndl) := by
  refine .bind (.catchErr (getHandle_keeping _) fun _ => .fail _) fun x => .bind (.unwrap _ _) fun y => ?_
  cases y with
  | view v =>
    exact .bind (handleUnviewInternal_keeping v) fun _ =>
      .bind (cleanupHandle_keeping hndl).expect fun _ => .pure _
  | _ => exact .fail _

theorem handleObjCreate_keeping (args : ObjCreateArgs) (dmaAnswer : Option Nat) :
    Keeping I (handleObjCreate p args dmaAnswer) := by
  unfold handleObjCreate
  refine .ite (.fail _) (.ite (.fail _) (.ite (.fail _) (.bind (newObject_keeping _) fun o => ?_)))
  have hend : Keeping I (do
      let idx ← genericAllocateHandle p args.returnCap
      setAllocatedHandle p args.returnCap idx (.object o)
      if args.returnCap then
        modifyProc p fun u => { u with createdHandleCaps := u.createdHandleCaps ++ [idx] }
      pure (.objCreate (newHandle args.returnCap idx)) : Handler SMOSReply) := by
    refine .bind (genericAllocateHandle_keeping _) fun idx => ?_
    exact .bind (setAllocatedHandle_keeping _ idx rfl) fun _ => recordCap_keeping _ idx (.pure _)
  refine .ite (.bind (.unwrap _ _) fun name => .bind (.unwrap _ _) fun paddr => ?_) ?_
  · exact .bind (onRes_keeping _) fun frames => .bind (insertFrames_keeping o _ 0) fun _ => hend
  · refine .ite (.bind (allocateContigPages_keeping _ _) fun x => ?_) (.ite (.bind ?_ fun _ => hend) hend)
    · exact .bind (modifyObject_keeping _ _) fun _ => .bind (insertFrames_keeping o _ 0) fun _ => hend
    · refine .forEach fun i _ => .bind (onRes_keeping _) fun frame => .bind (onRes_keeping _) fun cap => ?_
      exact insertFrame_keeping _ _ _

theorem handleObjDestroy_keeping (hndl : HandleArg) :
    Keeping I (handleObjDestroy p hndl) := by
  refine .bind (genericGetHandle_keeping hndl 0) fun x => .bind (.unwrap _ _) fun y => ?_
  cases y with
  | object o =>
    exact .bind (handleObjDestroyInternal_keeping o false) fun _ =>
      .bind (genericCleanupHandle_keeping hndl 0) fun _ => .pure _
  | _ => exact genericInvalidHandleError_keeping hndl 0

theorem handleIrqRegister_keeping (args : IRQRegisterArgs) :
    Keeping I (handleIrqRegister p args) := by
  refine .bind (.catchErr (getHandle_keeping _) fun _ => .fail _) fun x => .bind (.unwrap _ _) fun y => ?_
  cases y with
  | server srv =>
    refine .bind (irqRegister_keeping srv _) fun x => .bind allocateHandle_keeping fun idx => ?_
    refine .bind (fun s h => ⟨trivial, Aside.rest _ s.dma s.reply h⟩) fun irq => ?_
    exact .bind (setHandle_keeping idx (by simp [RootServerResource.ordinary])) fun _ => .pure _
  | _ => exact .fail _

theorem handleReplyCreate_keeping : Keeping I (handleReplyCreate p) :=
  .bind (.catchErr (onRes_keeping _) fun _ => .fail _) fun _ => .bind allocateHandle_keeping fun idx =>
    .bind (setHandle_keeping idx (by simp [RootServerResource.ordinary])) fun _ => .pure _

theorem handleServerHandleCapCreate_keeping (args : ServerHandleCapCreateArgs) :
    Keeping I (handleServerHandleCapCreate p args) := by
  refine .bind (.catchErr (getHandle_keeping _) fun _ => .fail _) fun x => .bind (.unwrap _ _) fun y => ?_
  cases y with
  | server srv =>
    refine .bind .gets fun server => .bind (.catchErr (onRes_keeping _) fun _ => .fail _) fun cap => ?_
    refine .bind (.catchErr (onRes_keeping _) fun _ => ?_) fun _ => ?_
    · exact .bind (onRes_keeping _) fun _ => .fail _
    refine .bind (.catchErr allocateHandle_keeping fun e => ?_) fun idx => ?_
    · exact .bind (onRes_keeping _) fun _ => .bind (onRes_keeping _) fun _ => .fail _
    · exact .bind (setHandle_keeping idx (by simp [RootServerResource.ordinary])) fun _ => .pure _
  | _ => exact .fail _

theorem handleServerCreateChannel_keeping (publishHndl : Nat) :
    Keeping I (handleServerCreateChannel p publishHndl) := by
  refine .bind (.catchErr (getHandle_keeping _) fun _ => .fail _) fun x => .bind (.unwrap _ _) fun y => ?_
  cases y with
  | server srv =>
    refine .bind allocateHandleCap_keeping fun idx => .bind (dispatchNtfnRegister_keeping srv) fun x => ?_
    refine .bind (setHandleCap_keeping p idx (by simp [RootServerResource.ordinary])) fun _ => ?_
    exact .bind (modifyProc_keeping (fun _ => rfl) fun _ => rfl) fun _ => .pure _
  | _ => exact .fail _

theorem handleWindowCreate_keeping (args : WindowCreateArgs) :
    Keeping I (handleWindowCreate p args) := by
  refine .ite (.fail _) (.bind getProc_keeping fun u => ?_)
  refine .bind (overlappingWindow_keeping _ _ _) fun x => ?_
  cases x with
  | some w =>
    exact .bind .gets fun _ => .bind (.addU _ _) fun _ => .bind (.addU _ _) fun _ => .fail _
  | none =>
    refine .bind (genericAllocateHandle_keeping _) fun idx => .bind (newWindow_keeping _) fun w => ?_
    refine .bind (setAllocatedHandle_keeping _ idx rfl) fun _ => recordCap_keeping _ idx ?_
    exact .bind (modifyProc_keeping (fun _ => rfl) fun _ => rfl) fun _ => .pure _

theorem handleWindowRegister_keeping (args : WindowRegisterArgs) :
    Keeping I (handleWindowRegister p args) := by
  refine .bind (.catchErr (getHandle_keeping _) fun _ => .fail _) fun x => .bind (.unwrap _ _) fun y => ?_
  cases y with
  | server srv =>
    refine .bind (.catchErr (getHandleCap_keeping _) fun _ => .fail _) fun x =>
      .bind (.unwrap _ _) fun y => ?_
    cases y with
    | window w =>
      refine .bind allocateHandle_keeping fun idx => .bind (newView_keeping _) fun v => ?_
      refine .bind (modifyWindow_keeping _ _) fun _ => ?_
      exact .bind (setHandle_keeping idx (by simp [RootServerResource.ordinary])) fun _ => .pure _
    | _ => exact .fail _
  | _ => exact .fail _

theorem handleWindowDestroy_keeping (hndl : HandleArg) :
    Keeping I (handleWindowDestroy p hndl) := by
  refine .bind (genericGetHandle_keeping hndl 0) fun x => .bind (.unwrap _ _) fun y => ?_
  cases y with
  | window w =>
    refine .bind (handleWindowDestroyInternal_keeping w true) fun _ => .bind ?_ fun _ =>
      .bind (genericCleanupHandle_keeping hndl 0) fun _ => .pure _
    refine modifyProc_keeping (fun u => ?_) fun u => ?_ <;> (split <;> rfl)
  | _ => exact genericInvalidHandleError_keeping hndl 0

/-- With all that is taken back when a later step fails. -/
theorem handleConnPublish_keeping (args : ConnPublishArgs) :
    Keeping I (handleConnPublish p args) := by
  refine .bind .gets fun _ => .ite (.fail _) (.ite (.fail _) (.bind .gets fun _ => .ite (.fail _) ?_))
  refine .bind getProc_keeping fun u => .bind (overlappingWindow_keeping _ _ _) fun x => ?_
  cases x with
  | some w => exact .fail _
  | none =>
    refine .bind (onRes_keeping _) fun x => .bind (onRes_keeping _) fun cap => ?_
    refine .bind (newWindow_keeping _) fun w => .bind (newObject_keeping _) fun o => ?_
    refine .bind (newView_keeping _) fun v => .bind (modifyWindow_keeping _ _) fun _ => ?_
    refine .bind (modifyObject_keeping _ _) fun _ => .bind (insertFrame_keeping _ _ _) fun _ => ?_
    refine .bind (modifyProc_keeping (fun _ => rfl) fun _ => rfl) fun _ => ?_
    refine .bind (modifyProc_keeping (fun _ => rfl) fun _ => rfl) fun _ => ?_
    refine .bind .gets fun _ => .bind (onRes_keeping _) fun _ => ?_
    refine .bind allocateHandle_keeping fun idx => ?_
    -- the server and its name go in together: no name stands for a server that is not there
    intro s h
    simp only [wp_newServer, Prog.wp_bind, Prog.wp_modify, wp_setHandle, Prog.wp_pure]
    exact ⟨trivial, AsideHandling.publish args.name idx _ rfl rfl h⟩

end Handling

/-! ## Connections -/

section Connecting

variable {I : State → Prop} {p : Nat} [Connecting p I]

theorem handleConnCreate_keeping (name : String) : Keeping I (handleConnCreate p name) := by
  refine .bind getProc_keeping fun u => .bind .gets fun _ => .bind (.okOr _ _) fun srv => ?_
  refine .bind .gets fun server => .ite (.fail _) ?_
  refine .bind (.catchErr (onRes_keeping _) fun _ => .fail _) fun slot => ?_
  refine .bind (onRes_keeping _) fun _ => ?_
  refine .bind (fun s h => ⟨trivial, Connecting.connections p _ h⟩) fun conn => ?_
  refine .bind (.modify fun s h => Connecting.servers p _ h) fun _ => ?_
  refine .bind allocateHandle_keeping fun idx => ?_
  exact .bind (.modify fun _ h => Connecting.anyHandle idx _ h) fun _ => .pure _

theorem handleConnRegister_keeping (args : ConnRegisterArgs) :
    Keeping I (handleConnRegister p args) := by
  refine .bind (.catchErr (getHandle_keeping _) fun _ => .fail _) fun x => .bind (.unwrap _ _) fun y => ?_
  cases y with
  | server srv =>
    refine .bind .gets fun server => .bind (findConnection_keeping _ _) fun found => ?_
    cases found with
    | some conn =>
      refine .bind (.modify fun s h => Connecting.connections p _ h) fun _ => ?_
      refine .bind allocateHandle_keeping fun idx => ?_
      exact .bind (.modify fun _ h => Connecting.anyHandle idx _ h) fun _ => .pure _
    | none => exact .fail _
  | _ => exact .fail _

theorem handleConnDeregister_keeping (hndl : Nat) : Keeping I (handleConnDeregister p hndl) := by
  refine .bind (.catchErr (getHandle_keeping _) fun _ => .fail _) fun x => .bind (.unwrap _ _) fun y => ?_
  cases y with
  | connRegistration conn =>
    exact .bind (.modify fun s h => Connecting.connections p _ h) fun _ =>
      .bind (cleanupHandle_keeping hndl).expect fun _ => .pure _
  | _ => exact .fail _

theorem handleConnDestroy_keeping (hndl : Nat) : Keeping I (handleConnDestroy p hndl) := by
  refine .bind (.catchErr (getHandle_keeping _) fun _ => .fail _) fun x => .bind (.unwrap _ _) fun y => ?_
  cases y with
  | connection conn =>
    have hend : Keeping I (do
        (cleanupHandle p hndl).expect .unwrapNone
        pure .connDestroy : Handler SMOSReply) :=
      .bind (cleanupHandle_keeping hndl).expect fun _ => .pure _
    refine .bind .gets fun connection => .bind (onRes_keeping _) fun _ => .ite ?_ hend
    refine .bind (.bind .gets fun _ => .ite (.modify fun s h => ?_) (.panic _)) fun _ => hend
    exact Connecting.servers p _ h
  | _ => exact .fail _

end Connecting

/-! ## Every handler -/

/-- An invocation that makes, registers or ends a connection. -/
def Invocation.ofConnection : Invocation → Bool
  | .connCreate _ | .connRegister _ | .connDeregister _ | .connDestroy _ => true
  | _ => false

/-- An invocation that gets as far as to write to the process table. -/
def Invocation.ofProcess : Invocation → Bool
  | .processSpawn _ _ | .processWait _ => true
  | _ => false

section Syscalls

variable {I : State → Prop}

/-- Most handlers keep what is aside of them. Those of connections need an invariant that does not
mind connections, and those of processes are left to it. -/
theorem handleSyscall_keeping (setup : Setup) {p : Nat} [AsideHandling p I] (inv : Invocation)
    (hconn : inv.ofConnection = true → Connecting p I)
    (hproc : inv.ofProcess = true → Keeping I (handleSyscall setup p inv)) :
    Keeping I (handleSyscall setup p inv) := by
  cases inv with
  | windowCreate args => exact (handleWindowCreate_keeping args).map
  | windowDestroy hndl => exact (handleWindowDestroy_keeping hndl).map
  | windowRegister args => exact (handleWindowRegister_keeping args).map
  | windowDeregister hndl => exact (handleWindowDeregister_keeping hndl).map
  | irqRegister args => exact (handleIrqRegister_keeping args).map
  | connPublish args => exact (handleConnPublish_keeping args).map
  | objCreate args dmaAnswer => exact (handleObjCreate_keeping args dmaAnswer).map
  | objStat hndl => exact (handleObjStat_keeping hndl).map
  | objDestroy hndl => exact (handleObjDestroy_keeping hndl).map
  | view args => exact (handleView_keeping args).map
  | unview hndl => exact (handleUnview_keeping hndl).map
  | replyCreate => exact handleReplyCreate_keeping.map
  | serverHandleCapCreate args => exact (handleServerHandleCapCreate_keeping args).map
  | serverCreateChannel publishHndl => exact (handleServerCreateChannel_keeping publishHndl).map
  | channelOpen hndlCap => exact (handleChannelOpen_keeping hndlCap).map
  | pageMap args => exact (handlePageMap_keeping args).map
  | loadComplete => exact handleLoadComplete_keeping.map
  | processExit caps => exact .bind (handleProcessExit_keeping caps) fun _ => .pure _
  | connCreate name =>
    have := hconn rfl
    exact (handleConnCreate_keeping name).map
  | connDestroy hndl =>
    have := hconn rfl
    exact (handleConnDestroy_keeping hndl).map
  | connRegister args =>
    have := hconn rfl
    exact (handleConnRegister_keeping args).map
  | connDeregister hndl =>
    have := hconn rfl
    exact (handleConnDeregister_keeping hndl).map
  | processSpawn args answers => exact hproc rfl
  | processWait hndl => exact hproc rfl

/-- A turn adds a reply, or a new reply object for the next one. -/
theorem syscallTurn_keeping (setup : Setup) [Aside I] (pid : Pid) {inv : Invocation}
    (h : ∀ p, Keeping I (handleSyscall setup p inv)) : Keeping I (syscallTurn setup pid inv) := by
  refine .bind (procCell_keeping pid) fun p => .bind .gets fun reply => .bind (h p) fun r => ?_
  cases r with
  | none => exact .bind (onRes_keeping _) fun _ => .bind renewReply_keeping fun _ => .pure _
  | some r =>
    refine .bind ?_ fun _ => .pure _
    cases r with
    | processWait => exact .panic _
    | _ => exact .pure _

end Syscalls

end Smos.RootServer
