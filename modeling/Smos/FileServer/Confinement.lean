/-
Smos.FileServer.Confinement — which pages the boot file server maps.

A view keeps what it was asked for, and a fault in it is answered with the
page at the start of the file's data plus the fault's offset in the view
plus the object offset of the view. The length of the file takes no part,
neither when the view is made nor when the fault is served.

A run keeps the views that were accepted and the pages that the root
server mapped for the file server. `run_confined_iff` says when all of
them lie in the files.
-/
import Smos.Base.Keeps
import Smos.Base.Run
import Smos.FileServer.Handlers

namespace Smos.FileServer

open Smos.Base
open Smos.RootServer (InvocationError CapRights NotificationType pageSize4K usizeBound)

variable {ρ : Type}

/-! ## Runs -/

/-- A page the root server has mapped for the file server. -/
structure Page where
  viewOffset : Nat
  contentVaddr : Nat
  deriving DecidableEq, Repr

/-- A call on the root server that leaves the list of mapped pages alone. -/
def Call.beside {α : Type} (m : Call ρ α) : Call (ρ × List Page) α :=
  Prog.zoom Prod.fst (fun x r => (r, x.2)) m

/-- The root server, with a list of the pages it has mapped. -/
def Env.recording (env : Env ρ) : Env (ρ × List Page) where
  connRegister clientId := (env.connRegister clientId).beside
  connDeregister hndl := (env.connDeregister hndl).beside
  windowCreate start size := (env.windowCreate start size).beside
  windowDestroy hndl := (env.windowDestroy hndl).beside
  view window objectCap winOffset objOffset size rights :=
    (env.view window objectCap winOffset objOffset size rights).beside
  unview hndl := (env.unview hndl).beside
  windowRegister windowCap clientId reference :=
    (env.windowRegister windowCap clientId reference).beside
  windowDeregister hndl := (env.windowDeregister hndl).beside
  pageMap registrationHndl viewOffset contentVaddr := do
    (env.pageMap registrationHndl viewOffset contentVaddr).beside
    Prog.modify fun x => (x.1, x.2 ++ [⟨viewOffset, contentVaddr⟩])
  allocate x := ((env.allocate x.1).1, (env.allocate x.1).2, x.2)
  free allocation x := (env.free allocation x.1, x.2)

inductive Event where
  /-- A `View` request was accepted, for a file's object, with its two offsets. -/
  | accepted (v : ViewRef) (file : File) (winOffset objOffset : Nat)
  /-- A fault was forwarded for a view and answered with a page. -/
  | mapped (v : ViewRef) (faultOffset page : Nat)
  deriving DecidableEq

inductive Op (ρ : Type) where
  | invoke (id : Nat) (inv : Invocation)
  | notify (msg : NotificationType)
  /-- The root server does something else. -/
  | root (r : ρ)

structure System (ρ : Type) where
  server : State (ρ × List Page)
  events : List Event

/-- The file whose object a `View` request names. -/
def viewedFile (s : State ρ) (id : Nat) (object : HandleArg) : Option File :=
  (findClientFromId s id).bind fun k =>
    match getObjectHandle k object 1 (Prog.fail .invalidArguments) s with
    | .ok o _ => some (s.objects o).file
    | _ => none

def Invocation.accepted (s : State ρ) (id : Nat) : Invocation → Reply → List Event
  | .view _ object winOffset objOffset _ _, .view _ =>
    match viewedFile s id object with
    | some file => [.accepted s.views.next file winOffset objOffset]
    | none => []
  | _, _ => []

/-- The view a notification refers to. -/
def notified (s : State ρ) (clientId reference : Nat) : Option ViewRef :=
  (findClientFromId s clientId).bind fun k =>
    match (notifiedView k reference : FsProg ρ Unit ViewRef) s with
    | .ok v _ => some v
    | _ => none

/-- What the answer to a notification has mapped. -/
def mappedPages (s s' : State (ρ × List Page)) : NotificationType → List Event
  | .vmFault clientId reference faultOffset =>
    match notified s clientId reference with
    | some v => (s'.root.2.drop s.root.2.length).map fun page =>
        .mapped v faultOffset page.contentVaddr
    | none => []
  | _ => []

def System.step (env : Env ρ) (sys : System ρ) : Op ρ → Option (System ρ)
  | .invoke id inv =>
    match handleInvocation env.recording id inv sys.server with
    | .ok r s => some ⟨s, sys.events ++ inv.accepted sys.server id r⟩
    | .err _ s => some ⟨s, sys.events⟩
    | .panic _ => none
  | .notify msg =>
    match (handleNotification env.recording msg : FsProg _ Unit Unit) sys.server with
    | .ok _ s => some ⟨s, sys.events ++ mappedPages sys.server s msg⟩
    | .err _ s => some ⟨s, sys.events⟩
    | .panic _ => none
  | .root r => some { sys with server := { sys.server with root := (r, sys.server.root.2) } }

/-- The file server has just entered its loop. -/
structure Initial (sys : System ρ) : Prop where
  views : sys.server.views.next = 0
  clients : sys.server.clients = List.replicate maxClients none
  handleCaps : sys.server.handleCaps = List.replicate maxHandleCaps none
  nothing : sys.events = []

/-- The runs of the file server. -/
abbrev FsRun (env : Env ρ) : List (Op ρ) → System ρ → Prop :=
  Run Initial (System.step env) fun _ _ => True

/-! ## What the handlers keep -/

/-- The handle refers to a cell. -/
def Known (s : State ρ) : BFSResource → Prop
  | .object o => o < s.objects.next
  | .view v => v < s.views.next

/-- Every handle refers to a cell, and every view to an object. -/
structure Sound (s : State ρ) : Prop where
  clients : ∀ c, some c ∈ s.clients → ∀ h, some h ∈ c.handles → Known s h
  handleCaps : ∀ h, some h ∈ s.handleCaps → Known s h
  viewObject : ∀ v < s.views.next, (s.views v).object < s.objects.next

/-- No view and no object's file has changed. -/
structure Kept (s₀ s : State ρ) : Prop where
  views : s.views = s₀.views
  objects : s₀.objects.next ≤ s.objects.next
  files : ∀ o < s₀.objects.next, (s.objects o).file = (s₀.objects o).file

/-- The invariant of the handlers that make no view. -/
def Holding (s₀ s : State ρ) : Prop := Kept s₀ s ∧ Sound s

/-- The program keeps the views and the files, and a value of it satisfies `Q`. -/
abbrev Holds (s₀ : State ρ) {ε α : Type} (Q : α → Prop) (m : FsProg ρ ε α) : Prop :=
  m.Keeps (Holding s₀) Q

section Steps

variable {s₀ s : State ρ} {ε α : Type}

theorem Kept.refl (s : State ρ) : Kept s s := ⟨rfl, Nat.le_refl _, fun _ _ => rfl⟩

/-- A change of the root server. -/
theorem Holding.root (h : Holding s₀ s) (r : ρ) : Holding s₀ { s with root := r } :=
  ⟨{ h.1 with }, { h.2 with }⟩

theorem call_holds (m : Call ρ α) : Holds s₀ (fun _ => True) (call m) := by
  intro s hs
  unfold Prog.wp call
  cases m s.root with
  | ok a r => exact ⟨trivial, hs.root r⟩
  | err e r => exact hs.root r
  | panic p => trivial

theorem freeWindow_holds (env : Env ρ) (allocation : Nat) :
    Holds s₀ (fun _ => True) (freeWindow env allocation : FsProg ρ ε Unit) :=
  .modify trivial fun _ hs => hs.root _

theorem allocateWindow_holds (env : Env ρ) :
    Holds s₀ (fun _ => True) (allocateWindow env : FsProg ρ ε (Option Nat)) :=
  fun _ hs => ⟨trivial, hs.root _⟩

theorem getClient_holds (k : Nat) :
    Holds s₀ (fun _ => True) (getClient k : FsProg ρ ε Client) :=
  .bind .gets_any fun _ _ => .unwrap fun _ _ => trivial

theorem getHandle_holds (k idx : Nat) : Holds s₀ (fun _ => True) (getHandle k idx) :=
  .ite (fun _ => .fail _) fun _ => .bind (getClient_holds k) fun _ _ => .unwrap fun _ _ => trivial

theorem allocateHandle_holds (k : Nat) :
    Holds s₀ (fun _ => True) (allocateHandle k) :=
  .bind (getClient_holds k) fun _ _ => .okOr fun _ _ => trivial

theorem getHandleCap_holds (idx : Nat) : Holds s₀ (fun _ => True) (getHandleCap idx) :=
  .bind .gets_any fun _ _ => .okOr fun _ _ => trivial

theorem genericGetHandle_holds (k : Nat) (hndl : HandleArg) (whichArg : Nat) :
    Holds s₀ (fun _ => True) (genericGetHandle k hndl whichArg) := by
  cases hndl with
  | handle idx => exact .catchErr (getHandle_holds k idx) fun _ => .fail _
  | unwrappedHandleCap idx => exact .catchErr (getHandleCap_holds idx) fun _ => .fail _
  | wrappedHandleCap cap => exact .panic _

theorem genericInvalidHandleError_holds (hndl : HandleArg) (whichArg : Nat) :
    Holds s₀ (fun _ => True) (genericInvalidHandleError hndl whichArg : Handler ρ α) := by
  cases hndl with
  | handle idx => exact .fail _
  | unwrappedHandleCap idx => exact .fail _
  | wrappedHandleCap cap => exact .panic _

theorem getObjectHandle_holds (k : Nat) (hndl : HandleArg) (whichArg : Nat)
    {otherwise : Handler ρ ObjectRef} (h : Holds s₀ (fun _ => True) otherwise) :
    Holds s₀ (fun _ => True) (getObjectHandle k hndl whichArg otherwise) := by
  refine .bind (genericGetHandle_holds k hndl whichArg) fun x _ => ?_
  refine .bind (R := fun _ => True) (.unwrap fun _ _ => trivial) fun x _ => ?_
  cases x with
  | object o => exact .pure trivial
  | view v => exact h

/-- A slot of the client table is set to a client whose handles are known. -/
theorem Holding.setClient (h : Holding s₀ s) (k : Nat) {client : Option Client}
    (hc : ∀ c, client = some c → ∀ r, some r ∈ c.handles → Known s r) :
    Holding s₀ { s with clients := s.clients.set k client } := by
  refine ⟨{ h.1 with }, { h.2 with clients := fun c hmem r hr => ?_ }⟩
  obtain hmem | heq := List.mem_or_eq_of_mem_set hmem
  · exact h.2.clients c hmem r hr
  · exact hc c heq.symm r hr

theorem setHandle_holding (h : Holding s₀ s) (k idx : Nat) {hndl : Option BFSResource}
    (hk : ∀ r, hndl = some r → Known s r) :
    (setHandle k idx hndl : FsProg ρ ε Unit).wp (fun _ => Holding s₀) (fun _ _ => False)
      (fun _ => True) s := by
  simp only [setHandle, getClient, FileServer.setClient, Prog.wp_bind, Prog.wp_gets,
    Prog.wp_unwrap, Prog.wp_modify]
  refine ⟨fun c hc => h.setClient k fun c' heq r hr => ?_, fun _ => trivial⟩
  cases heq
  obtain hr | heq := List.mem_or_eq_of_mem_set hr
  · exact h.2.clients c (List.mem_of_getElem? (Option.join_eq_some_iff.mp hc)) r hr
  · exact hk r heq.symm

theorem clearHandle_holds (k idx : Nat) :
    Holds s₀ (fun _ => True) (setHandle k idx none : FsProg ρ ε Unit) := fun _ hs =>
  Prog.wp_mono (setHandle_holding hs k idx nofun) (fun _ _ h => ⟨trivial, h⟩)
    (fun _ _ => False.elim) fun _ h => h

theorem setHandleCap_holding (h : Holding s₀ s) (idx : Nat) {hndl : Option BFSResource}
    (hk : ∀ r, hndl = some r → Known s r) :
    Holding s₀ { s with handleCaps := s.handleCaps.set idx hndl } := by
  refine ⟨{ h.1 with }, { h.2 with handleCaps := fun r hr => ?_ }⟩
  obtain hr | heq := List.mem_or_eq_of_mem_set hr
  · exact h.2.handleCaps r hr
  · exact hk r heq.symm

theorem genericCleanupHandle_holds (k : Nat) (hndl : HandleArg) (whichArg : Nat) :
    Holds s₀ (fun _ => True) (genericCleanupHandle k hndl whichArg) := by
  cases hndl with
  | handle idx =>
    refine .catchErr (.ite (fun _ => .fail _) fun _ => ?_) fun _ => .fail _
    exact .bind (getClient_holds k) fun _ _ => .bind .assert fun _ _ => clearHandle_holds k idx
  | unwrappedHandleCap idx =>
    refine .catchErr (.bind (getHandleCap_holds idx) fun _ _ => ?_) fun _ => .fail _
    exact .modify trivial fun _ hs => setHandleCap_holding hs idx nofun
  | wrappedHandleCap cap => exact .panic _

/-- Only the list of views of an object changes. -/
theorem removeFromObject_holds (v : ViewRef) :
    Holds s₀ (fun _ => True) (removeFromObject v : FsProg ρ ε Unit) := by
  refine .bind .gets_any fun view _ => .bind .gets_any fun object _ => ?_
  refine .bind (R := fun _ => True) (.unwrap fun _ _ => trivial) fun pos _ => ?_
  refine .modify trivial fun s hs => ⟨⟨hs.1.views, hs.1.objects, fun o ho => ?_⟩, ?_⟩
  · refine (s.objects.update_preserves Object.file
      (f := fun object => { object with associatedViews := swapRemove object.associatedViews pos })
      rfl o).trans (hs.1.files o ho)
  · exact { hs.2 with }

theorem notifiedClient_holds (clientId : Nat) :
    Holds s₀ (fun _ => True) (notifiedClient clientId : FsProg ρ ε Nat) :=
  .bind .gets_any fun _ _ => .unwrap fun _ _ => trivial

theorem notifiedView_holds (k reference : Nat) :
    Holds s₀ (fun _ => True) (notifiedView k reference : FsProg ρ ε ViewRef) := by
  refine .bind (getHandle_holds k reference).expect fun x _ => ?_
  refine .bind (R := fun _ => True) (.unwrap fun _ _ => trivial) fun x _ => ?_
  cases x with
  | object o => exact .panic _
  | view v => exact .pure trivial

theorem closeSharedBuffer_holds (env : Env ρ) (client : Client) :
    Holds s₀ (fun _ => True) (closeSharedBuffer env client : FsProg ρ ε Unit) := by
  unfold closeSharedBuffer
  split
  · exact .pure trivial
  · exact .bind (call_holds _).expect fun _ _ => .bind (call_holds _).expect fun _ _ =>
      freeWindow_holds env _

theorem clearClient_holds (k : Nat) :
    Holds s₀ (fun _ => True) (setClient k none : FsProg ρ ε Unit) :=
  .modify trivial fun _ hs => hs.setClient k nofun

end Steps

/-! ## The handlers -/

section Handlers

variable {s₀ s : State ρ} {ε : Type} (env : Env ρ)

theorem failOpen_holds {α : Type} (registrationHndl : Nat) (e : InvocationError) :
    Holds s₀ (fun _ => True) (failOpen env registrationHndl e : Handler ρ α) :=
  .bind (call_holds _).expect fun _ _ => .fail e

theorem openSharedBuffer_holds (registrationHndl : Nat) (object : HandleArg) (size : Nat) :
    Holds s₀ (fun _ => True) (openSharedBuffer env registrationHndl object size) := by
  refine .ite (fun _ => failOpen_holds env _ _) fun _ => ?_
  refine .bind (allocateWindow_holds env) fun index _ => ?_
  cases index with
  | none => exact failOpen_holds env _ _
  | some index =>
    refine .bind (.catchErr (call_holds _) fun e => ?_) fun window _ => ?_
    · exact .bind (freeWindow_holds env index) fun _ _ => failOpen_holds env _ e
    refine .bind (R := fun _ => True) (.okOr fun _ _ => trivial) fun cap _ => ?_
    refine .bind (.catchErr (call_holds _) fun e => ?_) fun view _ => .pure trivial
    exact .bind (call_holds _).expect fun _ _ => .bind (freeWindow_holds env index) fun _ _ =>
      failOpen_holds env _ e

theorem handleConnOpen_holds (id : Nat) (sharedBufObj : Option (HandleArg × Nat)) :
    Holds s₀ (fun _ => True) (handleConnOpen env id sharedBufObj) := by
  unfold handleConnOpen
  refine .bind .gets_any fun _ _ => .bind (R := fun _ => True) (.okOr fun _ _ => trivial) ?_
  intro slot _
  refine .bind (call_holds _) fun registrationHndl _ => ?_
  -- the new client has no handles
  have hclient : ∀ buffer, Holds s₀ (fun _ => True) (do
      setClient slot (some ⟨id, buffer, List.replicate maxHandles none, registrationHndl⟩)
      pure .connOpen : Handler ρ Reply) := by
    intro buffer
    refine .bind (.modify (Q := fun _ => True) trivial fun s hs => hs.setClient slot ?_)
      fun _ _ => .pure trivial
    intro c hc r hr
    cases hc
    simp at hr
  cases sharedBufObj with
  | none => exact .bind (R := fun _ => True) (.pure trivial) fun buffer _ => hclient buffer
  | some x =>
    refine .bind (R := fun _ => True) ?_ fun buffer _ => hclient buffer
    exact .bind (openSharedBuffer_holds env _ _ _) fun _ _ => .pure trivial

theorem handleConnClose_holds (k : Nat) : Holds s₀ (fun _ => True) (handleConnClose env k) :=
  .bind (getClient_holds k) fun client _ => .bind (closeSharedBuffer_holds env client) fun _ _ =>
    .bind (call_holds _).expect fun _ _ => .bind (clearClient_holds k) fun _ _ => .pure trivial

theorem handleObjStat_holds (k : Nat) (hndl : HandleArg) :
    Holds s₀ (fun _ => True) (handleObjStat k hndl) :=
  .bind (getObjectHandle_holds k hndl 0 (genericInvalidHandleError_holds hndl 0)) fun _ _ =>
    .bind .gets_any fun _ _ => .pure trivial

theorem handleObjClose_holds (k : Nat) (hndl : HandleArg) :
    Holds s₀ (fun _ => True) (handleObjClose k hndl) := by
  refine .bind (getObjectHandle_holds k hndl 0 (genericInvalidHandleError_holds hndl 0)) ?_
  intro o _
  refine .bind .gets_any fun object _ => .ite (fun _ => ?_) fun _ => .panic _
  exact .bind (genericCleanupHandle_holds k hndl 0).expect fun _ _ => .pure trivial

/-- A new object is known from then on. -/
theorem Holding.newObject (h : Holding s₀ s) (x : Object) :
    Holding s₀ { s with objects := s.objects.alloc x } := by
  have hknown : ∀ r, Known s r → Known { s with objects := s.objects.alloc x } r := by
    intro r hr
    cases r with
    | object o => exact Nat.lt_succ_of_lt hr
    | view v => exact hr
  constructor
  · refine ⟨h.1.views, Nat.le_succ_of_le h.1.objects, fun o ho => ?_⟩
    exact (congrArg Object.file (s.objects.alloc_of_lt (Nat.lt_of_lt_of_le ho h.1.objects) x)).trans
      (h.1.files o ho)
  · exact ⟨fun c hc r hr => hknown r (h.2.clients c hc r hr),
      fun r hr => hknown r (h.2.handleCaps r hr),
      fun v hv => Nat.lt_succ_of_lt (h.2.viewObject v hv)⟩

theorem handleObjOpen_holds (k : Nat) (name : String) (returnCap : Bool) :
    Holds s₀ (fun _ => True) (handleObjOpen k name returnCap) := by
  unfold handleObjOpen
  refine .bind .gets_any fun _ _ => .bind (R := fun _ => True) (.okOr fun _ _ => trivial) ?_
  intro file _
  refine .bind (R := fun _ => True) ?_ fun idx _ => ?_
  · unfold genericAllocateHandle
    refine .ite (fun _ => ?_) fun _ => ?_
    · exact .bind .gets_any fun _ _ => .okOr fun _ _ => trivial
    · exact allocateHandle_holds k
  intro s hs
  have hs' := hs.newObject (Object.mk file [])
  have hknown : Known { s with objects := s.objects.alloc (Object.mk file []) }
      (.object s.objects.next) := Nat.lt_succ_self _
  rw [Prog.wp_bind]
  show Prog.wp _ _ _ _ { s with objects := s.objects.alloc (Object.mk file []) }
  cases returnCap with
  | true =>
    refine ⟨trivial, setHandleCap_holding hs' idx fun r hr => ?_⟩
    cases hr
    exact hknown
  | false =>
    rw [if_neg Bool.false_ne_true, Prog.wp_bind]
    refine Prog.wp_mono (setHandle_holding hs' k idx fun r hr => ?_) (fun _ _ h => ⟨trivial, h⟩)
      (fun _ _ => False.elim) fun _ h => h
    cases hr
    exact hknown

theorem handleUnview_holds (k idx : Nat) : Holds s₀ (fun _ => True) (handleUnview env k idx) := by
  refine .bind (.catchErr (getHandle_holds k idx) fun _ => .fail _) fun x _ => ?_
  refine .bind (R := fun _ => True) (.unwrap fun _ _ => trivial) fun x _ => ?_
  cases x with
  | object o => exact .fail _
  | view v =>
    exact .bind .gets_any fun view _ => .bind (call_holds _).expect fun _ _ =>
      .bind (removeFromObject_holds v) fun _ _ => .bind (clearHandle_holds k idx) fun _ _ =>
        .pure trivial

theorem contentVaddr_holds (v : ViewRef) (faultOffset : Nat) :
    Holds s₀ (fun _ => True) (contentVaddr v faultOffset : FsProg ρ ε Nat) := by
  have haddU : ∀ a b, Holds s₀ (fun _ => True) (addU a b : FsProg ρ ε Nat) := fun a b =>
    .ite (fun _ => .prog_pure trivial) fun _ => .panic _
  refine .bind .gets_any fun view _ => .ite (fun _ => .panic _) fun _ => ?_
  refine .bind (haddU _ _) fun winEnd _ => .ite (fun _ => .panic _) fun _ => ?_
  exact .bind .gets_any fun object _ => .bind (haddU _ _) fun offset _ => .pure trivial

theorem handleNotification_holds (msg : NotificationType) :
    Holds s₀ (fun _ => True) (handleNotification env msg : FsProg ρ ε Unit) := by
  cases msg with
  | vmFault clientId reference faultOffset =>
    exact .bind (notifiedClient_holds clientId) fun k _ => .bind (notifiedView_holds k reference)
      fun v _ => .bind (contentVaddr_holds v faultOffset) fun addr _ => .bind .gets_any
        fun view _ => (call_holds _).expect
  | connDestroy connId =>
    refine .bind (notifiedClient_holds connId) fun k _ => .bind (getClient_holds k) fun client _ => ?_
    refine .ite (fun _ => .panic _) fun _ => ?_
    exact .bind (closeSharedBuffer_holds env client) fun _ _ => clearClient_holds k
  | windowDestroy clientId reference =>
    exact .bind (notifiedClient_holds clientId) fun k _ => .bind (notifiedView_holds k reference)
      fun v _ => .bind (removeFromObject_holds v) fun _ _ => clearHandle_holds k reference

/-- Reading a handle changes nothing, and the handle is known. -/
theorem getObjectHandle_spec (hs : Sound s) (k : Nat) (hndl : HandleArg) (whichArg : Nat)
    (e : InvocationError) :
    (getObjectHandle k hndl whichArg (Prog.fail e)).wp
      (fun o s' => s' = s ∧ o < s.objects.next) (fun _ s' => s' = s) (fun _ => True) s := by
  have hread : (genericGetHandle k hndl whichArg).wp
      (fun x s' => s' = s ∧ ∀ r, x = some r → Known s r) (fun _ s' => s' = s) (fun _ => True) s := by
    cases hndl with
    | handle idx =>
      simp only [genericGetHandle, getHandle, getClient, Prog.wp_catchErr, Prog.wp_ite,
        Prog.wp_fail, Prog.wp_bind, Prog.wp_gets, Prog.wp_unwrap]
      refine ⟨fun _ => trivial, fun _ => ⟨fun c hc => ⟨fun x hx => ⟨trivial, fun r hr => ?_⟩, ?_⟩, ?_⟩⟩
      · have hmem : some c ∈ s.clients := List.mem_of_getElem? (Option.join_eq_some_iff.mp hc)
        exact hs.clients c hmem r (hr ▸ List.mem_of_getElem? hx)
      · exact fun _ => trivial
      · exact fun _ => trivial
    | unwrappedHandleCap idx =>
      simp only [genericGetHandle, getHandleCap, Prog.wp_catchErr, Prog.wp_fail, Prog.wp_bind,
        Prog.wp_gets, Prog.wp_okOr]
      refine ⟨fun x hx => ⟨trivial, fun r hr => ?_⟩, fun _ => trivial⟩
      exact hs.handleCaps r (hr ▸ List.mem_of_getElem? hx)
    | wrappedHandleCap cap => trivial
  unfold getObjectHandle
  rw [Prog.wp_bind]
  refine Prog.wp_mono hread ?_ (fun _ _ h => h) fun _ h => h
  intro x s' hpost
  rcases hpost with ⟨heq, hknown⟩
  subst heq
  rw [Prog.wp_bind, Prog.wp_unwrap]
  refine ⟨fun r hr => ?_, fun _ => trivial⟩
  cases r with
  | object o => exact ⟨rfl, hknown _ hr⟩
  | view v => rfl

/-- A view of the object `o` has been made, with these offsets. -/
structure Viewed (s : State ρ) (o : ObjectRef) (winOffset objOffset : Nat) (s' : State ρ) :
    Prop where
  view : ∃ x : ViewData, x.object = o ∧ x.winOffset = winOffset ∧ x.objOffset = objOffset ∧
    s'.views = s.views.alloc x
  object : o < s.objects.next
  objects : s.objects.next ≤ s'.objects.next
  files : ∀ o < s.objects.next, (s'.objects o).file = (s.objects o).file
  sound : Sound s'

theorem handleView_spec (hs : Sound s) (k : Nat) (window object : HandleArg)
    (windowOffset objOffset size : Nat) (rights : CapRights) :
    (handleView env k window object windowOffset objOffset size rights).wp
      (fun r s' => ∃ idx o, r = .view idx ∧
        getObjectHandle k object 1 (Prog.fail .invalidArguments) s = .ok o s ∧
        Viewed s o windowOffset objOffset s')
      (fun _ => Holding s) (fun _ => True) s := by
  have hstart : Holding s s := ⟨.refl s, hs⟩
  simp only [handleView, Prog.wp_bind, Prog.wp_okOr]
  refine ⟨fun windowCap _ => ?_, fun _ => hstart⟩
  refine Prog.wp_mono (Prog.wp_run (getObjectHandle_spec hs k object 1 .invalidArguments)) ?_
    (fun _ _ h => h ▸ hstart) fun _ h => h
  intro o s₁ hpost
  rcases hpost with ⟨⟨heq, ho⟩, hrun⟩
  subst heq
  refine Prog.wp_mono (getClient_holds k s₁ hstart) ?_ (fun _ _ h => h) fun _ h => h
  intro client s₂ hpost
  rcases hpost with ⟨-, h₂⟩
  refine Prog.wp_mono (allocateHandle_holds k s₂ h₂) ?_ (fun _ _ h => h) fun _ h => h
  intro idx s₃ hpost
  rcases hpost with ⟨-, h₃⟩
  refine Prog.wp_mono (call_holds _ s₃ h₃) ?_ (fun _ _ h => h) fun _ h => h
  intro regHndl s₄ hpost
  rcases hpost with ⟨-, h₄⟩
  have ho₄ : o < s₄.objects.next := Nat.lt_of_lt_of_le ho h₄.1.objects
  -- the state with the new view, which no handle names yet
  let x : ViewData := ⟨o, size, windowOffset, objOffset, rights, regHndl⟩
  let s₅ : State ρ := { s₄ with
    views := s₄.views.alloc x
    objects := s₄.objects.update o fun object =>
      { object with associatedViews := object.associatedViews ++ [s₄.views.next] } }
  have hknown : ∀ r, Known s₄ r → Known s₅ r := by
    intro r hr
    cases r with
    | object o' => exact hr
    | view v => exact Nat.lt_succ_of_lt hr
  have h₅ : Sound s₅ := by
    refine ⟨fun c hc r hr => hknown r (h₄.2.clients c hc r hr),
      fun r hr => hknown r (h₄.2.handleCaps r hr), fun v hv => ?_⟩
    by_cases hnew : v = s₄.views.next
    · subst hnew
      show ((s₄.views.alloc x) s₄.views.next).object < s₄.objects.next
      rw [Heap.alloc_self]
      exact ho₄
    · show ((s₄.views.alloc x) v).object < s₄.objects.next
      rw [Heap.alloc_of_ne _ hnew]
      have hv' : v < s₄.views.next + 1 := hv
      exact h₄.2.viewObject v (by omega)
  show Prog.wp _ _ _ _ s₅
  have hsame : Holding s₅ s₅ := ⟨.refl s₅, h₅⟩
  refine Prog.wp_mono (setHandle_holding hsame k idx fun r hr => ?_) ?_ (fun _ _ => False.elim)
    fun _ h => h
  · cases hr
    exact Nat.lt_succ_self _
  intro _ s₆ hpost
  rcases hpost with ⟨h₆, hsound⟩
  refine ⟨idx, o, rfl, hrun, ⟨x, rfl, rfl, rfl, ?_⟩, ho, ?_, fun o' ho' => ?_, hsound⟩
  · rw [h₆.views, ← h₄.1.views]
  · exact Nat.le_trans h₄.1.objects h₆.objects
  · have ho'₄ : o' < s₄.objects.next := Nat.lt_of_lt_of_le ho' h₄.1.objects
    refine (h₆.files o' ho'₄).trans (Eq.trans ?_ (h₄.1.files o' ho'))
    exact s₄.objects.update_preserves Object.file (f := fun object =>
      { object with associatedViews := object.associatedViews ++ [s₄.views.next] }) rfl o'

end Handlers

/-! ## The page of a fault -/

section Fault

variable {s s' : State ρ} {ε : Type}

/-- The page `x` bytes into the file is one of its pages exactly when `x` lies in them. -/
theorem File.holds_iff (file : File) {x : Nat} (hx : x < usizeBound) :
    file.Holds ((file.data + x) % usizeBound) ↔ x < file.pagesLength := by
  have ha := file.aligned
  have hf := file.fits
  simp only [File.Holds, File.pagesLength, usizeBound, pageSize4K] at ha hf hx ⊢
  omega

theorem notifiedClient_spec (clientId : Nat) :
    (notifiedClient clientId : FsProg ρ ε Nat).wp
      (fun k s' => s' = s ∧ findClientFromId s clientId = some k) (fun _ _ => False)
      (fun _ => True) s := by
  simp only [notifiedClient, Prog.wp_bind, Prog.wp_gets, Prog.wp_unwrap]
  exact ⟨fun k hk => ⟨trivial, hk⟩, fun _ => trivial⟩

theorem notifiedView_spec (hs : Sound s) (k reference : Nat) :
    (notifiedView k reference : FsProg ρ ε ViewRef).wp
      (fun v s' => s' = s ∧ v < s.views.next) (fun _ _ => False) (fun _ => True) s := by
  simp only [notifiedView, getHandle, getClient, Prog.wp_bind, Prog.wp_expect, Prog.wp_ite,
    Prog.wp_fail, Prog.wp_gets, Prog.wp_unwrap]
  refine ⟨fun _ => trivial, fun _ => ⟨fun c hc => ⟨fun x hx => ⟨fun r hr => ?_, ?_⟩, ?_⟩, ?_⟩⟩
  · have hmem : some c ∈ s.clients := List.mem_of_getElem? (Option.join_eq_some_iff.mp hc)
    have hknown := hs.clients c hmem r (hr ▸ List.mem_of_getElem? hx)
    cases r with
    | object o => trivial
    | view v => exact ⟨rfl, hknown⟩
  all_goals exact fun _ => trivial

/-- The page depends on the start of the file, the fault and the two offsets of the view. -/
theorem contentVaddr_spec (v : ViewRef) (faultOffset : Nat) :
    (contentVaddr v faultOffset : FsProg ρ ε Nat).wp
      (fun addr s' => s' = s ∧
        faultOffset - (s.views v).winOffset + (s.views v).objOffset < usizeBound ∧
        addr = ((s.objects (s.views v).object).file.data +
          (faultOffset - (s.views v).winOffset + (s.views v).objOffset)) % usizeBound)
      (fun _ _ => False) (fun _ => True) s := by
  simp only [contentVaddr, getView, getObject, addU, Prog.wp_bind, Prog.wp_gets, Prog.wp_ite,
    Prog.wp_panic, Prog.wp_prog_pure, Prog.wp_pure]
  exact ⟨fun _ => trivial, fun _ => ⟨fun _ => ⟨fun _ => trivial, fun _ => ⟨fun hlt =>
    ⟨trivial, hlt, trivial⟩, fun _ => trivial⟩⟩, fun _ => trivial⟩⟩

/-- The list of mapped pages grows by the page that was asked for. -/
theorem pageMap_records {s s' : State (ρ × List Page)} (env : Env ρ)
    {hndl viewOffset contentVaddr : Nat}
    (h : ((call (env.recording.pageMap hndl viewOffset contentVaddr)).expect .callFailed :
      FsProg _ Unit Unit) s = .ok () s') :
    s'.root.2 = s.root.2 ++ [⟨viewOffset, contentVaddr⟩] := by
  have hwp : ((call (env.recording.pageMap hndl viewOffset contentVaddr)).expect .callFailed :
      FsProg _ Unit Unit).wp
      (fun _ s' => s'.root.2 = s.root.2 ++ [⟨viewOffset, contentVaddr⟩]) (fun _ _ => False)
      (fun _ => True) s := by
    rw [Prog.wp_expect]
    have hcall : (env.recording.pageMap hndl viewOffset contentVaddr).wp
        (fun _ r => r.2 = s.root.2 ++ [⟨viewOffset, contentVaddr⟩]) (fun _ _ => True)
        (fun _ => True) s.root := by
      simp only [Env.recording, Call.beside, Prog.wp_bind, Prog.wp_zoom, Prog.wp_modify]
      exact Prog.wp_trivial
    unfold Prog.wp at hcall ⊢
    unfold call
    cases hm : env.recording.pageMap hndl viewOffset contentVaddr s.root with
    | ok a r => rw [hm] at hcall; exact hcall
    | err e r => trivial
    | panic p => trivial
  have hpages := Prog.wp_ok hwp h
  exact hpages

/-- A fault that is served maps one page for the view it names. -/
theorem handleVmFault_spec {s s' : State (ρ × List Page)} (env : Env ρ) (hs : Sound s)
    {clientId reference faultOffset : Nat}
    (h : (handleVmFault env.recording clientId reference faultOffset : FsProg _ Unit Unit) s =
      .ok () s') :
    ∃ v, notified s clientId reference = some v ∧ v < s.views.next ∧
      faultOffset - (s.views v).winOffset + (s.views v).objOffset < usizeBound ∧
      s'.root.2 = s.root.2 ++ [⟨faultOffset, ((s.objects (s.views v).object).file.data +
        (faultOffset - (s.views v).winOffset + (s.views v).objOffset)) % usizeBound⟩] := by
  obtain ⟨k, s₁, hk, h₁⟩ := Prog.bind_ok h
  obtain ⟨rfl, hclient⟩ := Prog.wp_ok (notifiedClient_spec clientId) hk
  obtain ⟨v, s₂, hv, h₂⟩ := Prog.bind_ok h₁
  obtain ⟨rfl, hlt⟩ := Prog.wp_ok (notifiedView_spec hs k reference) hv
  obtain ⟨addr, s₃, haddr, h₃⟩ := Prog.bind_ok h₂
  obtain ⟨rfl, hbound, rfl⟩ := Prog.wp_ok (contentVaddr_spec v faultOffset) haddr
  refine ⟨v, ?_, hlt, hbound, ?_⟩
  · rw [notified, hclient, Option.bind_some, hv]
  · obtain ⟨view, s₄, hview, h₄⟩ := Prog.bind_ok h₃
    cases hview
    exact pageMap_records env h₄

end Fault

/-! ## Runs -/

/-- The accepted view has the offsets and the file it was accepted for. -/
def Records (s : State (ρ × List Page)) (v : ViewRef) (file : File) (winOffset objOffset : Nat) :
    Prop :=
  v < s.views.next ∧ (s.views v).winOffset = winOffset ∧ (s.views v).objOffset = objOffset ∧
    (s.objects (s.views v).object).file = file

/-- The events of a run account for the views there are and for the pages mapped. -/
structure Accounted (sys : System ρ) : Prop where
  sound : Sound sys.server
  accepted : ∀ v file winOffset objOffset, .accepted v file winOffset objOffset ∈ sys.events →
    Records sys.server v file winOffset objOffset
  known : ∀ v < sys.server.views.next, ∃ file winOffset objOffset,
    .accepted v file winOffset objOffset ∈ sys.events
  mapped : ∀ v faultOffset page, .mapped v faultOffset page ∈ sys.events →
    ∃ file winOffset objOffset, .accepted v file winOffset objOffset ∈ sys.events ∧
      faultOffset - winOffset + objOffset < usizeBound ∧
      page = (file.data + (faultOffset - winOffset + objOffset)) % usizeBound

namespace Accounted

variable {sys : System ρ} {s' : State (ρ × List Page)}

theorem initial (h : Initial sys) : Accounted sys where
  sound := by
    refine ⟨fun c hc => ?_, fun r hr => ?_, fun v hv => ?_⟩
    · rw [h.clients] at hc
      simp at hc
    · rw [h.handleCaps] at hr
      simp at hr
    · rw [h.views] at hv
      exact absurd hv (Nat.not_lt_zero v)
  accepted v file winOffset objOffset hmem := by
    rw [h.nothing] at hmem
    cases hmem
  known v hv := by
    rw [h.views] at hv
    exact absurd hv (Nat.not_lt_zero v)
  mapped v faultOffset page hmem := by
    rw [h.nothing] at hmem
    cases hmem

/-- Without a new view or a new page. -/
theorem holding (h : Accounted sys) (hs : Holding sys.server s') :
    Accounted ⟨s', sys.events⟩ where
  sound := hs.2
  accepted v file winOffset objOffset hmem := by
    obtain ⟨hv, hwin, hobj, hfile⟩ := h.accepted v file winOffset objOffset hmem
    refine ⟨hs.1.views ▸ hv, ?_⟩
    rw [hs.1.views, hs.1.files _ (h.sound.viewObject v hv)]
    exact ⟨hwin, hobj, hfile⟩
  known v hv := h.known v (hs.1.views ▸ hv)
  mapped := h.mapped

theorem viewed (h : Accounted sys) {o : ObjectRef} {winOffset objOffset : Nat}
    (hs : Viewed sys.server o winOffset objOffset s') :
    Accounted ⟨s', sys.events ++
      [.accepted sys.server.views.next (sys.server.objects o).file winOffset objOffset]⟩ := by
  obtain ⟨x, rfl, rfl, rfl, hviews⟩ := hs.view
  refine ⟨hs.sound, ?_, ?_, ?_⟩
  · intro v file winOffset objOffset hmem
    obtain hmem | hmem := List.mem_append.mp hmem
    · obtain ⟨hv, hwin, hobj, hfile⟩ := h.accepted v file winOffset objOffset hmem
      have hcell : s'.views v = sys.server.views v := by rw [hviews, Heap.alloc_of_lt _ hv]
      refine ⟨?_, ?_⟩
      · show v < s'.views.next
        rw [hviews]
        exact Nat.lt_succ_of_lt hv
      · show (s'.views v).winOffset = _ ∧ (s'.views v).objOffset = _ ∧
          (s'.objects (s'.views v).object).file = _
        rw [hcell, hs.files _ (h.sound.viewObject v hv)]
        exact ⟨hwin, hobj, hfile⟩
    · cases List.mem_singleton.mp hmem
      have hcell : s'.views sys.server.views.next = x := by rw [hviews, Heap.alloc_self]
      refine ⟨?_, ?_⟩
      · show sys.server.views.next < s'.views.next
        rw [hviews]
        exact Nat.lt_succ_self _
      · show (s'.views sys.server.views.next).winOffset = _ ∧
          (s'.views sys.server.views.next).objOffset = _ ∧
          (s'.objects (s'.views sys.server.views.next).object).file = _
        rw [hcell, hs.files _ hs.object]
        exact ⟨rfl, rfl, rfl⟩
  · intro v hv
    have hv' : v < sys.server.views.next + 1 := by
      rw [hviews] at hv
      exact hv
    by_cases hnew : v = sys.server.views.next
    · subst hnew
      exact ⟨_, _, _, List.mem_append_right _ (List.mem_singleton_self _)⟩
    · obtain ⟨file, winOffset, objOffset, hmem⟩ := h.known v (by omega)
      exact ⟨file, winOffset, objOffset, List.mem_append_left _ hmem⟩
  · intro v faultOffset page hmem
    obtain hmem | hmem := List.mem_append.mp hmem
    · obtain ⟨file, winOffset, objOffset, hacc, hpage⟩ := h.mapped v faultOffset page hmem
      exact ⟨file, winOffset, objOffset, List.mem_append_left _ hacc, hpage⟩
    · cases List.mem_singleton.mp hmem

theorem pages (h : Accounted sys) {v : ViewRef} {faultOffset page : Nat}
    (hv : v < sys.server.views.next)
    (hbound : faultOffset - (sys.server.views v).winOffset + (sys.server.views v).objOffset <
      usizeBound)
    (hpage : page = ((sys.server.objects (sys.server.views v).object).file.data +
      (faultOffset - (sys.server.views v).winOffset + (sys.server.views v).objOffset)) %
        usizeBound) :
    Accounted ⟨sys.server, sys.events ++ [.mapped v faultOffset page]⟩ := by
  refine ⟨h.sound, ?_, ?_, ?_⟩
  · intro v file winOffset objOffset hmem
    obtain hmem | hmem := List.mem_append.mp hmem
    · exact h.accepted v file winOffset objOffset hmem
    · cases List.mem_singleton.mp hmem
  · intro v hv
    obtain ⟨file, winOffset, objOffset, hmem⟩ := h.known v hv
    exact ⟨file, winOffset, objOffset, List.mem_append_left _ hmem⟩
  · intro v' faultOffset' page' hmem
    obtain hmem | hmem := List.mem_append.mp hmem
    · obtain ⟨file, winOffset, objOffset, hacc, hpage⟩ := h.mapped v' faultOffset' page' hmem
      exact ⟨file, winOffset, objOffset, List.mem_append_left _ hacc, hpage⟩
    · cases List.mem_singleton.mp hmem
      obtain ⟨file, winOffset, objOffset, hacc⟩ := h.known v hv
      obtain ⟨-, rfl, rfl, rfl⟩ := h.accepted v file winOffset objOffset hacc
      exact ⟨_, _, _, List.mem_append_left _ hacc, hbound, hpage⟩

end Accounted

/-- What an invocation does: it keeps every view and file, or it makes a view. -/
theorem handleInvocation_spec {s : State ρ} (env : Env ρ) (hs : Sound s) (id : Nat)
    (inv : Invocation) :
    (handleInvocation env id inv).wp
      (fun r s' => (Holding s s' ∧ inv.accepted s id r = []) ∨
        ∃ o winOffset objOffset, Viewed s o winOffset objOffset s' ∧
          inv.accepted s id r = [.accepted s.views.next (s.objects o).file winOffset objOffset])
      (fun _ => Holding s) (fun _ => True) s := by
  have hstart : Holding s s := ⟨.refl s, hs⟩
  -- the invocations that make no view
  have hkeep : ∀ {m : Handler ρ Reply}, Holds s (fun _ => True) m →
      (∀ r, inv.accepted s id r = []) →
      m.wp (fun r s' => (Holding s s' ∧ inv.accepted s id r = []) ∨
        ∃ o winOffset objOffset, Viewed s o winOffset objOffset s' ∧
          inv.accepted s id r = [.accepted s.views.next (s.objects o).file winOffset objOffset])
      (fun _ => Holding s) (fun _ => True) s := fun hm hnone =>
    Prog.wp_mono (hm s hstart) (fun r _ h => .inl ⟨h.2, hnone r⟩) (fun _ _ h => h) fun _ h => h
  unfold handleInvocation
  rw [Prog.wp_bind, Prog.wp_gets]
  cases hk : findClientFromId s id with
  | none =>
    cases inv with
    | connOpen sharedBufObj => exact hkeep (handleConnOpen_holds env id sharedBufObj) fun _ => rfl
    | _ => trivial
  | some k =>
    cases inv with
    | connOpen sharedBufObj => trivial
    | connClose => exact hkeep (handleConnClose_holds env k) fun _ => rfl
    | objOpen name returnCap => exact hkeep (handleObjOpen_holds k name returnCap) fun _ => rfl
    | objClose hndl => exact hkeep (handleObjClose_holds k hndl) fun _ => rfl
    | objStat hndl => exact hkeep (handleObjStat_holds k hndl) fun _ => rfl
    | unview hndl => exact hkeep (handleUnview_holds env k hndl) fun _ => rfl
    | other => trivial
    | view window object windowOffset objOffset size rights =>
      refine Prog.wp_mono (handleView_spec env hs k window object windowOffset objOffset size rights)
        ?_ (fun _ _ h => h) fun _ h => h
      intro r s' ⟨idx, o, hr, hrun, hviewed⟩
      refine .inr ⟨o, windowOffset, objOffset, hviewed, ?_⟩
      subst hr
      simp only [Invocation.accepted, viewedFile, hk, Option.bind_some, hrun]

theorem step_accounted {env : Env ρ} {sys sys' : System ρ} {op : Op ρ} (h : Accounted sys)
    (hstep : sys.step env op = some sys') : Accounted sys' := by
  have hstart : Holding sys.server sys.server := ⟨.refl _, h.sound⟩
  cases op with
  | invoke id inv =>
    have hspec := handleInvocation_spec env.recording h.sound id inv
    simp only [System.step] at hstep
    split at hstep <;> cases hstep
    · next r s' hok =>
      obtain ⟨hkeep, hnone⟩ | ⟨o, winOffset, objOffset, hviewed, hacc⟩ := Prog.wp_ok hspec hok
      · rw [hnone, List.append_nil]
        exact h.holding hkeep
      · rw [hacc]
        exact h.viewed hviewed
    · next herr =>
      have hkeep := Prog.wp_err hspec herr
      exact h.holding hkeep
  | notify msg =>
    have hkeeps : Holds sys.server (fun _ => True)
        (handleNotification env.recording msg : FsProg _ Unit Unit) :=
      handleNotification_holds env.recording msg
    simp only [System.step] at hstep
    split at hstep <;> cases hstep
    · next s' hok =>
      have hkeep := (hkeeps.ok hstart hok).2
      cases msg with
      | vmFault clientId reference faultOffset =>
        obtain ⟨v, hv, hlt, hbound, hpages⟩ := handleVmFault_spec env h.sound hok
        have hnew := h.pages hlt hbound rfl
        simp only [mappedPages, hv, hpages, List.drop_left, List.map_cons, List.map_nil]
        exact hnew.holding hkeep
      | connDestroy connId =>
        show Accounted ⟨s', sys.events ++ []⟩
        rw [List.append_nil]
        exact h.holding hkeep
      | windowDestroy clientId reference =>
        show Accounted ⟨s', sys.events ++ []⟩
        rw [List.append_nil]
        exact h.holding hkeep
    · next herr => exact h.holding (hkeeps.err hstart herr)
  | root r =>
    cases hstep
    exact h.holding (hstart.root _)

theorem run_accounted {env : Env ρ} {ops : List (Op ρ)} {sys : System ρ}
    (run : FsRun env ops sys) : Accounted sys :=
  run.invariant (fun _ h => .initial h) fun _ _ _ h _ hstep => step_accounted h hstep

/-- **Confinement.** In every run, every page mapped for a view lies in the pages that hold the
data of the file the view was accepted for, exactly when for every page mapped the fault's
offset in the view plus the object offset lies below the length of these pages. -/
theorem run_confined_iff {env : Env ρ} {ops : List (Op ρ)} {sys : System ρ}
    (run : FsRun env ops sys) :
    (∀ v faultOffset page, .mapped v faultOffset page ∈ sys.events →
      ∃ file winOffset objOffset, .accepted v file winOffset objOffset ∈ sys.events ∧
        file.Holds page) ↔
    ∀ v faultOffset page file winOffset objOffset, .mapped v faultOffset page ∈ sys.events →
      .accepted v file winOffset objOffset ∈ sys.events →
      faultOffset - winOffset + objOffset < file.pagesLength := by
  have hinv := run_accounted run
  constructor
  · intro h v faultOffset page file winOffset objOffset hmap hacc
    obtain ⟨file', winOffset', objOffset', hacc', hholds⟩ := h v faultOffset page hmap
    obtain ⟨-, rfl, rfl, rfl⟩ := hinv.accepted v _ _ _ hacc
    obtain ⟨-, rfl, rfl, rfl⟩ := hinv.accepted v _ _ _ hacc'
    obtain ⟨_, _, _, hacc'', hbound, hpage⟩ := hinv.mapped v faultOffset page hmap
    obtain ⟨-, rfl, rfl, rfl⟩ := hinv.accepted v _ _ _ hacc''
    rw [hpage] at hholds
    exact (File.holds_iff _ hbound).mp hholds
  · intro h v faultOffset page hmap
    obtain ⟨file, winOffset, objOffset, hacc, hbound, hpage⟩ := hinv.mapped v faultOffset page hmap
    refine ⟨file, winOffset, objOffset, hacc, ?_⟩
    rw [hpage]
    exact (File.holds_iff file hbound).mpr (h v faultOffset page file winOffset objOffset hmap hacc)

/-! ## A root server that grants everything -/

/-- Registrations, windows and views get the handle 0. -/
def grantingEnv : Env Unit where
  connRegister _ := pure 0
  connDeregister _ := pure ()
  windowCreate _ _ := pure 0
  windowDestroy _ := pure ()
  view _ _ _ _ _ _ := pure 0
  unview _ := pure ()
  windowRegister _ _ _ := pure 0
  windowDeregister _ := pure ()
  pageMap _ _ _ := pure ()
  allocate _ := (some 0, ())
  free _ _ := ()

def initFile : File := ⟨"init", 0x400000, 100, by decide, by decide⟩

def timerFile : File := ⟨"timer", 0x401000, 200, by decide, by decide⟩

/-- Two files, one page each, next to each other. -/
def twoFiles : System Unit where
  server :=
    { root := ((), [])
      files := [initFile, timerFile]
      objects := Heap.empty ⟨initFile, []⟩
      views := Heap.empty ⟨0, 0, 0, 0, .none, 0⟩
      clients := List.replicate maxClients none
      handleCaps := List.replicate maxHandleCaps none }
  events := []

/-- A client views a page of `init` at this object offset, and faults at the start of the view. -/
def viewInit (objOffset : Nat) : List (Op Unit) :=
  [.invoke 7 (.connOpen none), .invoke 7 (.objOpen "init" false),
    .invoke 7 (.view (.wrappedHandleCap 3) (.handle 0) 0 objOffset 4096 .all),
    .notify (.vmFault 7 1 0)]

theorem twoFiles_initial : Initial twoFiles := ⟨rfl, rfl, rfl, rfl⟩

theorem viewInit_inside : ∃ sys, FsRun grantingEnv (viewInit 0) sys ∧
    sys.events = [.accepted 0 initFile 0 0, .mapped 0 0 0x400000] :=
  Run.exists_of_steps twoFiles_initial ⟨trivial, trivial, trivial, trivial, trivial⟩
    (by decide +kernel)

theorem viewInit_outside : ∃ sys, FsRun grantingEnv (viewInit 4096) sys ∧
    sys.events = [.accepted 0 initFile 0 4096, .mapped 0 0 0x401000] :=
  Run.exists_of_steps twoFiles_initial ⟨trivial, trivial, trivial, trivial, trivial⟩
    (by decide +kernel)

/-- A view of the file itself is confined. -/
theorem init_confined : ∃ sys, FsRun grantingEnv (viewInit 0) sys ∧
    ∀ v faultOffset page, .mapped v faultOffset page ∈ sys.events →
      ∃ file winOffset objOffset, .accepted v file winOffset objOffset ∈ sys.events ∧
        file.Holds page := by
  obtain ⟨sys, run, hevents⟩ := viewInit_inside
  refine ⟨sys, run, (run_confined_iff run).mpr ?_⟩
  intro v faultOffset page file winOffset objOffset hmap hacc
  rw [hevents] at hmap hacc
  simp only [List.mem_cons, List.not_mem_nil, or_false, reduceCtorEq, false_or, Event.mapped.injEq,
    Event.accepted.injEq] at hmap hacc
  obtain ⟨-, rfl, -⟩ := hmap
  obtain ⟨-, rfl, rfl, rfl⟩ := hacc
  decide

/-- A view of `init` one page further on is answered with the page of `timer`. -/
theorem init_leaks_timer : ∃ sys, FsRun grantingEnv (viewInit 4096) sys ∧
    timerFile.Holds 0x401000 ∧
    ¬ ∀ v faultOffset page, .mapped v faultOffset page ∈ sys.events →
      ∃ file winOffset objOffset, .accepted v file winOffset objOffset ∈ sys.events ∧
        file.Holds page := by
  obtain ⟨sys, run, hevents⟩ := viewInit_outside
  refine ⟨sys, run, by decide, fun h => ?_⟩
  obtain ⟨file, winOffset, objOffset, hacc, hholds⟩ := h 0 0 0x401000 (by rw [hevents]; simp)
  rw [hevents] at hacc
  simp only [List.mem_cons, List.not_mem_nil, or_false, reduceCtorEq, Event.accepted.injEq] at hacc
  obtain ⟨-, rfl, -, -⟩ := hacc
  exact absurd hholds (by decide)

end Smos.FileServer
