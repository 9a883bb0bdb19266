/-
Smos.RootServer.Effects — what the building blocks of the handlers do.

Each block that several handlers share has a relation between the state
before and the state after, which spells the new state out: `GotFrame` for
finding or making an object's frame, `Copied` for putting a capability
into a view, `Mapped` for mapping a view's page, `Cleaned` for emptying a
list of slots, `Freed` for giving back the frames of an object. The
specifications of the handlers are compositions of these, and what an
invariant needs to know of a handler it learns from them.

The first part rewrites `wp` for the accessors of `State`.
-/
import Smos.RootServer.Connection
import Smos.RootServer.Proc
import Smos.RootServer.ResourceSpecs

namespace Smos.RootServer

open Smos.Base

/-! ## Processes and handles of a state -/

namespace State

/-- `f` on the process in a cell. -/
def updProc (s : State) (p : Nat) (f : UserProcess → UserProcess) : State :=
  { s with procCells := s.procCells.update p (ProcessType.map f) }

def setHandleAt (s : State) (loc : HandleLoc) (h : Option RootServerResource) : State :=
  match loc with
  | .table p idx =>
    s.updProc p fun u => { u with handleTable := Function.update u.handleTable idx h }
  | .cap idx => { s with handleCaps := Function.update s.handleCaps idx h }

/-- The place exists: an entry of an active process's table, or of the shared one. -/
def ValidLoc (s : State) : HandleLoc → Prop
  | .table p idx => idx < maxHandles ∧ ∃ u, s.procCells p = .activeProcess u
  | .cap idx => idx < maxHandleCaps

/-- `windows` of the process in a cell. -/
def windowsOf (s : State) (p : Nat) : List WindowRef :=
  match s.procCells p with
  | .activeProcess u => u.windows
  | .zombieProcess _ => []

/-- `initial_windows` of the process in a cell. -/
def initialOf (s : State) (p : Nat) : List WindowRef :=
  match s.procCells p with
  | .activeProcess u => u.initialWindows
  | .zombieProcess _ => []

variable {s : State}

theorem handleAt_setHandleAt {loc : HandleLoc} (hloc : s.ValidLoc loc)
    (h : Option RootServerResource) (loc' : HandleLoc) :
    (s.setHandleAt loc h).handleAt loc' = if loc' = loc then h else s.handleAt loc' := by
  cases loc with
  | cap idx =>
    cases loc' with
    | table p' idx' => simp [setHandleAt, handleAt]
    | cap idx' =>
      have hlt : idx < maxHandleCaps := hloc
      by_cases hi : idx' = idx
      · subst hi; simp [setHandleAt, handleAt, hlt]
      · simp [setHandleAt, handleAt, hi]
  | table p idx =>
    obtain ⟨hlt, u, hu⟩ := hloc
    cases loc' with
    | cap idx' => simp [setHandleAt, handleAt, updProc]
    | table p' idx' =>
      simp only [setHandleAt, handleAt, updProc, Heap.update_apply, HandleLoc.table.injEq]
      by_cases hp : p' = p
      · subst hp
        simp only [if_true, hu, ProcessType.map, true_and]
        by_cases hi : idx' = idx
        · subst hi; simp [hlt]
        · simp [hi]
      · simp [hp]

end State

/-! ## Accessors -/

section Accessors

variable {ε α : Type} {E : ε → State → Prop} {P : Panic → Prop} {s : State}

@[simp] theorem wp_onRes {m : RProg ε α} {Q : α → State → Prop} :
    (onRes m).wp Q E P s ↔
      m.wp (fun a r => Q a { s with res := r }) (fun e r => E e { s with res := r }) P s.res :=
  Prog.wp_zoom

@[simp] theorem wp_getWindow {w : WindowRef} {Q : Window → State → Prop} :
    (getWindow w : SProg ε Window).wp Q E P s ↔ Q (s.windows w) s := Iff.rfl

@[simp] theorem wp_getView {v : ViewRef} {Q : View → State → Prop} :
    (getView v : SProg ε View).wp Q E P s ↔ Q (s.views v) s := Iff.rfl

@[simp] theorem wp_getObject {o : ObjectRef} {Q : AnonymousMemoryObject → State → Prop} :
    (getObject o : SProg ε AnonymousMemoryObject).wp Q E P s ↔ Q (s.objects o) s := Iff.rfl

@[simp] theorem wp_getServer {srv : ServerRef} {Q : Server → State → Prop} :
    (getServer srv : SProg ε Server).wp Q E P s ↔ Q (s.servers srv) s := Iff.rfl

variable {Q : Unit → State → Prop}

@[simp] theorem wp_modifyWindow {w : WindowRef} {f : Window → Window} :
    (modifyWindow w f : SProg ε Unit).wp Q E P s ↔
      Q () { s with windows := s.windows.update w f } := Iff.rfl

@[simp] theorem wp_modifyView {v : ViewRef} {f : View → View} :
    (modifyView v f : SProg ε Unit).wp Q E P s ↔
      Q () { s with views := s.views.update v f } := Iff.rfl

@[simp] theorem wp_modifyObject {o : ObjectRef}
    {f : AnonymousMemoryObject → AnonymousMemoryObject} :
    (modifyObject o f : SProg ε Unit).wp Q E P s ↔
      Q () { s with objects := s.objects.update o f } := Iff.rfl

@[simp] theorem wp_modifyServer {srv : ServerRef} {f : Server → Server} :
    (modifyServer srv f : SProg ε Unit).wp Q E P s ↔
      Q () { s with servers := s.servers.update srv f } := Iff.rfl

@[simp] theorem wp_newWindow {x : Window} {Q : WindowRef → State → Prop} :
    (newWindow x : SProg ε WindowRef).wp Q E P s ↔
      Q s.windows.next { s with windows := s.windows.alloc x } := Iff.rfl

@[simp] theorem wp_newView {x : View} {Q : ViewRef → State → Prop} :
    (newView x : SProg ε ViewRef).wp Q E P s ↔
      Q s.views.next { s with views := s.views.alloc x } := Iff.rfl

@[simp] theorem wp_newObject {x : AnonymousMemoryObject} {Q : ObjectRef → State → Prop} :
    (newObject x : SProg ε ObjectRef).wp Q E P s ↔
      Q s.objects.next { s with objects := s.objects.alloc x } := Iff.rfl

@[simp] theorem wp_newServer {x : Server} {Q : ServerRef → State → Prop} :
    (newServer x : SProg ε ServerRef).wp Q E P s ↔
      Q s.servers.next { s with servers := s.servers.alloc x } := Iff.rfl

@[simp] theorem wp_newProcCell {x : ProcessType} {Q : Nat → State → Prop} :
    (newProcCell x : SProg ε Nat).wp Q E P s ↔
      Q s.procCells.next { s with procCells := s.procCells.alloc x } := Iff.rfl

@[simp] theorem wp_getProc {p : Nat} {Q : UserProcess → State → Prop} :
    (getProc p : SProg ε UserProcess).wp Q E P s ↔
      (∀ u, s.procCells p = .activeProcess u → Q u s) ∧
      (∀ pid, s.procCells p = .zombieProcess pid → P .zombie) := by
  simp only [getProc, Prog.wp_bind, Prog.wp_gets]
  cases s.procCells p with
  | activeProcess u => simp
  | zombieProcess pid => simp

@[simp] theorem wp_modifyProc {p : Nat} {f : UserProcess → UserProcess} :
    (modifyProc p f : SProg ε Unit).wp Q E P s ↔
      Q () { s with procCells := s.procCells.update p (ProcessType.map f) } := Iff.rfl

@[simp] theorem wp_setHandle {p idx : Nat} {h : Option RootServerResource} :
    (setHandle p idx h : SProg ε Unit).wp Q E P s ↔
      Q () (s.setHandleAt (.table p idx) h) := Iff.rfl

@[simp] theorem wp_setHandleCap {idx : Nat} {h : Option RootServerResource} :
    (setHandleCap idx h : SProg ε Unit).wp Q E P s ↔ Q () (s.setHandleAt (.cap idx) h) := Iff.rfl

end Accessors

/-! ## Handles -/

section Handles

variable {ε : Type} (s : State) (p : Nat)

theorem getHandle_spec (idx : Nat) :
    (getHandle p idx).wp
      (fun h s' => s' = s ∧ s.ValidLoc (.table p idx) ∧ h = s.handleAt (.table p idx))
      (fun _ s' => s' = s) Panic.Low s := by
  simp only [getHandle, Prog.wp_ite, Prog.wp_fail, Prog.wp_panic, Prog.wp_bind, wp_getProc,
    Prog.wp_pure]
  refine ⟨fun _ => trivial, fun h₁ => ⟨fun _ => by decide, fun h₂ => ⟨fun u hu => ?_,
    fun _ _ => by decide⟩⟩⟩
  have hlt : idx < maxHandles := by omega
  exact ⟨trivial, ⟨hlt, u, hu⟩, by simp [State.handleAt, hu, hlt]⟩

theorem getHandleCap_spec (idx : Nat) :
    (getHandleCap idx).wp
      (fun h s' => s' = s ∧ s.ValidLoc (.cap idx) ∧ h = s.handleAt (.cap idx))
      (fun _ s' => s' = s) Panic.Low s := by
  simp only [getHandleCap, Prog.wp_ite, Prog.wp_fail, Prog.wp_gets]
  refine ⟨fun _ => trivial, fun h => ?_⟩
  have hlt : idx < maxHandleCaps := by omega
  exact ⟨trivial, hlt, by simp [State.handleAt, hlt]⟩

theorem genericGetHandle_spec (hndl : HandleArg) (whichArg : Nat) :
    (genericGetHandle p hndl whichArg).wp
      (fun h s' => s' = s ∧ ∃ loc, hndl.loc p = some loc ∧ s.ValidLoc loc ∧ h = s.handleAt loc)
      (fun _ s' => s' = s) Panic.Low s := by
  cases hndl with
  | handle idx =>
    simp only [genericGetHandle, Prog.wp_catchErr, Prog.wp_fail]
    refine Prog.wp_mono (getHandle_spec s p idx) ?_ (fun _ _ h => h) fun _ hp => hp
    rintro h s' ⟨hs, hv, hh⟩
    exact ⟨hs, _, rfl, hv, hh⟩
  | unwrappedHandleCap idx =>
    simp only [genericGetHandle, Prog.wp_catchErr, Prog.wp_fail]
    refine Prog.wp_mono (getHandleCap_spec s idx) ?_ (fun _ _ h => h) fun _ hp => hp
    rintro h s' ⟨hs, hv, hh⟩
    exact ⟨hs, _, rfl, hv, hh⟩
  | wrappedHandleCap => exact (by decide : Panic.Low .assertionFailed)

theorem genericInvalidHandleError_spec {α : Type} (hndl : HandleArg) (whichArg : Nat)
    {Q : α → State → Prop} :
    (genericInvalidHandleError hndl whichArg : Handler α).wp Q (fun _ s' => s' = s)
      Panic.Low s := by
  cases hndl with
  | handle idx => exact rfl
  | unwrappedHandleCap idx => exact rfl
  | wrappedHandleCap => exact (by decide : Panic.Low .assertionFailed)

theorem cleanupHandle_spec (idx : Nat) :
    (cleanupHandle p idx).wp (fun _ s' => s' = s.setHandleAt (.table p idx) none)
      (fun _ s' => s' = s ∧ ¬ idx < maxHandles) Panic.Low s := by
  simp only [cleanupHandle, Prog.wp_ite, Prog.wp_fail, Prog.wp_panic, wp_setHandle]
  exact ⟨fun h => ⟨trivial, by omega⟩, fun _ => ⟨fun _ => by decide, fun _ => trivial⟩⟩

theorem genericCleanupHandle_spec (hndl : HandleArg) (whichArg : Nat) :
    (genericCleanupHandle p hndl whichArg).wp
      (fun _ s' => ∃ loc, hndl.loc p = some loc ∧ s' = s.setHandleAt loc none)
      (fun _ s' => s' = s ∧ ∀ loc, hndl.loc p = some loc → ¬ s.ValidLoc loc) Panic.Low s := by
  cases hndl with
  | handle idx =>
    simp only [genericCleanupHandle, Prog.wp_catchErr, Prog.wp_fail]
    refine Prog.wp_mono (cleanupHandle_spec s p idx) ?_ ?_ fun _ hp => hp
    · rintro _ s' rfl
      exact ⟨_, rfl, rfl⟩
    · rintro _ s' ⟨rfl, hidx⟩
      refine ⟨rfl, fun loc hloc hv => ?_⟩
      cases hloc
      exact hidx hv.1
  | unwrappedHandleCap idx =>
    simp only [genericCleanupHandle, cleanupHandleCap, Prog.wp_catchErr, Prog.wp_fail,
      Prog.wp_ite, wp_setHandleCap]
    refine ⟨fun hge => ⟨trivial, fun loc hloc hv => ?_⟩, fun _ => ⟨_, rfl, rfl⟩⟩
    cases hloc
    exact Nat.not_lt.mpr hge hv
  | wrappedHandleCap => exact (by decide : Panic.Low .assertionFailed)

theorem firstEmpty_spec {t : HandleTable} {size idx : Nat} (h : firstEmpty t size = some idx) :
    idx < size ∧ t idx = none := by
  have hmem := List.mem_of_find?_eq_some h
  have hnone := List.find?_some h
  exact ⟨List.mem_range.mp hmem, by simpa using hnone⟩

theorem allocateHandle_spec :
    (allocateHandle p).wp
      (fun idx s' => s' = s ∧ s.ValidLoc (.table p idx) ∧ s.handleAt (.table p idx) = none)
      (fun _ s' => s' = s) Panic.Low s := by
  simp only [allocateHandle, Prog.wp_bind, wp_getProc, Prog.wp_okOr]
  refine ⟨fun u hu => ⟨fun idx hidx => ?_, fun _ => trivial⟩, fun _ _ => by decide⟩
  obtain ⟨hlt, hnone⟩ := firstEmpty_spec hidx
  exact ⟨trivial, ⟨hlt, u, hu⟩, by simp [State.handleAt, hu, hnone]⟩

/-- The place `generic_allocate_handle` answers. -/
def allocatedLoc (p : Nat) (returnCap : Bool) (idx : Nat) : HandleLoc :=
  if returnCap then .cap idx else .table p idx

theorem genericAllocateHandle_spec (returnCap : Bool) :
    (genericAllocateHandle p returnCap).wp
      (fun idx s' => s' = s ∧ s.ValidLoc (allocatedLoc p returnCap idx) ∧
        s.handleAt (allocatedLoc p returnCap idx) = none)
      (fun _ s' => s' = s) Panic.Low s := by
  cases returnCap with
  | false => exact allocateHandle_spec s p
  | true =>
    simp only [genericAllocateHandle, if_true, allocateHandleCap, Prog.wp_bind, Prog.wp_gets,
      Prog.wp_okOr]
    refine ⟨fun idx hidx => ?_, fun _ => trivial⟩
    obtain ⟨hlt, hnone⟩ := firstEmpty_spec hidx
    exact ⟨trivial, hlt, by simp [allocatedLoc, State.handleAt, hnone]⟩

@[simp] theorem wp_setAllocatedHandle {returnCap : Bool} {idx : Nat} {h : RootServerResource}
    {Q : Unit → State → Prop} {E : InvocationError → State → Prop} {P : Panic → Prop} :
    (setAllocatedHandle p returnCap idx h).wp Q E P s ↔
      Q () (s.setHandleAt (allocatedLoc p returnCap idx) (some h)) := by
  cases returnCap <;> rfl

end Handles

/-! ## Slots and frames given back -/

/-- `r'` is `r` with one slot unmarked in the slot allocator. -/
structure SlotFreed (c : Slot) (r r' : Res) : Prop where
  eq : r' = { r with cspace := r'.cspace }
  others : ∀ c', c' ≠ c → (r'.cspace.Allocated c' ↔ r.cspace.Allocated c')
  mono : ∀ c', r'.cspace.Allocated c' → r.cspace.Allocated c'

/-- The slots of a list are deleted, if they are to be, and given back one by one. -/
inductive Cleaned (delete : Bool) : List Slot → Res → Res → Prop
  | nil (r : Res) : Cleaned delete [] r r
  | cons {c : Slot} {cs : List Slot} {r r₁ r₂ : Res}
    (freed : SlotFreed c
      (if delete then { r with kernel := r.kernel.delete c } else r) r₁)
    (rest : Cleaned delete cs r₁ r₂) : Cleaned delete (c :: cs) r r₂

/-- The frames of a list are revoked, if they are to be, and freed one by one. -/
inductive Freed (revoke : Bool) : List ObjectFrame → Res → Res → Prop
  | nil (r : Res) : Freed revoke [] r r
  | cons {f : ObjectFrame} {fs : List ObjectFrame} {r r' : Res}
    (allocated : f.frameRef ∈ r.frameTable.allocated)
    (rest : Freed revoke fs
      { r with
        kernel := if revoke then r.kernel.revoke f.cap else r.kernel
        frameTable :=
          { r.frameTable with
            free := f.frameRef :: r.frameTable.free
            allocated := r.frameTable.allocated.erase f.frameRef } } r') :
    Freed revoke (f :: fs) r r'

section GiveBack

variable {ε : Type} {E : ε → State → Prop} {s : State}

theorem freeSlot_freed (r : Res) (c : Slot) :
    (freeSlot c : RProg ε Unit).wp (fun _ r' => SlotFreed c r r') (fun _ _ => False)
      Panic.Low r := by
  simp only [freeSlot, Prog.wp_zoom]
  refine Prog.wp_mono (CSpace.freeSlot_spec r.cspace c) ?_ (fun _ _ h => h) fun _ hp => hp
  rintro _ cs ⟨hothers, hmono⟩
  exact ⟨rfl, hothers, hmono⟩

theorem cleanupCapTable_spec (v : ViewRef) (delete : Bool) :
    (cleanupCapTable v delete : SProg ε Unit).wp
      (fun _ s' => ∃ r', Cleaned delete (s.views v).caps.values s.res r' ∧
        s' = { s with res := r' })
      (fun _ _ => False) Panic.Low s := by
  have hloop : ∀ (cs : List Slot) (s : State),
      (Prog.forEach (fun cap =>
        if delete then do
          onRes (deleteCap cap)
          onRes (freeSlot cap)
        else
          onRes (freeSlot cap)) cs : SProg ε Unit).wp
        (fun _ s' => ∃ r', Cleaned delete cs s.res r' ∧ s' = { s with res := r' })
        (fun _ _ => False) Panic.Low s := by
    intro cs
    induction cs with
    | nil => exact fun s => ⟨s.res, .nil _, rfl⟩
    | cons c cs ih =>
      intro s
      simp only [Prog.forEach, Prog.wp_prog_bind]
      have hrest : ∀ r r₁ : Res,
          SlotFreed c (if delete then { r with kernel := r.kernel.delete c } else r) r₁ →
          r = s.res →
          (Prog.forEach (fun cap =>
            if delete then do
              onRes (deleteCap cap)
              onRes (freeSlot cap)
            else
              onRes (freeSlot cap)) cs : SProg ε Unit).wp
            (fun _ s' => ∃ r', Cleaned delete (c :: cs) s.res r' ∧ s' = { s with res := r' })
            (fun _ _ => False) Panic.Low { s with res := r₁ } := by
        rintro r r₁ hf rfl
        refine Prog.wp_mono (ih { s with res := r₁ }) ?_ (fun _ _ h => h) fun _ hp => hp
        rintro _ s' ⟨r', hc, rfl⟩
        exact ⟨r', .cons hf hc, rfl⟩
      cases delete with
      | true =>
        simp only [if_true, Prog.wp_bind, wp_onRes, deleteCap, kmodify, Prog.wp_modify]
        exact Prog.wp_mono (freeSlot_freed _ c) (fun _ r₁ hf => hrest s.res r₁ hf rfl)
          (fun _ _ h => h) fun _ hp => hp
      | false =>
        simp only [Bool.false_eq_true, if_false, wp_onRes]
        exact Prog.wp_mono (freeSlot_freed _ c) (fun _ r₁ hf => hrest s.res r₁ hf rfl)
          (fun _ _ h => h) fun _ hp => hp
  simp only [cleanupCapTable, Prog.wp_bind, wp_getView, Node.forEach_eq]
  exact hloop _ s

theorem cleanupFrameTable_spec (o : ObjectRef) :
    (cleanupFrameTable o : SProg ε Unit).wp
      (fun _ s' => ∃ r', Freed (decide ((s.objects o).associatedViews.length ≠ 0))
        (s.objects o).frames.values s.res r' ∧ s' = { s with res := r' })
      (fun _ _ => False) Panic.Low s := by
  have hloop : ∀ (revoke : Bool) (fs : List ObjectFrame) (s : State),
      (Prog.forEach (fun frame : ObjectFrame =>
        if revoke then do
          onRes (revokeCap frame.cap)
          onRes (freeFrame frame.frameRef)
        else
          onRes (freeFrame frame.frameRef)) fs : SProg ε Unit).wp
        (fun _ s' => ∃ r', Freed revoke fs s.res r' ∧ s' = { s with res := r' })
        (fun _ _ => False) Panic.Low s := by
    intro revoke fs
    induction fs with
    | nil => exact fun s => ⟨s.res, .nil _, rfl⟩
    | cons f fs ih =>
      intro s
      simp only [Prog.forEach, Prog.wp_prog_bind]
      cases revoke with
      | true =>
        simp only [if_true, Prog.wp_bind, wp_onRes, revokeCap, kmodify, Prog.wp_modify, freeFrame,
          Prog.wp_gets, Prog.wp_assert, modifyFrameTable, decide_eq_true_eq]
        refine ⟨fun _ => ⟨fun hal => ?_, fun _ => by decide⟩, fun _ => by decide⟩
        refine Prog.wp_mono (ih _) ?_ (fun _ _ h => h) fun _ hp => hp
        rintro _ s' ⟨r', hf, rfl⟩
        exact ⟨r', .cons hal (by simpa using hf), rfl⟩
      | false =>
        simp only [Bool.false_eq_true, if_false, wp_onRes, freeFrame, Prog.wp_bind, Prog.wp_gets,
          Prog.wp_assert, modifyFrameTable, Prog.wp_modify, decide_eq_true_eq]
        refine ⟨fun _ => ⟨fun hal => ?_, fun _ => by decide⟩, fun _ => by decide⟩
        refine Prog.wp_mono (ih _) ?_ (fun _ _ h => h) fun _ hp => hp
        rintro _ s' ⟨r', hf, rfl⟩
        exact ⟨r', .cons hal (by simpa using hf), rfl⟩
  simp only [cleanupFrameTable, Prog.wp_bind, wp_getObject, Node.forEach_eq, Table.values]
  generalize Node.values (Table.root (s.objects o).frames) = fs
  have h := hloop (decide ((s.objects o).associatedViews.length ≠ 0)) fs s
  simp only [decide_eq_true_eq] at h
  exact h

end GiveBack

/-! ## Filling and mapping a view -/

/-- A page of an object is looked up, or taken from the frame table, entered
and cleared; `cap` is the capability of its frame. -/
inductive GotFrame (o : ObjectRef) (objOffset : Nat) (cap : Slot) (s : State) : State → Prop
  | found (frame : ObjectFrame) (lookup : (s.objects o).lookupFrame objOffset = some frame)
    (cap_eq : cap = frame.cap) : GotFrame o objOffset cap s s
  | made (f : Nat) (r : Res) (object : AnonymousMemoryObject) (page : PageEntry)
    (lookup : (s.objects o).lookupFrame objOffset = none) (alloc : FrameAllocated s.res f r)
    (cap_eq : cap = r.frameTable.cap f)
    (insert : (s.objects o).insertFrameAt objOffset ⟨cap, f⟩ = .ok object)
    (page_eq : r.kernel.pages rootVSpace (frameDataAddr f) = some page) :
    GotFrame o objOffset cap s
      { s with
        res := { r with kernel := r.kernel.writeMem page.obj zeroPage }
        objects := s.objects.update o fun _ => object }

/-- The capability in `src` is copied into a new slot, which the view records. -/
structure Copied (v : ViewRef) (offset : Nat) (src : Slot) (s s' : State) (slot : Slot)
    (cs : CSpace) (k : Kernel) (view : View) : Prop where
  fresh : ¬ s.res.cspace.Allocated slot
  allocated : ∀ c, cs.Allocated c ↔ s.res.cspace.Allocated c ∨ c = slot
  copy : s.res.kernel.copy slot src .all = .ok k
  insert : (s.views v).insertCapAt offset slot = .ok view
  eq : s' = { s with
    res := { s.res with cspace := cs, kernel := k }
    views := s.views.update v fun _ => view }

/-- An object-backed view is given the page of its object. -/
def Populated (v : ViewRef) (o : ObjectRef) (offset : Nat) (s s' : State) : Prop :=
  (s.views v).winOffset ≤ offset ∧
  ∃ cap s₁ slot cs k view,
    GotFrame o ((s.views v).objOffset + (offset - (s.views v).winOffset)) cap s s₁ ∧
    Copied v offset cap s₁ s' slot cs k view

/-- The page a view has at an offset is mapped at the page of `addr`. -/
def Mapped (v : ViewRef) (offset : Nat) (vspace : Slot) (addr : Nat) (s s' : State) : Prop :=
  ∃ cap r, (s.views v).lookupCap offset = some cap ∧
    MapsFrom s.res cap vspace (roundDown addr) (s.views v).rights r ∧ s' = { s with res := r }

/-- An object that was made from untyped memory is deleted. -/
structure Deallocated (x : Alloc) (r r' : Res) : Prop where
  freed : ∃ r₁, SlotFreed x.1 { r with kernel := r.kernel.delete x.1 } r₁ ∧
    r' = { r₁ with ut := r'.ut }

section Filling

variable {ε : Type} {E : ε → State → Prop} {s : State}

/-- Insertion fails only where something is. -/
theorem insertAt_of_lookup_none {α : Type} {t : PageTable α} {offset : Nat} {a : α}
    (h : t.lookupAt offset = none) : ∃ t', t.insertAt offset a = .ok t' := by
  unfold PageTable.insertAt
  split
  · exact ⟨_, rfl⟩
  · rename_i hn
    exact absurd h (Table.insert_eq_none_iff.mp hn)

theorem insertFrameAt_of_lookup_none {o : AnonymousMemoryObject} {offset : Nat}
    (h : o.lookupFrame offset = none) (frame : ObjectFrame) :
    ∃ o', o.insertFrameAt offset frame = .ok o' := by
  obtain ⟨t, ht⟩ := insertAt_of_lookup_none (a := frame) h
  exact ⟨{ o with frames := t }, by simp [AnonymousMemoryObject.insertFrameAt, ht]⟩

theorem insertCapAt_of_lookup_none {v : View} {offset : Nat}
    (h : v.lookupCap offset = none) (cap : Slot) : ∃ v', v.insertCapAt offset cap = .ok v' := by
  obtain ⟨t, ht⟩ := insertAt_of_lookup_none (a := cap) h
  exact ⟨{ v with caps := t }, by simp [View.insertCapAt, ht]⟩

/-- What an insertion into a page table adds. -/
theorem insertAt_ok {α : Type} {t t' : PageTable α} {offset : Nat} {a : α}
    (h : t.insertAt offset a = .ok t') :
    t'.values.Perm (a :: t.values) ∧ t'.lookupAt offset = some a ∧ t.lookupAt offset = none ∧
      ∀ offset', path offset' ≠ path offset → t'.lookupAt offset' = t.lookupAt offset' := by
  unfold PageTable.insertAt at h
  split at h
  · rename_i t₁ hins
    cases h
    refine ⟨Table.values_insert hins, Table.lookup_insert_self hins, ?_, fun offset' hne =>
      Table.lookup_insert_ne hins rfl hne⟩
    by_contra hne
    have hnone : Table.insert t (levelIndex offset 39) (lowerPath offset) rfl a = none :=
      Table.insert_eq_none_iff.mpr hne
    rw [hins] at hnone
    cases hnone
  · cases h

theorem insertFrameAt_ok {o o' : AnonymousMemoryObject} {offset : Nat} {frame : ObjectFrame}
    (h : o.insertFrameAt offset frame = .ok o') :
    ∃ t, o.frames.insertAt offset frame = .ok t ∧ o' = { o with frames := t } := by
  simp only [AnonymousMemoryObject.insertFrameAt] at h
  cases ht : o.frames.insertAt offset frame with
  | error e => rw [ht] at h; cases h
  | ok t => rw [ht] at h; cases h; exact ⟨t, rfl, rfl⟩

theorem insertCapAt_ok {v v' : View} {offset : Nat} {cap : Slot}
    (h : v.insertCapAt offset cap = .ok v') :
    ∃ t, v.caps.insertAt offset cap = .ok t ∧ v' = { v with caps := t } := by
  simp only [View.insertCapAt] at h
  cases ht : v.caps.insertAt offset cap with
  | error e => rw [ht] at h; cases h
  | ok t => rw [ht] at h; cases h; exact ⟨t, rfl, rfl⟩

theorem frameCap_spec (r : Res) (f : Nat) :
    (frameCap f : RProg ε Slot).wp (fun cap r' => r' = r ∧ cap = r.frameTable.cap f)
      (fun _ _ => False) Panic.Low r := by
  simp only [frameCap, Prog.wp_bind, Prog.wp_gets, Prog.wp_assert, Prog.wp_pure]
  exact ⟨fun _ => ⟨trivial, trivial⟩, fun _ => by decide⟩

theorem writeFrameData_spec (r : Res) (f : Nat) (g : (Nat → Nat) → Nat → Nat) :
    (writeFrameData f g : RProg ε Unit).wp
      (fun _ r' => ∃ page, r.kernel.pages rootVSpace (frameDataAddr f) = some page ∧
        r' = { r with kernel := r.kernel.writeMem page.obj (g (r.kernel.mem page.obj)) })
      (fun _ _ => False) Panic.Low r := by
  simp only [writeFrameData, Prog.wp_bind, Prog.wp_gets, Prog.wp_assert, Prog.wp_unwrap, kmodify,
    Prog.wp_modify]
  exact ⟨fun _ => ⟨fun page hp => ⟨page, hp, rfl⟩, fun _ => by decide⟩, fun _ => by decide⟩

theorem objectFrameCap_spec (hr : Rooted s.res) (o : ObjectRef) (objOffset : Nat) :
    (objectFrameCap o objOffset : SProg ε Slot).wp
      (fun cap s' => GotFrame o objOffset cap s s') (fun _ _ => False) Panic.Low s := by
  simp only [objectFrameCap, Prog.wp_bind, wp_getObject]
  cases hlook : (s.objects o).lookupFrame objOffset with
  | some frame => exact .found frame hlook rfl
  | none =>
    simp only [Prog.wp_bind, wp_onRes, Prog.wp_expect]
    refine Prog.wp_mono (allocFrame_spec hr) ?_ (fun _ _ _ => by decide) fun _ hp => hp
    intro f r halloc
    refine Prog.wp_mono (frameCap_spec r f) ?_ (fun _ _ => False.elim) fun _ hp => hp
    rintro cap _ ⟨rfl, rfl⟩
    obtain ⟨object, hins⟩ := insertFrameAt_of_lookup_none hlook ⟨_, f⟩
    simp only [insertFrame, Prog.wp_bind, wp_getObject]
    rw [hins]
    simp only [wp_modifyObject, Prog.wp_pure]
    refine Prog.wp_mono (writeFrameData_spec _ f fillZero) ?_ (fun _ _ => False.elim)
      fun _ hp => hp
    rintro _ r' ⟨page, hpage, rfl⟩
    exact .made f _ object page hlook halloc rfl hins hpage

theorem copyIntoView_spec (v : ViewRef) (offset : Nat) (src : Slot)
    (hnone : (s.views v).lookupCap offset = none) :
    (copyIntoView v offset src : SProg ε Unit).wp
      (fun _ s' => ∃ slot cs k view, Copied v offset src s s' slot cs k view)
      (fun _ _ => False) Panic.Low s := by
  simp only [copyIntoView, Prog.wp_bind, wp_onRes, Prog.wp_expect]
  refine Prog.wp_mono (allocSlot_cspace s.res) ?_ (fun _ _ _ => by decide) fun _ hp => hp
  rintro slot r ⟨hr, hfresh, hall⟩
  simp only [copyCap, kcall, Prog.wp_zoom, Prog.wp_ofExcept]
  refine ⟨fun k hk => ?_, fun _ _ => by decide⟩
  obtain ⟨view, hins⟩ := insertCapAt_of_lookup_none hnone slot
  simp only [insertCap, Prog.wp_bind, wp_getView, hins, wp_modifyView]
  rw [hr] at hk ⊢
  exact ⟨slot, r.cspace, k, view, hfresh, hall, hk, hins, rfl⟩

/-- A view whose table knows nothing at an offset can be given its object's page there. -/
theorem populate_spec (hr : Rooted s.res) (v : ViewRef) (o : ObjectRef) (offset : Nat)
    (hnone : (s.views v).lookupCap offset = none) :
    (populate v o offset : SProg ε Unit).wp (fun _ s' => Populated v o offset s s')
      (fun _ _ => False) Panic.Low s := by
  simp only [populate, Prog.wp_bind, wp_getView, wp_subU, wp_addU]
  refine ⟨fun hle => ⟨fun _ => ?_, fun _ => by decide⟩, fun _ => by decide⟩
  refine Prog.wp_mono (objectFrameCap_spec hr o _) ?_ (fun _ _ => False.elim) fun _ hp => hp
  intro cap s₁ hgot
  have hviews : s₁.views = s.views := by cases hgot <;> rfl
  refine Prog.wp_mono (copyIntoView_spec v offset cap (by rw [hviews]; exact hnone)) ?_
    (fun _ _ => False.elim) fun _ hp => hp
  rintro _ s' ⟨slot, cs, k, view, hc⟩
  exact ⟨hle, cap, s₁, slot, cs, k, view, hgot, hc⟩

theorem mapViewPage_spec (v : ViewRef) (offset : Nat) (vspace : Slot) (addr : Nat) :
    (mapViewPage v offset vspace addr : SProg ε Unit).wp
      (fun _ s' => Mapped v offset vspace addr s s') (fun _ _ => False) Panic.Low s := by
  simp only [mapViewPage, Prog.wp_bind, wp_getView, Prog.wp_unwrap, wp_onRes, Prog.wp_expect]
  refine ⟨fun cap hcap => ?_, fun _ => by decide⟩
  refine Prog.wp_mono (mapFrame_spec s.res cap vspace _ _) ?_ (fun _ _ _ => by decide)
    fun _ hp => hp
  intro _ r hm
  exact ⟨cap, r, hcap, hm, rfl⟩

theorem deallocRetyped_spec (r : Res) (x : Alloc) :
    (deallocRetyped x : RProg ε Unit).wp (fun _ r' => Deallocated x r r') (fun _ _ => False)
      Panic.Low r := by
  simp only [deallocRetyped, Prog.wp_bind, deleteCap, kmodify, Prog.wp_modify, utFree, modifyUt]
  refine Prog.wp_mono (freeSlot_freed _ x.1) ?_ (fun _ _ => False.elim) fun _ hp => hp
  intro _ r₁ hf
  exact ⟨r₁, hf, rfl⟩

end Filling

/-! ## Windows -/

/-- The address lies in the window. -/
def Window.Contains (w : Window) (vaddr : Nat) : Prop :=
  w.start ≤ vaddr ∧ vaddr < w.start + w.size

instance (w : Window) (vaddr : Nat) : Decidable (w.Contains vaddr) :=
  inferInstanceAs (Decidable (_ ∧ _))

/-- What `overlapping_window` tests of one window. -/
def Window.Overlaps (w : Window) (start size : Nat) : Prop :=
  (w.start ≤ start ∧ start < w.start + w.size) ∨
  (w.start < start + size ∧ start + size < w.start + w.size)

instance (w : Window) (start size : Nat) : Decidable (w.Overlaps start size) :=
  inferInstanceAs (Decidable (_ ∨ _))

section Windows

variable {ε : Type} (s : State)

theorem findWindow_spec (vaddr : Nat) (ws : List WindowRef) :
    (findWindow vaddr ws : SProg ε (Option WindowRef)).wp
      (fun x s' => s' = s ∧ x = ws.find? fun w => decide ((s.windows w).Contains vaddr))
      (fun _ _ => False)
      (fun x => x.Low ∧ ∃ w ∈ ws, usizeBound ≤ (s.windows w).start + (s.windows w).size) s := by
  induction ws with
  | nil => exact ⟨rfl, rfl⟩
  | cons w ws ih =>
    have rest := Prog.wp_mono ih (fun _ _ h => h) (fun _ _ h => h)
      (P := fun x => x.Low ∧ ∃ w' ∈ w :: ws,
        usizeBound ≤ (s.windows w').start + (s.windows w').size)
      fun x ⟨hx, w', hw', h⟩ => ⟨hx, w', List.mem_cons_of_mem w hw', h⟩
    simp only [findWindow, Prog.wp_bind, wp_getWindow, Prog.wp_ite, wp_addU, Prog.wp_pure]
    refine ⟨fun hge => ⟨fun _ => ⟨fun hlt => ?_, fun hlt => ?_⟩, fun hwrap => ?_⟩, fun hge => ?_⟩
    · have hc : (s.windows w).Contains vaddr := ⟨hge, hlt⟩
      simp [hc]
    · have hc : ¬ (s.windows w).Contains vaddr := fun h => hlt h.2
      simpa [List.find?_cons, hc] using rest
    · exact ⟨by decide, w, List.mem_cons_self .., not_lt.mp hwrap⟩
    · have hc : ¬ (s.windows w).Contains vaddr := fun h => hge h.1
      simpa [List.find?_cons, hc] using rest

theorem findWindowContaining_spec (p vaddr : Nat) :
    (findWindowContaining p vaddr : SProg ε (Option WindowRef)).wp
      (fun x s' => s' = s ∧ x = (s.initialOf p ++ s.windowsOf p).find?
        fun w => decide ((s.windows w).Contains vaddr))
      (fun _ _ => False) Panic.Low s := by
  simp only [findWindowContaining, Prog.wp_bind, wp_getProc]
  refine ⟨fun u hu => ?_, fun _ _ => by decide⟩
  simp only [State.initialOf, State.windowsOf, hu]
  exact Prog.wp_mono (findWindow_spec s vaddr (u.initialWindows ++ u.windows)) (fun _ _ h => h)
    (fun _ _ h => h) fun _ h => h.1

theorem overlaps_spec (start size : Nat) (w : Window) :
    (overlaps start size w : SProg ε Bool).wp
      (fun b s' => s' = s ∧ (b = true ↔ w.Overlaps start size)) (fun _ _ => False)
      Panic.Low s := by
  have hsecond : ¬ (w.start ≤ start ∧ start < w.start + w.size) →
      (do
        let nend ← addU start size
        if nend > w.start then
          let wend ← addU w.start w.size
          pure (decide (nend < wend))
        else pure false : SProg ε Bool).wp
      (fun b s' => s' = s ∧ (b = true ↔ w.Overlaps start size)) (fun _ _ => False)
      Panic.Low s := by
    intro hfirst
    simp only [Prog.wp_bind, wp_addU, Prog.wp_ite, Prog.wp_pure, Window.Overlaps]
    refine ⟨fun _ => ⟨fun h => ⟨fun _ => ⟨trivial, ?_⟩, fun _ => by decide⟩, fun h => ⟨trivial, ?_⟩⟩,
      fun _ => by decide⟩
    · simp only [decide_eq_true_eq]
      exact ⟨fun h' => .inr ⟨h, h'⟩, fun h' => (h'.resolve_left hfirst).2⟩
    · simp only [Bool.false_eq_true, false_iff]
      exact fun h' => h (h'.resolve_left hfirst).1
  simp only [overlaps, Prog.wp_bind, Prog.wp_ite, wp_addU, Prog.wp_pure] at hsecond ⊢
  refine ⟨fun hge => ⟨fun _ => ⟨fun h => ⟨trivial, ?_⟩, fun h => ?_⟩, fun _ => by decide⟩,
    fun hge => ⟨fun h => absurd h (by simp), fun _ => hsecond fun h => hge h.1⟩⟩
  · exact iff_of_true trivial (.inl ⟨hge, by simpa using h⟩)
  · exact hsecond fun h' => h (by simpa using h'.2)

theorem overlappingWindow_spec (start size : Nat) (ws : List WindowRef) :
    (overlappingWindow start size ws : SProg ε (Option WindowRef)).wp
      (fun x s' => s' = s ∧ (x = none ↔ ∀ w ∈ ws, ¬ (s.windows w).Overlaps start size))
      (fun _ _ => False) Panic.Low s := by
  induction ws with
  | nil => exact ⟨rfl, by simp⟩
  | cons w ws ih =>
    simp only [overlappingWindow, Prog.wp_bind, wp_getWindow]
    refine Prog.wp_mono (overlaps_spec s start size (s.windows w)) ?_ (fun _ _ => False.elim)
      fun _ hp => hp
    rintro b s' ⟨rfl, hb⟩
    simp only [Prog.wp_ite, Prog.wp_pure]
    refine ⟨fun h => ⟨trivial, ?_⟩, fun h => ?_⟩
    · have := hb.mp h
      simp [this]
    · have hno : ¬ (s'.windows w).Overlaps start size := fun hc => h (hb.mpr hc)
      simpa [hno] using ih

end Windows

end Smos.RootServer
