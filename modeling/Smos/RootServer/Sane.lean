/-
Smos.RootServer.Sane — what every handler may rely on.

`Sane` collects the facts that hold after every turn whatever the clients
do: addresses are allocated before they are stored, a window registration
is a view without an object, and the root server's own address space stays
in its slot because nothing the handlers delete ever holds that slot.

It is kept by each kind of change a handler makes to the state; the lemmas
below are one for each kind. Invariants of single tables are stated over it.
-/
import Smos.RootServer.HandlerSpecs
import Smos.RootServer.KernelSpecs

namespace Smos.RootServer

open Smos.Base

/-! ## Slots held for later -/

/-- Who keeps slots that some teardown deletes. -/
inductive Holder where
  | view (v : ViewRef)
  | proc (p : Nat)
  | reply
  deriving DecidableEq

/-- The slots a view keeps: its pages' and its pending fault's. -/
def View.slots (v : View) : List Slot :=
  v.caps.values ++ (v.pendingFault.map fun f => f.reply.1).toList

/-- The slots a process's `destroy` deletes, and its waiter's. -/
def UserProcess.slots (u : UserProcess) : List Slot :=
  [u.schedContext.1, u.tcb.1, u.vspace.1, u.ipcBuffer.1, u.sharedBuffer.1, u.faultEp,
    u.cspace.rootCnode] ++ (u.waiter.map Prod.fst).toList

def ProcessType.slots : ProcessType → List Slot
  | .activeProcess u => u.slots
  | .zombieProcess _ => []

def State.held (s : State) : Holder → List Slot
  | .view v => (s.views v).slots
  | .proc p => (s.procCells p).slots
  | .reply => [s.reply.1]

/-! ## Addresses in range -/

/-- What an address no one has allocated yet refers to. -/
def Window.blank : Window := ⟨0, 0, none⟩

def View.blank : View := View.new 0 none none .none 0 0

def AnonymousMemoryObject.blank : AnonymousMemoryObject := .new 0 .none .default

/-- The address in a handle is allocated. -/
def State.InRange (s : State) : RootServerResource → Prop
  | .window w => w < s.windows.next
  | .object o => o < s.objects.next
  | .view v | .windowRegistration v => v < s.views.next
  | .server srv => srv < s.servers.next
  | _ => True

/-- What holds after every turn. -/
structure Sane (s : State) : Prop where
  rooted : Rooted s.res
  apart : ∀ h, ∀ c ∈ s.held h, c ≠ rootVSpaceSlot
  registered : ∀ loc v, s.handleAt loc = some (.windowRegistration v) →
    (s.views v).boundObject = none
  blankWindow : ∀ w, s.windows.next ≤ w → s.windows w = .blank
  blankView : ∀ v, s.views.next ≤ v → s.views v = .blank
  blankObject : ∀ o, s.objects.next ≤ o → s.objects o = .blank
  noCell : ∀ p, s.procCells.next ≤ p → ∃ pid, s.procCells p = .zombieProcess pid
  handles : ∀ loc h, s.handleAt loc = some h → s.InRange h
  procWindows : ∀ p, ∀ w ∈ s.initialOf p ++ s.windowsOf p, w < s.windows.next
  boundView : ∀ w v, (s.windows w).boundView = some v → v < s.views.next
  boundWindow : ∀ v, v < s.views.next → (s.views v).boundWindow < s.windows.next
  boundObject : ∀ v o, (s.views v).boundObject = some o → o < s.objects.next
  associated : ∀ o, ∀ v ∈ (s.objects o).associatedViews, v < s.views.next

/-! ## What teardown keeps of the root server -/

section Rooted

variable {r r' : Res}

theorem Rooted.delete (h : Rooted r) {c : Slot} (hc : c ≠ rootVSpaceSlot) :
    Rooted { r with kernel := r.kernel.delete c } :=
  ⟨h.allocated, by
    rw [← h.cap]
    exact Kernel.delete_caps_of_ne hc.symm⟩

theorem Rooted.revoke (h : Rooted r) (c : Slot) :
    Rooted { r with kernel := r.kernel.revoke c } :=
  ⟨h.allocated, Kernel.revoke_caps_of_not_frame h.cap (by simp)⟩

theorem Rooted.slotFreed {c : Slot} (h : Rooted r) (hf : SlotFreed c r r')
    (hc : c ≠ rootVSpaceSlot) : Rooted r' := by
  have hallocated := (hf.others rootVSpaceSlot hc.symm).mpr h.allocated
  refine ⟨hallocated, ?_⟩
  rw [hf.eq]
  exact h.cap

theorem Rooted.cleaned {delete : Bool} {cs : List Slot} (h : Rooted r)
    (hc : Cleaned delete cs r r') (hcs : ∀ c ∈ cs, c ≠ rootVSpaceSlot) : Rooted r' := by
  induction hc with
  | nil r => exact h
  | @cons c cs r r₁ r₂ freed rest ih =>
    have hne := hcs c (List.mem_cons_self ..)
    refine ih ?_ fun c' hc' => hcs c' (List.mem_cons_of_mem _ hc')
    cases delete with
    | true => exact (h.delete hne).slotFreed freed hne
    | false => exact h.slotFreed freed hne

theorem Rooted.freed {revoke : Bool} {fs : List ObjectFrame} (h : Rooted r)
    (hf : Freed revoke fs r r') : Rooted r' := by
  induction hf with
  | nil r => exact h
  | @cons f fs r r' _ rest ih =>
    refine ih ?_
    cases revoke with
    | true => exact ⟨(h.revoke f.cap).allocated, (h.revoke f.cap).cap⟩
    | false => exact ⟨h.allocated, h.cap⟩

theorem Rooted.deallocated {x : Alloc} (h : Rooted r) (hd : Deallocated x r r')
    (hx : x.1 ≠ rootVSpaceSlot) : Rooted r' := by
  obtain ⟨r₁, hf, heq⟩ := hd.freed
  have h₁ := (h.delete hx).slotFreed hf hx
  rw [heq]
  exact ⟨h₁.allocated, h₁.cap⟩

end Rooted

/-! ## One lemma for each kind of change -/

namespace Sane

variable {s : State} {p : Nat}

theorem withRes (h : Sane s) {r : Res} (hr : Rooted r) : Sane { s with res := r } :=
  { h with rooted := hr }

theorem held_updProc {f : UserProcess → UserProcess} (hf : ∀ u, (f u).slots = u.slots)
    (x : Holder) : (s.updProc p f).held x = s.held x := by
  cases x with
  | view v => rfl
  | reply => rfl
  | proc c =>
    simp only [State.held, State.procCells_updProc]
    by_cases hc : c = p
    · subst hc
      simp only [if_true]
      cases s.procCells c <;> simp [ProcessType.map, ProcessType.slots, hf]
    · simp [hc]

/-- Windows in range stay so when the lists of a process change within range. -/
theorem procWindows_updProc {f : UserProcess → UserProcess} (c : Nat) {w : WindowRef}
    (hw : w ∈ (s.updProc p f).initialOf c ++ (s.updProc p f).windowsOf c) :
    w ∈ s.initialOf c ++ s.windowsOf c ∨
      ∃ u, s.procCells p = .activeProcess u ∧ w ∈ (f u).initialWindows ++ (f u).windows := by
  simp only [State.initialOf, State.windowsOf, State.procCells_updProc] at hw ⊢
  by_cases hc : c = p
  · subst hc
    cases hp : s.procCells c with
    | activeProcess u => exact .inr ⟨u, rfl, by simpa [hp, ProcessType.map] using hw⟩
    | zombieProcess pid => simp [hp, ProcessType.map] at hw
  · simp only [hc, if_false] at hw
    exact .inl hw

/-- A handle that is there after an update that adds none was there before. -/
theorem handleAt_updProc_sub {f : UserProcess → UserProcess}
    (ht : ∀ u idx x, (f u).handleTable idx = some x → u.handleTable idx = some x)
    {loc : HandleLoc} {x : RootServerResource} (hl : (s.updProc p f).handleAt loc = some x) :
    s.handleAt loc = some x := by
  cases loc with
  | cap idx => exact hl
  | table c idx =>
    simp only [State.handleAt, State.procCells_updProc] at hl ⊢
    by_cases hc : c = p
    · subst hc
      simp only [if_true] at hl
      cases hp : s.procCells c with
      | activeProcess u =>
        simp only [hp, ProcessType.map] at hl ⊢
        split at hl
        · rename_i hlt
          rw [if_pos hlt]
          exact ht u idx x hl
        · cases hl
      | zombieProcess pid => simp [hp, ProcessType.map] at hl
    · simpa only [hc, if_false] using hl

/-- A process may keep other slots, if none of them is the root server's. -/
theorem updSlots (h : Sane s) {f : UserProcess → UserProcess}
    (hs : ∀ u, s.procCells p = .activeProcess u → ∀ c ∈ (f u).slots, c ≠ rootVSpaceSlot)
    (ht : ∀ u idx x, (f u).handleTable idx = some x → u.handleTable idx = some x)
    (hw : ∀ u, s.procCells p = .activeProcess u →
      ∀ w ∈ (f u).initialWindows ++ (f u).windows, w < s.windows.next) :
    Sane (s.updProc p f) := by
  refine { h with
    apart := fun x c hc => ?_
    registered := fun loc v hl => h.registered loc v (handleAt_updProc_sub ht hl)
    handles := fun loc x hl => ?_
    noCell := fun c hc => ?_
    procWindows := fun c w hwc => ?_ }
  · cases x with
    | view v => exact h.apart (.view v) c hc
    | reply => exact h.apart .reply c hc
    | proc q =>
      simp only [State.held, State.procCells_updProc] at hc
      by_cases hqp : q = p
      · subst hqp
        rw [if_pos rfl] at hc
        cases hq : s.procCells q with
        | activeProcess u =>
          rw [hq] at hc
          exact hs u hq c hc
        | zombieProcess pid =>
          rw [hq] at hc
          cases hc
      · rw [if_neg hqp] at hc
        exact h.apart (.proc q) c hc
  · obtain ⟨pid, hpid⟩ := h.noCell c hc
    rw [State.procCells_updProc]
    by_cases hcp : c = p
    · subst hcp; exact ⟨pid, by simp [hpid, ProcessType.map]⟩
    · exact ⟨pid, by simp [hcp, hpid]⟩
  · have := h.handles loc x (handleAt_updProc_sub ht hl)
    cases x <;> exact this
  · rcases procWindows_updProc c hwc with hw' | ⟨u, hu, hw'⟩
    · exact h.procWindows c w hw'
    · exact hw u hu w hw'

theorem updProc (h : Sane s) {f : UserProcess → UserProcess} (hs : ∀ u, (f u).slots = u.slots)
    (ht : ∀ u idx x, (f u).handleTable idx = some x → u.handleTable idx = some x)
    (hw : ∀ u, s.procCells p = .activeProcess u →
      ∀ w ∈ (f u).initialWindows ++ (f u).windows, w < s.windows.next) :
    Sane (s.updProc p f) := by
  refine h.updSlots (fun u hu c hc => h.apart (.proc p) c ?_) ht hw
  simp only [State.held, hu]
  rwa [hs] at hc

theorem held_setHandleAt (loc : HandleLoc) (x : Option RootServerResource) (y : Holder) :
    (s.setHandleAt loc x).held y = s.held y := by
  cases loc with
  | cap idx => cases y <;> rfl
  | table c idx =>
    exact held_updProc (f := fun u => { u with handleTable := Function.update u.handleTable idx x })
      (fun _ => rfl) y

theorem noCell_setHandleAt (h : Sane s) (loc : HandleLoc) (x : Option RootServerResource) (c : Nat)
    (hc : s.procCells.next ≤ c) : ∃ pid, (s.setHandleAt loc x).procCells c = .zombieProcess pid := by
  obtain ⟨pid, hpid⟩ := h.noCell c hc
  cases loc with
  | cap idx => exact ⟨pid, hpid⟩
  | table p idx =>
    refine ⟨pid, ?_⟩
    simp only [State.setHandleAt, State.procCells_updProc]
    by_cases hcp : c = p
    · subst hcp; simp [hpid, ProcessType.map]
    · simp [hcp, hpid]

theorem procCells_next_setHandleAt (loc : HandleLoc) (x : Option RootServerResource) :
    (s.setHandleAt loc x).procCells.next = s.procCells.next := by
  cases loc <;> rfl

theorem inRange_setHandleAt (loc : HandleLoc) (x : Option RootServerResource)
    (y : RootServerResource) : (s.setHandleAt loc x).InRange y ↔ s.InRange y := by
  cases y <;> simp [State.InRange]

/-- A handle may be cleared, or given to something in range that is no bad registration. -/
theorem setHandleAt (h : Sane s) {loc : HandleLoc} (hloc : s.ValidLoc loc) {x : Option RootServerResource}
    (hx : ∀ y, x = some y → s.InRange y)
    (hreg : ∀ v, x = some (.windowRegistration v) → (s.views v).boundObject = none) :
    Sane (s.setHandleAt loc x) where
  rooted := by simpa using h.rooted
  apart y c hc := h.apart y c (by rwa [held_setHandleAt] at hc)
  registered loc' v hl := by
    rw [State.handleAt_setHandleAt hloc] at hl
    simp only [State.setHandleAt_views]
    split at hl
    · exact hreg v hl
    · exact h.registered loc' v hl
  blankWindow := by simpa using h.blankWindow
  blankView := by simpa using h.blankView
  blankObject := by simpa using h.blankObject
  noCell c hc := h.noCell_setHandleAt loc x c (by rwa [procCells_next_setHandleAt] at hc)
  handles loc' y hl := by
    rw [inRange_setHandleAt]
    rw [State.handleAt_setHandleAt hloc] at hl
    split at hl
    · exact hx y hl
    · exact h.handles loc' y hl
  procWindows c w hw := by
    rw [State.initialOf_setHandleAt, State.windowsOf_setHandleAt] at hw
    simpa using h.procWindows c w hw
  boundView := by simpa using h.boundView
  boundWindow := by simpa using h.boundWindow
  boundObject := by simpa using h.boundObject
  associated := by simpa using h.associated

/-- An update of an allocated cell leaves the others blank. -/
theorem blank_update {α : Type} {hp : Heap α} {b : α} (hb : ∀ r, hp.next ≤ r → hp r = b)
    {r : Nat} (hr : r < hp.next) (f : α → α) : ∀ r', (hp.update r f).next ≤ r' → hp.update r f r' = b := by
  intro r' hr'
  have hr'' : hp.next ≤ r' := hr'
  rw [Heap.update_of_ne _ (by omega)]
  exact hb r' hr''

theorem blank_alloc {α : Type} {hp : Heap α} {b : α} (hb : ∀ r, hp.next ≤ r → hp r = b) (a : α) :
    ∀ r', (hp.alloc a).next ≤ r' → hp.alloc a r' = b := by
  intro r' hr'
  have hr'' : hp.next + 1 ≤ r' := hr'
  rw [Heap.alloc_of_ne _ (by omega)]
  exact hb r' (by omega)

theorem inRange_mono {s' : State} {y : RootServerResource} (hy : s.InRange y)
    (hw : s.windows.next ≤ s'.windows.next) (ho : s.objects.next ≤ s'.objects.next)
    (hv : s.views.next ≤ s'.views.next) (hs : s.servers.next ≤ s'.servers.next) :
    s'.InRange y := by
  cases y with
  | window w => exact Nat.lt_of_lt_of_le hy hw
  | object o => exact Nat.lt_of_lt_of_le hy ho
  | view v => exact Nat.lt_of_lt_of_le hy hv
  | windowRegistration v => exact Nat.lt_of_lt_of_le hy hv
  | server srv => exact Nat.lt_of_lt_of_le hy hs
  | _ => trivial

theorem bindWindow (h : Sane s) {w : WindowRef} (hw : w < s.windows.next) {v : Option ViewRef}
    (hv : ∀ x, v = some x → x < s.views.next) :
    Sane { s with windows := s.windows.update w (Window.bind v) } :=
  { h with
    blankWindow := blank_update h.blankWindow hw _
    handles := fun loc y hl =>
      inRange_mono (h.handles loc y hl) (Nat.le_refl _) (Nat.le_refl _) (Nat.le_refl _) (Nat.le_refl _)
    boundView := fun w' x hx => by
      simp only [Heap.update_apply] at hx
      split at hx
      · exact hv x hx
      · exact h.boundView w' x hx }

theorem allocWindow (h : Sane s) {x : Window} (hx : x.boundView = none) :
    Sane { s with windows := s.windows.alloc x } :=
  { h with
    blankWindow := blank_alloc h.blankWindow x
    handles := fun loc y hl =>
      inRange_mono (h.handles loc y hl) (Nat.le_succ _) (Nat.le_refl _) (Nat.le_refl _) (Nat.le_refl _)
    procWindows := fun c w hw => Nat.lt_succ_of_lt (h.procWindows c w hw)
    boundView := fun w' v hv => by
      by_cases hw' : w' = s.windows.next
      · subst hw'
        rw [Heap.alloc_self, hx] at hv
        cases hv
      · rw [Heap.alloc_of_ne _ hw'] at hv
        exact h.boundView w' v hv
    boundWindow := fun v hv => Nat.lt_succ_of_lt (h.boundWindow v hv) }

theorem updObject (h : Sane s) {o : ObjectRef} (ho : o < s.objects.next)
    {f : AnonymousMemoryObject → AnonymousMemoryObject}
    (hf : ∀ v ∈ (f (s.objects o)).associatedViews, v < s.views.next) :
    Sane { s with objects := s.objects.update o f } :=
  { h with
    blankObject := blank_update h.blankObject ho _
    handles := fun loc y hl =>
      inRange_mono (h.handles loc y hl) (Nat.le_refl _) (Nat.le_refl _) (Nat.le_refl _) (Nat.le_refl _)
    associated := fun o' v hv => by
      simp only [Heap.update_apply] at hv
      split at hv
      · exact hf v hv
      · exact h.associated o' v hv }

theorem allocObject (h : Sane s) {x : AnonymousMemoryObject} (hx : x.associatedViews = []) :
    Sane { s with objects := s.objects.alloc x } :=
  { h with
    blankObject := blank_alloc h.blankObject x
    handles := fun loc y hl =>
      inRange_mono (h.handles loc y hl) (Nat.le_refl _) (Nat.le_succ _) (Nat.le_refl _) (Nat.le_refl _)
    boundObject := fun v o ho => Nat.lt_succ_of_lt (h.boundObject v o ho)
    associated := fun o v hv => by
      by_cases ho : o = s.objects.next
      · subst ho
        rw [Heap.alloc_self, hx] at hv
        cases hv
      · rw [Heap.alloc_of_ne _ ho] at hv
        exact h.associated o v hv }

/-- A view keeps its links and holds no new slot but good ones. -/
theorem updView (h : Sane s) {v : ViewRef} (hv : v < s.views.next) {f : View → View}
    (hw : (f (s.views v)).boundWindow = (s.views v).boundWindow)
    (ho : (f (s.views v)).boundObject = (s.views v).boundObject)
    (hs : ∀ c ∈ (f (s.views v)).slots, c ≠ rootVSpaceSlot) :
    Sane { s with views := s.views.update v f } :=
  { h with
    apart := fun x c hc => by
      cases x with
      | view v' =>
        simp only [State.held, Heap.update_apply] at hc
        split at hc
        · exact hs c hc
        · exact h.apart (.view v') c hc
      | proc p => exact h.apart (.proc p) c hc
      | reply => exact h.apart .reply c hc
    registered := fun loc v' hl =>
      (s.views.update_preserves View.boundObject ho v').trans (h.registered loc v' hl)
    blankView := blank_update h.blankView hv _
    handles := fun loc y hl =>
      inRange_mono (h.handles loc y hl) (Nat.le_refl _) (Nat.le_refl _) (Nat.le_refl _) (Nat.le_refl _)
    boundWindow := fun v' hv' =>
      (s.views.update_preserves View.boundWindow hw v').symm ▸ h.boundWindow v' hv'
    boundObject := fun v' o hvo =>
      h.boundObject v' o ((s.views.update_preserves View.boundObject ho v').symm.trans hvo) }

theorem allocView (h : Sane s) {x : View} (hw : x.boundWindow < s.windows.next)
    (ho : ∀ o, x.boundObject = some o → o < s.objects.next)
    (hs : ∀ c ∈ x.slots, c ≠ rootVSpaceSlot) :
    Sane { s with views := s.views.alloc x } :=
  { h with
    apart := fun y c hc => by
      cases y with
      | view v =>
        by_cases hv : v = s.views.next
        · subst hv
          simp only [State.held, Heap.alloc_self] at hc
          exact hs c hc
        · simp only [State.held, Heap.alloc_of_ne _ hv] at hc
          exact h.apart (.view v) c hc
      | proc p => exact h.apart (.proc p) c hc
      | reply => exact h.apart .reply c hc
    registered := fun loc v hl => by
      have hv : v < s.views.next := h.handles loc _ hl
      exact (congrArg View.boundObject (s.views.alloc_of_lt hv x)).trans (h.registered loc v hl)
    blankView := blank_alloc h.blankView x
    handles := fun loc y hl =>
      inRange_mono (h.handles loc y hl) (Nat.le_refl _) (Nat.le_refl _) (Nat.le_succ _) (Nat.le_refl _)
    boundView := fun w v hv => Nat.lt_succ_of_lt (h.boundView w v hv)
    boundWindow := fun v hv => by
      by_cases hvn : v = s.views.next
      · subst hvn
        simpa using hw
      · rw [Heap.alloc_of_ne _ hvn]
        have hv' : v < s.views.next + 1 := hv
        exact h.boundWindow v (by omega)
    boundObject := fun v o hvo => by
      by_cases hvn : v = s.views.next
      · subst hvn
        exact ho o (by simpa using hvo)
      · rw [Heap.alloc_of_ne _ hvn] at hvo
        exact h.boundObject v o hvo
    associated := fun o v hv => Nat.lt_succ_of_lt (h.associated o v hv) }

theorem updServer (h : Sane s) (srv : ServerRef) (f : Server → Server) :
    Sane { s with servers := s.servers.update srv f } :=
  { h with
    handles := fun loc y hl =>
      inRange_mono (h.handles loc y hl) (Nat.le_refl _) (Nat.le_refl _) (Nat.le_refl _) (Nat.le_refl _) }

theorem allocServer (h : Sane s) (x : Server) : Sane { s with servers := s.servers.alloc x } :=
  { h with
    handles := fun loc y hl =>
      inRange_mono (h.handles loc y hl) (Nat.le_refl _) (Nat.le_refl _) (Nat.le_refl _) (Nat.le_succ _) }

theorem withReply (h : Sane s) {reply : Alloc} (hr : reply.1 ≠ rootVSpaceSlot) :
    Sane { s with reply := reply } :=
  { h with
    apart := fun x c hc => by
      cases x with
      | view v => exact h.apart (.view v) c hc
      | proc p => exact h.apart (.proc p) c hc
      | reply =>
        simp only [State.held, List.mem_singleton] at hc
        exact hc ▸ hr }

theorem withPublished (h : Sane s) (published : List (String × ServerRef)) :
    Sane { s with published := published } := { h with }

theorem withDma (h : Sane s) (dma : DmaPool) : Sane { s with dma := dma } := { h with }

end Sane

end Smos.RootServer
