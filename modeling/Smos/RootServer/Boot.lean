/-
Smos.RootServer.Boot — the states runs start from.

Boot loads any number of processes. Each has an address space and a list
of initial windows, one for each segment of its image and one for its
stack; every initial window has a view of its own, the view an object of
its own, and all three share one number here. Nobody has a handle yet, and
no server is published.
-/
import Smos.RootServer.SaneTurns

namespace Smos.RootServer

open Smos.Base

/-- The loader's window, view and object with the number `i`. -/
structure LoadedWindow (s : State) (i : Nat) : Prop where
  boundView : (s.windows i).boundView = some i
  boundWindow : (s.views i).boundWindow = i
  boundObject : (s.views i).boundObject = some i
  unmanaged : (s.views i).managingServerInfo = none
  noPending : (s.views i).pendingFault = none
  winOffset : (s.views i).winOffset = 0
  objOffset : (s.views i).objOffset = 0
  rights : (s.views i).rights = (s.objects i).rights
  associated : (s.objects i).associatedViews = [i]
  attributes : (s.objects i).attributes = .default
  noDma : (s.objects i).dmaAllocation = none

/-- A process that boot has loaded: no handles, no windows but the initial ones. -/
structure LoadedProcess (s : State) (u : UserProcess) : Prop where
  noHandles : u.handleTable = fun _ => none
  noWindows : u.windows = []
  noWaiter : u.waiter = none
  initial : ∀ w ∈ u.initialWindows, w < s.windows.next

/-- A state after boot. -/
structure Booted (s : State) : Prop where
  rooted : Rooted s.res
  apart : ∀ h, ∀ c ∈ s.held h, c ≠ rootVSpaceSlot
  viewsNext : s.views.next = s.windows.next
  objectsNext : s.objects.next = s.windows.next
  loaded : ∀ i, i < s.windows.next → LoadedWindow s i
  blankWindow : ∀ w, s.windows.next ≤ w → s.windows w = .blank
  blankView : ∀ v, s.views.next ≤ v → s.views v = .blank
  blankObject : ∀ o, s.objects.next ≤ o → s.objects o = .blank
  processes : ∀ p u, s.procCells p = .activeProcess u → LoadedProcess s u
  noCell : ∀ p, s.procCells.next ≤ p → ∃ pid, s.procCells p = .zombieProcess pid
  noHandleCaps : s.handleCaps = fun _ => none

namespace Booted

variable {s : State}

theorem handleAt (h : Booted s) (loc : HandleLoc) : s.handleAt loc = none := by
  cases loc with
  | cap idx => simp [State.handleAt, h.noHandleCaps]
  | table p idx =>
    simp only [State.handleAt]
    cases hp : s.procCells p with
    | activeProcess u => simp [(h.processes p u hp).noHandles]
    | zombieProcess pid => rfl

theorem windowsOf (h : Booted s) (p : Nat) : s.windowsOf p = [] := by
  simp only [State.windowsOf]
  cases hp : s.procCells p with
  | activeProcess u => exact (h.processes p u hp).noWindows
  | zombieProcess pid => rfl

theorem initialOf_lt (h : Booted s) {p : Nat} {w : WindowRef} (hw : w ∈ s.initialOf p) :
    w < s.windows.next := by
  simp only [State.initialOf] at hw
  cases hp : s.procCells p with
  | activeProcess u =>
    rw [hp] at hw
    exact (h.processes p u hp).initial w hw
  | zombieProcess pid =>
    rw [hp] at hw
    cases hw

/-- A number either names a loaded window, view and object, or blank ones. -/
theorem loaded_or_blank (h : Booted s) (i : Nat) :
    i < s.windows.next ∧ LoadedWindow s i ∨
      s.windows.next ≤ i ∧ s.windows i = .blank ∧ s.views i = .blank ∧ s.objects i = .blank := by
  by_cases hi : i < s.windows.next
  · exact .inl ⟨hi, h.loaded i hi⟩
  · have hle := Nat.le_of_not_lt hi
    exact .inr ⟨hle, h.blankWindow i hle, h.blankView i (h.viewsNext ▸ hle),
      h.blankObject i (h.objectsNext ▸ hle)⟩

theorem sane (h : Booted s) : Sane s where
  rooted := h.rooted
  apart := h.apart
  registered loc v hl := by rw [h.handleAt] at hl; cases hl
  blankWindow := h.blankWindow
  blankView := h.blankView
  blankObject := h.blankObject
  noCell := h.noCell
  handles loc x hl := by rw [h.handleAt] at hl; cases hl
  procWindows p w hw := by
    rw [h.windowsOf, List.append_nil] at hw
    exact h.initialOf_lt hw
  boundView w v hv := by
    rcases h.loaded_or_blank w with ⟨hw, hl⟩ | ⟨-, hb, -⟩
    · rw [hl.boundView] at hv
      cases hv
      exact h.viewsNext ▸ hw
    · rw [hb] at hv
      cases hv
  boundWindow v hv := by
    rw [h.viewsNext] at hv
    rw [(h.loaded v hv).boundWindow]
    exact hv
  boundObject v o ho := by
    rcases h.loaded_or_blank v with ⟨hv, hl⟩ | ⟨-, -, hb, -⟩
    · rw [hl.boundObject] at ho
      cases ho
      exact h.objectsNext ▸ hv
    · rw [hb] at ho
      cases ho
  associated o v hv := by
    rcases h.loaded_or_blank o with ⟨ho, hl⟩ | ⟨-, -, -, hb⟩
    · rw [hl.associated, List.mem_singleton] at hv
      exact hv ▸ h.viewsNext ▸ ho
    · rw [hb] at hv
      cases hv

end Booted

/-! ## Runs -/

/-- Every state of a run from boot is sane, and keeps what its turns keep. -/
theorem run_invariant {init : State → Prop} {guard : State → Op → Prop} {I : State → Prop}
    (hinit : ∀ s, init s → Booted s) (h₀ : ∀ s, init s → I s)
    (hstep : ∀ s op s', Sane s → I s → guard s op → op.enabled s = true → Turn s op s' → I s')
    {ops : List Op} {s : State} (run : Run init next guard ops s) : Sane s ∧ I s := by
  refine run.invariant (I := fun s => Sane s ∧ I s) (fun s hs => ⟨(hinit s hs).sane, h₀ s hs⟩) ?_
  rintro s op s' ⟨hs, hi⟩ hg hn
  have ht := next_turn hs hn
  refine ⟨hs.turn ht, hstep s op s' hs hi hg ?_ ht⟩
  unfold next at hn
  split at hn
  · assumption
  · cases hn

/-! ## A small system -/

/-- Process `pid` of the small system, with its slots from `slot` on and two frames. -/
def demoProcess (pid slot frame : Nat) : UserProcess where
  tcb := (slot, ⟨10 * pid, 50, 11⟩)
  pid := pid
  vspace := (slot + 1, ⟨10 * pid + 1, 51, 12⟩)
  ipcBuffer := (slot + 2, frame)
  sharedBuffer := (slot + 3, frame + 1)
  schedContext := (slot + 4, ⟨10 * pid + 2, 52, 7⟩)
  cspace := ⟨slot + 5, ⟨10 * pid + 3, 53, 12⟩⟩
  faultEp := slot + 6
  handleTable := fun _ => none
  createdHandleCaps := []
  initialWindows := []
  windows := []
  views := []
  waiter := none

/-- The capabilities of process `pid`: object numbers from `obj` on, and its two frames'. -/
def demoProcessCaps (slot obj vs frame : Nat) : List (Slot × Cap) :=
  [(slot, .object obj .tcb), (slot + 1, .vspace vs),
    (slot + 2, .frame (100 + frame) false ⟨true, true⟩ (some (vs, processIpcBuffer))),
    (slot + 3, .frame (101 + frame) false ⟨true, true⟩ (some (vs, processRsDataTransferPage))),
    (slot + 4, .object (obj + 1) (.schedContext 7)), (slot + 5, .object (obj + 2) (.cnode 7)),
    (slot + 6, .object (obj + 3) .endpoint)]

/-- Six frames, with their originals in the slots from 20 on. -/
def demoFrameCaps : List (Slot × Cap) :=
  (List.range 6).map fun f =>
    (20 + f, .frame (100 + f) true ⟨true, true⟩ (some (rootVSpace, frameDataAddr f)))

def demoCaps : List (Slot × Cap) :=
  (rootVSpaceSlot, .vspace rootVSpace) :: (11, .object 9 .reply) ::
    (demoProcessCaps 4 1 2 2 ++ demoProcessCaps 12 5 3 4 ++ demoFrameCaps)

/-- The pages mapped by a list of capabilities. -/
def demoPages (vs : VSpaceId) (vaddr : Nat) : Option PageEntry :=
  (demoCaps.findSome? fun e =>
    match e.2 with
    | .frame obj _ access (some m) => if m = (vs, vaddr) then some ⟨obj, access⟩ else none
    | _ => none)

/-- Two processes without initial windows, and two free frames. -/
def demo : State where
  res :=
    { kernel :=
        { caps := fun c => (demoCaps.find? fun e => e.1 == c).map Prod.snd
          nextObj := 200
          pages := demoPages
          tables := fun vs _ _ => decide (vs < 4)
          mem := fun _ _ => 0
          waiting := []
          boundTcbs := []
          irqs := []
          usedDevice := []
          userTop := 2 ^ 47
          log := [] }
      cspace :=
        { topBf := [0]
          topLvlSlots := 64
          botLvlNodes := [[⟨[BitVec.ofNat 64 (2 ^ 60 - 1), 0, 0, 0], rfl⟩]] }
      ut :=
        { firstPaddr := 0
          untypeds := []
          freeUntypeds := fun sizeBits =>
            if sizeBits = 12 then [⟨1, 40, 12⟩, ⟨2, 41, 12⟩] else
            if sizeBits = 5 then [⟨3, 42, 5⟩, ⟨4, 43, 5⟩] else
            if sizeBits = 4 then [⟨5, 44, 4⟩, ⟨6, 45, 4⟩] else
            if sizeBits = 6 then [⟨7, 46, 6⟩, ⟨8, 47, 6⟩] else []
          freeStructures := []
          nextFreeVaddr := 0x8000100000 }
      frameTable :=
        { cap := fun f => 20 + f
          capacity := 128
          used := 6
          byteLength := 4096
          free := [0, 1]
          allocated := [2, 3, 4, 5] }
      deviceAllocations := [] }
  windows := Heap.empty .blank
  views := Heap.empty .blank
  objects := Heap.empty .blank
  servers := Heap.empty ⟨0, (0, ⟨0, 0, 0⟩), (0, ⟨0, 0, 0⟩), 0, 0, 0, [], .published 0, []⟩
  connections := Heap.empty ⟨0, 0, 0, false⟩
  irqs := Heap.empty ⟨0, 0⟩
  procCells := ⟨2, fun p =>
    if p = 0 then .activeProcess (demoProcess 0 4 2) else
    if p = 1 then .activeProcess (demoProcess 1 12 4) else .zombieProcess p⟩
  procs := fun pid => if pid < 2 then some pid else none
  handleCaps := fun _ => none
  published := []
  dma := ⟨0, [], []⟩
  reply := (11, ⟨9, 48, 5⟩)

theorem demo_processes {p : Nat} {u : UserProcess} (h : demo.procCells p = .activeProcess u) :
    p = 0 ∧ u = demoProcess 0 4 2 ∨ p = 1 ∧ u = demoProcess 1 12 4 := by
  simp only [demo] at h
  split at h
  · cases h; exact .inl ⟨‹_›, rfl⟩
  · split at h
    · cases h; exact .inr ⟨‹_›, rfl⟩
    · cases h

theorem demo_booted : Booted demo where
  rooted := ⟨by decide +kernel, rfl⟩
  apart h c hc := by
    cases h with
    | view v => simp [State.held, demo, Heap.empty, View.blank, View.new, View.slots] at hc
    | reply =>
      simp only [State.held, demo, List.mem_singleton] at hc
      subst hc
      decide
    | proc p =>
      simp only [State.held] at hc
      cases hp : demo.procCells p with
      | zombieProcess pid => simp [hp, ProcessType.slots] at hc
      | activeProcess u =>
        rw [hp] at hc
        rcases demo_processes hp with ⟨-, rfl⟩ | ⟨-, rfl⟩
        · revert c; decide
        · revert c; decide
  viewsNext := rfl
  objectsNext := rfl
  loaded i hi := absurd hi (Nat.not_lt_zero i)
  blankWindow _ _ := rfl
  blankView _ _ := rfl
  blankObject _ _ := rfl
  processes p u hp := by
    rcases demo_processes hp with ⟨-, rfl⟩ | ⟨-, rfl⟩ <;> exact ⟨rfl, rfl, rfl, by simp [demoProcess]⟩
  noCell p hp := by
    have h2 : 2 ≤ p := hp
    refine ⟨p, ?_⟩
    simp only [demo]
    rw [if_neg (by omega), if_neg (by omega)]
  noHandleCaps := rfl

/-- What a run of the small system reaches is computed. -/
theorem demo_reaches {init : State → Prop} (h₀ : init demo) (guard : State → Op → Prop)
    (ops : List Op) (P : State → Prop) [DecidablePred P] (hg : Run.Guarded next guard demo ops)
    (h : (Run.steps next demo ops).any (fun s => decide (P s)) = true) :
    ∃ s, Run init next guard ops s ∧ P s :=
  Run.exists_of_steps h₀ hg h

/-! ## Room for a process -/

/-- The root server's endpoint in slot 2, and 140 frames. -/
def bareCaps (c : Slot) : Option Cap :=
  if c = 2 then some (.object 9 .endpoint) else
  if c = rootVSpaceSlot then some (.vspace rootVSpace) else
  if 1000 ≤ c ∧ c < 1140 then
    some (.frame c true ⟨true, true⟩ (some (rootVSpace, frameDataAddr (c - 1000)))) else none

def bareRes : Res where
  kernel := { demo.res.kernel with
    caps := bareCaps
    nextObj := 2000
    pages := fun vs vaddr => if vs = rootVSpace ∧ frameDataVaddr ≤ vaddr then
      some ⟨1000 + (vaddr - frameDataVaddr) / pageSize4K, ⟨true, true⟩⟩ else none
    tables := fun _ _ _ => true }
  cspace := ⟨[0], 64, [[⟨[15, 0, 0, 0], rfl⟩, ⟨[0, 0, 0, 0], rfl⟩, ⟨[0, 0, 0, 0], rfl⟩]]⟩
  ut := { demo.res.ut with freeUntypeds := fun sizeBits => List.replicate 20 ⟨1, 40, sizeBits⟩ }
  frameTable := ⟨fun f => 1000 + f, 140, 140, 4096, List.range 140, []⟩
  deviceAllocations := []

end Smos.RootServer
