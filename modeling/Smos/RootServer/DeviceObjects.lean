/-
Smos.RootServer.DeviceObjects — the objects that DEVICE requests create.

A request is answered properly when its object has one frame for each page
of its size, each a capability to the physical page it stands for; a request
that fails leaves the cache of device ranges as it was. The cache is
keyed by the address alone: a larger range that begins there is taken over
with all its frames. What has no range of its own, be it for an overlap or
for want of slots or of room in the cache, is an `expect`; and a new range
is kept even if there is no handle left for the object.

`Servable` says, from the state before, which requests are answered
properly; `deviceObjects_run` is that this is so in every state of a run.
-/
import Smos.RootServer.DevicePages
import Smos.RootServer.PageTables

namespace Smos.RootServer

open Smos.Base

/-! ## The request, step by step -/

section Create

variable {s : State} {p : Nat} {args : ObjCreateArgs}

/-- The entry that `generic_allocate_handle` would find. -/
def State.freeHandle (s : State) (p : Nat) (returnCap : Bool) : Option Nat :=
  if returnCap then firstEmpty s.handleCaps maxHandleCaps
  else
    match s.procCells p with
    | .activeProcess u => firstEmpty u.handleTable maxHandles
    | .zombieProcess _ => none

theorem genericAllocateHandle_free (hact : ∃ u, s.procCells p = .activeProcess u)
    (returnCap : Bool) : (genericAllocateHandle p returnCap).wp
      (fun idx s' => s' = s ∧ s.freeHandle p returnCap = some idx)
      (fun _ s' => s' = s ∧ s.freeHandle p returnCap = none) (fun _ => False) s := by
  obtain ⟨u, hact⟩ := hact
  cases returnCap with
  | true =>
    simp only [genericAllocateHandle, if_true, allocateHandleCap, Prog.wp_bind, Prog.wp_gets,
      Prog.wp_okOr, State.freeHandle]
    exact ⟨fun idx hidx => ⟨trivial, hidx⟩, fun hnone => ⟨trivial, hnone⟩⟩
  | false =>
    simp only [genericAllocateHandle, Bool.false_eq_true, if_false, allocateHandle, Prog.wp_bind,
      wp_getProc, Prog.wp_okOr, State.freeHandle, hact]
    refine ⟨fun u' hu' => ?_, fun pid hpid => by cases hpid⟩
    cases hu'
    exact ⟨fun idx hidx => ⟨trivial, hidx⟩, fun hnone => ⟨trivial, hnone⟩⟩

/-- Frames that fit are entered, whatever they are. -/
theorem insertFrames_fit {ε : Type} (o : ObjectRef) : ∀ (fs : List ObjectFrame) (s : State)
    (offset : Nat), (∃ y, FramesInserted offset fs (s.objects o) y) →
      (insertFrames o offset fs : SProg ε Unit).wp
        (fun _ s' => ∃ object, FramesInserted offset fs (s.objects o) object ∧
          s' = { s with objects := s.objects.update o fun _ => object })
        (fun _ _ => False) (fun _ => False) s
  | [], s, offset, _ => ⟨s.objects o, .nil _ _, by rw [Heap.update_id _ rfl]⟩
  | f :: fs, s, offset, h => by
      obtain ⟨z, hz⟩ := h
      cases hz with
      | @cons _ _ _ _ y _ hins hrest =>
        simp only [insertFrames, insertFrame, Prog.wp_bind, wp_getObject, hins, wp_modifyObject]
        refine Prog.wp_mono (insertFrames_fit o fs _ _ ⟨z, ?_⟩) ?_ (fun _ _ => False.elim)
          fun _ => False.elim
        · rw [Heap.update_self]
          exact hrest
        · intro _ s₂ hpost
          rcases hpost with ⟨y', hy', hs₂⟩
          rw [Heap.update_self] at hy'
          exact ⟨y', .cons hins hy', by rw [hs₂, Heap.update_overwrite]⟩

/-- The request, with what `alloc_device_mem` answers. -/
theorem handleObjCreate_device (hact : ∃ u, s.procCells p = .activeProcess u)
    (hdev : args.attributes.device = true) {name : String} {paddr : Nat}
    (hname : args.name = some name) (hparse : parseUsize name = some paddr)
    (hsize : AcceptedSize args.size) {Q : List (Slot × Nat) → Res → Prop} {P : Prop}
    (hmem : (allocDeviceMem paddr args.size : RProg InvocationError (List (Slot × Nat))).wp Q
      (fun _ _ => False) (fun _ => P) s.res)
    (hfit : ∀ frames r, Q frames r → frames.length * pageSize4K ≤ tableBytes) :
    (handleObjCreate p args none).wp
      (fun reply s' => ∃ frames r object idx, Q frames r ∧
        FramesInserted 0 (frames.map fun f => ⟨f.1, f.2⟩)
          (.new args.size args.rights args.attributes) object ∧
        s.freeHandle p args.returnCap = some idx ∧
        reply = .objCreate (newHandle args.returnCap idx) ∧
        s' = { s.allocObject args with
          res := r
          objects := (s.allocObject args).objects.update s.objects.next fun _ => object }.giveHandle
            p args.returnCap idx (.object s.objects.next))
      (fun _ s' => s.freeHandle p args.returnCap = none ∧ ∃ frames, Q frames s'.res)
      (fun _ => P) s := by
  simp only [handleObjCreate, Prog.wp_ite, Prog.wp_fail, Prog.wp_bind, wp_newObject]
  refine ⟨fun h => ?_, fun _ => ⟨fun h => ?_, fun _ => ⟨fun h => ?_, fun _ => ⟨fun _ => ?_,
    fun h => absurd hdev h⟩⟩⟩⟩
  · rw [hdev] at h
    exact absurd h.2 (by decide)
  · exact absurd h (not_or.mpr ⟨hsize.pos, not_not.mpr hsize.aligned⟩)
  · exact absurd hsize.below (Nat.not_lt.mpr h)
  simp only [hname, hparse, Prog.unwrap, Prog.wp_prog_pure, wp_onRes]
  refine Prog.wp_mono hmem ?_ (fun _ _ => False.elim) fun _ hp => hp
  intro frames r hq
  have hfits : ∃ y, FramesInserted 0 (frames.map fun f => (⟨f.1, f.2⟩ : ObjectFrame))
      (.new args.size args.rights args.attributes) y := by
    refine AnonymousMemoryObject.exists_inserted rfl ?_ fun i _ =>
      AnonymousMemoryObject.lookupFrame_new _ _ _ _
    rw [List.length_map, Nat.zero_add]
    exact hfit frames r hq
  have hnew : (s.allocObject args).objects s.objects.next =
      .new args.size args.rights args.attributes := Heap.alloc_self ..
  rw [← hnew] at hfits
  refine Prog.wp_mono (insertFrames_fit s.objects.next _ { s.allocObject args with res := r } 0
    hfits) ?_ (fun _ _ => False.elim) fun _ => False.elim
  intro _ s₁ hpost
  rcases hpost with ⟨object, hins, hs₁⟩
  have hins' : FramesInserted 0 (frames.map fun f => (⟨f.1, f.2⟩ : ObjectFrame))
      (.new args.size args.rights args.attributes) object := hnew ▸ hins
  have hact₁ : ∃ u, s₁.procCells p = .activeProcess u := by
    rw [hs₁]
    exact hact
  have hfree : s₁.freeHandle p args.returnCap = s.freeHandle p args.returnCap := by
    rw [hs₁]
    rfl
  refine Prog.wp_mono (genericAllocateHandle_free hact₁ args.returnCap) ?_ ?_
    fun _ => False.elim
  · intro idx s₂ hpost
    rcases hpost with ⟨hs₂, hidx⟩
    rw [hfree] at hidx
    rw [hs₂, wp_setAllocatedHandle, hs₁]
    simp only [wp_modifyProc, Prog.wp_pure]
    refine ⟨fun hcap => ⟨frames, r, object, idx, hq, hins', hidx, rfl, ?_⟩,
      fun hcap => ⟨frames, r, object, idx, hq, hins', hidx, rfl, ?_⟩⟩
    · rw [hcap]
      rfl
    · rw [Bool.not_eq_true] at hcap
      rw [hcap]
      exact (State.updProc_id (f := recordCap false idx) fun _ => rfl).symm
  · intro _ s₂ hpost
    rcases hpost with ⟨hs₂, hnone⟩
    rw [hfree] at hnone
    refine ⟨hnone, frames, ?_⟩
    rw [hs₂, hs₁]
    exact hq

end Create

/-! ## What the cache knows -/

section Cache

open UTTable

variable {ranges : List UntypedRange} {r r' : Res} {paddr size : Nat}

/-- The entry has one frame for each page of its range. -/
structure DeviceMemAllocation.Shows (a : DeviceMemAllocation) (ranges : List UntypedRange)
    (k : Kernel) : Prop where
  aligned : a.size % pageSize4K = 0
  caps : List.Forall₂ (fun f x => k.PageCap ranges f.1 x) a.frames (pageSteps a.paddr a.size)

theorem DeviceMemAllocation.Shows.later {a : DeviceMemAllocation} {k k' : Kernel}
    (h : a.Shows ranges k) (hk : k.Later k') : a.Shows ranges k' :=
  ⟨h.aligned, h.caps.imp fun _ _ hcap => hcap.later hk⟩

/-- The table is the one of boot, and so are the frames of the ranges. -/
structure Res.Known (r : Res) (ranges : List UntypedRange) : Prop where
  table : FromBoot ranges r.ut
  cache : ∀ a ∈ r.deviceAllocations, a.Shows ranges r.kernel

/-- What `alloc_device_mem` answers. -/
inductive Supplied (ranges : List UntypedRange) (paddr size : Nat) (r : Res) :
    List (Slot × Nat) → Res → Prop
  | known {a : DeviceMemAllocation} (found : r.cached paddr size = some a) :
    Supplied ranges paddr size r a.frames r
  | made {frames : List (Slot × Nat)} {r₁ : Res} (new : r.cached paddr size = none)
    (backs : r.Backs ranges paddr size)
    (pages : PagesMade ranges (pageSteps paddr size) r frames r₁) :
    Supplied ranges paddr size r frames
      { r₁ with deviceAllocations := r.deviceAllocations ++ [⟨paddr, size, frames⟩] }

/-- The size of the range whose frames are answered. -/
def Res.suppliedSize (r : Res) (paddr size : Nat) : Nat :=
  match r.cached paddr size with
  | some a => a.size
  | none => size

theorem allocDeviceMem_supplied {ε : Type} (hl : Listed ranges) (hb : FromBoot ranges r.ut)
    (ha : 2 ^ pageBits4K ∣ paddr) (hs : size % pageSize4K = 0) :
    (allocDeviceMem paddr size : RProg ε (List (Slot × Nat))).wp (Supplied ranges paddr size r)
      (fun _ _ => False) (fun _ => r.cached paddr size = none ∧ ¬ r.Backs ranges paddr size) r := by
  cases hcached : r.cached paddr size with
  | some a =>
    rw [Prog.wp_of_ok (allocDeviceMem_cached hcached)]
    exact .known hcached
  | none =>
    refine Prog.wp_mono (allocDeviceMem_made hl hb ha hs hcached) ?_ (fun _ _ h => h)
      fun _ hbacks => ⟨rfl, hbacks⟩
    intro frames r' ⟨hbacks, r₁, hpages, hr'⟩
    rw [hr']
    exact .made hcached hbacks hpages

namespace Supplied

variable {frames : List (Slot × Nat)}

/-- Whatever it answers has a frame for each page of a range. -/
theorem shows (h : Supplied ranges paddr size r frames r') (hk : r.Known ranges)
    (hs : size % pageSize4K = 0) :
    (⟨paddr, r.suppliedSize paddr size, frames⟩ : DeviceMemAllocation).Shows ranges r'.kernel := by
  cases h with
  | @known a hfound =>
    have hmem : a ∈ r.deviceAllocations := List.mem_of_find?_eq_some hfound
    have hkey := List.find?_some hfound
    rw [Bool.and_eq_true, beq_iff_eq] at hkey
    have hsize : r.suppliedSize paddr size = a.size := by simp only [Res.suppliedSize, hfound]
    have hshows := hk.cache a hmem
    rw [hsize, hkey.1]
    exact ⟨hshows.aligned, hshows.caps⟩
  | made hnew hbacks hpages =>
    simp only [Res.suppliedSize, hnew]
    exact ⟨hs, hpages.caps⟩

/-- The table and the other entries stay. -/
theorem keeps (h : Supplied ranges paddr size r frames r') (hk : r.Known ranges)
    (hs : size % pageSize4K = 0) : r'.Known ranges := by
  have hshows := h.shows hk hs
  cases h with
  | known hfound => exact hk
  | made hnew hbacks hpages =>
    refine ⟨?_, fun a ha => ?_⟩
    · rw [hpages.table]
      exact hk.table
    · obtain ha | ha := List.mem_append.mp ha
      · exact (hk.cache a ha).later hpages.later
      · rw [List.mem_singleton.mp ha]
        simp only [Res.suppliedSize, hnew] at hshows
        exact hshows

end Supplied

namespace DeviceMemAllocation.Shows

variable {a : DeviceMemAllocation} {k : Kernel}

theorem length (h : a.Shows ranges k) : a.frames.length = a.size / pageSize4K := by
  rw [h.caps.length_eq, pageSteps_eq h.aligned, List.length_map, List.length_range]

theorem get (h : a.Shows ranges k) {i : Nat} (hi : i < a.size / pageSize4K) :
    ∃ f, a.frames[i]? = some f ∧ k.PageCap ranges f.1 (a.paddr + i * pageSize4K) := by
  have hlt : i < a.frames.length := h.length ▸ hi
  refine ⟨a.frames[i], List.getElem?_eq_getElem hlt, ?_⟩
  have hcap := h.caps.get hlt (h.caps.length_eq ▸ hlt)
  simpa [pageSteps_eq h.aligned] using hcap

/-- There is an object that is large enough for it. -/
theorem fits (h : a.Shows ranges k) {t : UTTable} (hb : FromBoot ranges t) :
    a.frames.length * pageSize4K ≤ tableBytes := by
  have hpages : ∀ i < a.size / pageSize4K, ∃ page ∈ pages ranges,
      page.paddr = a.paddr + i * pageSize4K := by
    intro i hi
    obtain ⟨f, -, hcap⟩ := h.get hi
    obtain ⟨_, _, _, _, page, -, -, -, hpage, haddr⟩ := hcap
    exact ⟨page, hpage, haddr⟩
  have hle : a.size / pageSize4K ≤ physicalPages := hb.length_le hpages
  rw [h.length]
  have hlarge : physicalPages * pageSize4K ≤ tableBytes := by decide
  exact (Nat.mul_le_mul_right _ hle).trans hlarge

end DeviceMemAllocation.Shows

end Cache

/-! ## Runs of requests -/

/-- A process asks for an object. -/
structure DeviceRequest where
  process : Nat
  args : ObjCreateArgs

namespace DeviceRequest

def run (q : DeviceRequest) : Handler SMOSReply := handleObjCreate q.process q.args none

/-- The address that the request names. -/
def paddr (q : DeviceRequest) : Option Nat := q.args.name.bind parseUsize

/-- A DEVICE request at a page-aligned address, from a process that runs. -/
structure Allowed (s : State) (q : DeviceRequest) : Prop where
  device : q.args.attributes.device = true
  address : ∃ paddr, q.paddr = some paddr ∧ 2 ^ pageBits4K ∣ paddr
  active : ∃ u, s.procCells q.process = .activeProcess u

/-- The state after a request, unless it panics. -/
def call (s : State) (q : DeviceRequest) : Option State :=
  match q.run s with
  | .ok _ s' => some s'
  | .err _ s' => some s'
  | .panic _ => none

/-- The table is the one of boot, and nothing is cached. -/
structure Start (ranges : List UntypedRange) (s : State) : Prop where
  table : UTTable.FromBoot ranges s.res.ut
  cache : s.res.deviceAllocations = []

variable (ranges : List UntypedRange) (s : State) (q : DeviceRequest)

/-- The handle names an object with exactly the pages that were asked for. -/
def Covers (reply : SMOSReply) (s' : State) : Prop :=
  ∃ paddr idx o, q.paddr = some paddr ∧ reply = .objCreate (newHandle q.args.returnCap idx) ∧
    s'.handleAt (allocatedLoc q.process q.args.returnCap idx) = some (.object o) ∧
    (s'.objects o).frames.values.length = q.args.size / pageSize4K ∧
    ∀ i < q.args.size / pageSize4K, ∃ frame,
      (s'.objects o).lookupFrame (i * pageSize4K) = some frame ∧
      s'.res.kernel.PageCap ranges frame.cap (paddr + i * pageSize4K)

/-- The object is what was asked for, or the request is refused and nothing is cached for it. -/
def Answered : Prop :=
  q.run.wp (q.Covers ranges)
    (fun _ s' => s'.res.deviceAllocations = s.res.deviceAllocations) (fun _ => False) s

/-- The size is refused; or the cache has a range of just that size, or else a larger one and
there is no handle; or the range can be made, and there is a handle. -/
def Servable : Prop :=
  ¬ AcceptedSize q.args.size ∨ ∃ paddr, q.paddr = some paddr ∧
    match s.res.cached paddr q.args.size with
    | some a => a.size = q.args.size ∨ s.freeHandle q.process q.args.returnCap = none
    | none => s.res.Backs ranges paddr q.args.size ∧
        s.freeHandle q.process q.args.returnCap ≠ none

variable {ranges s q}

/-- What a request does, if its size is accepted. -/
theorem Allowed.spec (h : q.Allowed s) (hl : Listed ranges) (hk : s.res.Known ranges)
    (hsize : AcceptedSize q.args.size) : ∃ paddr, q.paddr = some paddr ∧ q.run.wp
      (fun reply s' => ∃ frames r object idx,
        Supplied ranges paddr q.args.size s.res frames r ∧
        FramesInserted 0 (frames.map fun f => ⟨f.1, f.2⟩)
          (.new q.args.size q.args.rights q.args.attributes) object ∧
        s.freeHandle q.process q.args.returnCap = some idx ∧
        reply = .objCreate (newHandle q.args.returnCap idx) ∧
        s' = { s.allocObject q.args with
          res := r
          objects := (s.allocObject q.args).objects.update s.objects.next
            fun _ => object }.giveHandle q.process q.args.returnCap idx (.object s.objects.next))
      (fun _ s' => s.freeHandle q.process q.args.returnCap = none ∧
        ∃ frames, Supplied ranges paddr q.args.size s.res frames s'.res)
      (fun _ => s.res.cached paddr q.args.size = none ∧
        ¬ s.res.Backs ranges paddr q.args.size) s := by
  obtain ⟨paddr, hpaddr, ha⟩ := h.address
  obtain ⟨name, hname, hparse⟩ := Option.bind_eq_some_iff.mp hpaddr
  refine ⟨paddr, hpaddr, handleObjCreate_device h.active h.device hname hparse hsize
    (allocDeviceMem_supplied hl hk.table ha hsize.aligned) fun frames r hsupplied => ?_⟩
  have hshows := hsupplied.shows hk hsize.aligned
  exact hshows.fits hk.table

theorem giveHandle_handleAt {p idx : Nat} {returnCap : Bool} {x : RootServerResource}
    (h : s.ValidLoc (allocatedLoc p returnCap idx)) :
    (s.giveHandle p returnCap idx x).handleAt (allocatedLoc p returnCap idx) = some x := by
  have hset := State.handleAt_setHandleAt h (some x) (allocatedLoc p returnCap idx)
  rw [if_pos rfl] at hset
  rw [State.giveHandle, State.handleAt_updProc_of_eq fun u => ?_]
  · exact hset
  · unfold recordCap
    split <;> rfl

/-- The entry that is found exists. -/
theorem validLoc_of_free {p idx : Nat} {returnCap : Bool}
    (hact : ∃ u, s.procCells p = .activeProcess u) (h : s.freeHandle p returnCap = some idx) :
    s.ValidLoc (allocatedLoc p returnCap idx) := by
  obtain ⟨u, hu⟩ := hact
  cases returnCap with
  | true =>
    simp only [State.freeHandle, if_true] at h
    exact (firstEmpty_spec h).1
  | false =>
    simp only [State.freeHandle, Bool.false_eq_true, if_false, hu] at h
    exact ⟨(firstEmpty_spec h).1, u, hu⟩

theorem newHandle_inj {returnCap : Bool} {idx idx' : Nat}
    (h : newHandle returnCap idx = newHandle returnCap idx') : idx = idx' := by
  cases returnCap with
  | true => exact HandleOrHandleCap.handleCap.inj h
  | false => exact HandleOrHandleCap.handle.inj h

/-- The object that is made has the pages of the range that was answered. -/
theorem covers_iff {paddr idx : Nat} {frames : List (Slot × Nat)} {r : Res} {reply : SMOSReply}
    {object : AnonymousMemoryObject} (hq : q.paddr = some paddr)
    (hshows : (⟨paddr, s.res.suppliedSize paddr q.args.size, frames⟩ :
      DeviceMemAllocation).Shows ranges r.kernel)
    (hsize : AcceptedSize q.args.size) (hfit : frames.length * pageSize4K ≤ tableBytes)
    (hins : FramesInserted 0 (frames.map fun f => (⟨f.1, f.2⟩ : ObjectFrame))
      (.new q.args.size q.args.rights q.args.attributes) object)
    (hidx : s.freeHandle q.process q.args.returnCap = some idx)
    (hact : ∃ u, s.procCells q.process = .activeProcess u)
    (hreply : reply = .objCreate (newHandle q.args.returnCap idx)) :
    q.Covers ranges reply ({ s.allocObject q.args with
      res := r
      objects := (s.allocObject q.args).objects.update s.objects.next
        fun _ => object }.giveHandle q.process q.args.returnCap idx (.object s.objects.next)) ↔
      s.res.suppliedSize paddr q.args.size = q.args.size := by
  have hvalid := validLoc_of_free hact hidx
  generalize hs₁ : ({ s.allocObject q.args with
    res := r
    objects := (s.allocObject q.args).objects.update s.objects.next fun _ => object } : State) = s₁
  have hat : (s₁.giveHandle q.process q.args.returnCap idx (.object s.objects.next)).handleAt
      (allocatedLoc q.process q.args.returnCap idx) = some (.object s.objects.next) := by
    refine giveHandle_handleAt ((State.validLoc_congr (s := s) ?_).mpr hvalid)
    rw [← hs₁]
    rfl
  have hobject : (s₁.giveHandle q.process q.args.returnCap idx (.object s.objects.next)).objects
      s.objects.next = object := by
    rw [State.giveHandle, State.updProc_objects, State.setHandleAt_objects, ← hs₁]
    exact Heap.update_self (s.allocObject q.args).objects s.objects.next fun _ => object
  have hres : (s₁.giveHandle q.process q.args.returnCap idx (.object s.objects.next)).res = r := by
    rw [State.giveHandle, State.updProc_res, State.setHandleAt_res, ← hs₁]
  have hfilled := AnonymousMemoryObject.filled_of_inserted hins (by decide) (by
    rw [List.length_map, Nat.zero_add]
    exact hfit)
  have hcount : object.frames.values.length = frames.length := by
    rw [hfilled.count, List.length_map]
    simp [AnonymousMemoryObject.new]
  constructor
  · intro hall
    rcases hall with ⟨paddr', idx', o, -, hreply', hat', hcount', -⟩
    rw [hreply'] at hreply
    have heq : idx' = idx := newHandle_inj (SMOSReply.objCreate.inj hreply)
    rw [heq, hat] at hat'
    cases hat'
    rw [hobject, hcount, hshows.length] at hcount'
    have haligned : s.res.suppliedSize paddr q.args.size % pageSize4K = 0 := hshows.aligned
    rw [← Nat.div_mul_cancel (Nat.dvd_of_mod_eq_zero haligned), hcount',
      Nat.div_mul_cancel (Nat.dvd_of_mod_eq_zero hsize.aligned)]
  · intro heq
    rw [heq] at hshows
    refine ⟨paddr, idx, s.objects.next, hq, hreply, hat, ?_, fun i hi => ?_⟩
    · rw [hobject, hcount, hshows.length]
    · obtain ⟨f, hf, hcap⟩ := hshows.get hi
      refine ⟨⟨f.1, f.2⟩, ?_, ?_⟩
      · rw [hobject]
        have hinside := hfilled.inside i ⟨f.1, f.2⟩ (by rw [List.getElem?_map, hf]; rfl)
        rwa [Nat.zero_add] at hinside
      · rw [hres]
        exact hcap

/-- A request keeps what is known of the cache. -/
theorem known_step {s' : State} (hl : Listed ranges) (hk : s.res.Known ranges) (ok : q.Allowed s)
    (h : call s q = some s') : s'.res.Known ranges := by
  unfold call at h
  by_cases hsize : AcceptedSize q.args.size
  · obtain ⟨paddr, -, hspec⟩ := ok.spec hl hk hsize
    cases hrun : q.run s with
    | ok reply s₁ =>
      rw [hrun] at h
      cases h
      obtain ⟨frames, r, object, idx, hsupplied, -, -, -, hs'⟩ := Prog.wp_ok hspec hrun
      rw [hs', State.giveHandle, State.updProc_res, State.setHandleAt_res]
      exact hsupplied.keeps hk hsize.aligned
    | err e s₁ =>
      rw [hrun] at h
      cases h
      obtain ⟨-, frames, hsupplied⟩ := Prog.wp_err hspec hrun
      exact hsupplied.keeps hk hsize.aligned
    | panic p =>
      rw [hrun] at h
      cases h
  · rw [run, handleObjCreate_refuses hsize] at h
    cases h
    exact hk

theorem run_known (hl : Listed ranges) {ops : List DeviceRequest}
    (run : Run (Start ranges) call (fun s q => q.Allowed s) ops s) : s.res.Known ranges := by
  refine run.invariant (I := fun s => s.res.Known ranges) (fun s h => ⟨h.table, fun a ha => ?_⟩)
    fun s q s' hk ok hn => known_step hl hk ok hn
  rw [h.cache] at ha
  cases ha

/-- Where the cache has nothing, a refusal leaves a range behind. -/
theorem cache_grows {paddr size : Nat} {frames : List (Slot × Nat)} {r r' : Res}
    (h : Supplied ranges paddr size r frames r') :
    r'.deviceAllocations = r.deviceAllocations ↔ r.cached paddr size ≠ none := by
  cases h with
  | known hfound => simp [hfound]
  | made hnew => simp [hnew]

/-- In every state of every run, a request is answered properly just if it is servable. -/
theorem deviceObjects_run (hl : Listed ranges) {ops : List DeviceRequest}
    (run : Run (Start ranges) call (fun s q => q.Allowed s) ops s) (ok : q.Allowed s) :
    q.Answered ranges s ↔ q.Servable ranges s := by
  have hk := run_known hl run
  by_cases hsize : AcceptedSize q.args.size
  swap
  · have hrefused : q.run s = .err .invalidArguments s := handleObjCreate_refuses hsize
    rw [Answered, Prog.wp_of_err hrefused]
    exact ⟨fun _ => .inl hsize, fun _ => rfl⟩
  obtain ⟨paddr, hpaddr, hspec⟩ := ok.spec hl hk hsize
  have hservable : q.Servable ranges s ↔ match s.res.cached paddr q.args.size with
      | some a => a.size = q.args.size ∨ s.freeHandle q.process q.args.returnCap = none
      | none => s.res.Backs ranges paddr q.args.size ∧
        s.freeHandle q.process q.args.returnCap ≠ none := by
    rw [Servable, hpaddr]
    simp [hsize]
  rw [hservable]
  cases hrun : q.run s with
  | ok reply s' =>
    rw [Answered, Prog.wp_of_ok hrun]
    obtain ⟨frames, r, object, idx, hsupplied, hins, hidx, hreply, hs'⟩ := Prog.wp_ok hspec hrun
    have hshows := hsupplied.shows hk hsize.aligned
    rw [hs', covers_iff hpaddr hshows hsize (hshows.fits hk.table) hins hidx ok.active hreply,
      Res.suppliedSize]
    cases hsupplied with
    | known hfound => simp [hfound, hidx]
    | made hnew hbacks => simp [hnew, hidx, hbacks]
  | err e s' =>
    rw [Answered, Prog.wp_of_err hrun]
    obtain ⟨hnone, frames, hsupplied⟩ := Prog.wp_err hspec hrun
    rw [cache_grows hsupplied]
    cases s.res.cached paddr q.args.size with
    | some a => simp [hnone]
    | none => simp [hnone]
  | panic p =>
    obtain ⟨hnew, hbacks⟩ := Prog.wp_panic_of hspec hrun
    rw [Answered, Prog.wp, hrun, hnew]
    exact ⟨False.elim, fun h => hbacks h.1⟩

/-! ## Two pages of device memory -/

def demoDevices : List UntypedRange := [⟨0x40000000, 300, 2, true⟩]

theorem demoDevices_listed : Listed demoDevices := ⟨by decide, by decide, by decide⟩

/-- The small system, with the two pages in its table. -/
def deviceDemo : State :=
  { demo with
    res := { demo.res with
      ut :=
        { firstPaddr := 0x40000000
          untypeds := [⟨300, true⟩, ⟨301, true⟩]
          freeUntypeds := fun _ => []
          freeStructures := []
          nextFreeVaddr := 0x8000001000 } } }

theorem deviceDemo_start : Start demoDevices deviceDemo where
  table := ⟨⟨_, ⟨0x40000000, 2, 0x8000001000, rfl⟩, rfl, rfl⟩, by decide⟩
  cache := rfl

/-- A request of the first process. -/
def ask (name : String) (size : Nat) : DeviceRequest where
  process := 0
  args := ⟨some name, size, .all, ⟨false, true, false⟩, false⟩

theorem ask_allowed {name : String} {size paddr : Nat} {s : State}
    (hname : parseUsize name = some paddr) (ha : 2 ^ pageBits4K ∣ paddr)
    (hfree : (s.freeHandle 0 false).isSome = true) : (ask name size).Allowed s where
  device := rfl
  address := ⟨paddr, hname, ha⟩
  active := by
    cases hcell : s.procCells 0 with
    | activeProcess u => exact ⟨u, hcell⟩
    | zombieProcess pid => simp [State.freeHandle, hcell] at hfree

/-- The same range is answered twice. -/
theorem deviceObjects_run_demo : ∃ s,
    Run (Start demoDevices) call (fun s q => q.Allowed s) [ask "1073741824" 8192] s ∧
      (ask "1073741824" 8192).Answered demoDevices s := by
  have hstep : (call deviceDemo (ask "1073741824" 8192)).any (fun s =>
      (s.freeHandle 0 false).isSome && (s.res.cached 0x40000000 8192).any fun a => a.size == 8192) =
        true := by
    decide +kernel
  obtain ⟨s, hs, hp⟩ := (Option.any_eq_true _ _).mp hstep
  rw [Bool.and_eq_true] at hp
  obtain ⟨a, hcached, hsize⟩ := (Option.any_eq_true _ _).mp hp.2
  have hname : parseUsize "1073741824" = some 0x40000000 := by decide +kernel
  have start : Run (Start demoDevices) call (fun s q => q.Allowed s) [] deviceDemo :=
    .init deviceDemo_start
  have run := start.step (ask_allowed hname (by decide) rfl) hs
  refine ⟨s, run, (deviceObjects_run demoDevices_listed run
    (ask_allowed hname (by decide) hp.1)).mpr (.inr ⟨0x40000000, hname, ?_⟩)⟩
  have hcached' : s.res.cached 0x40000000 (ask "1073741824" 8192).args.size = some a := hcached
  rw [hcached']
  exact .inl (beq_iff_eq.mp hsize)

/-- With the two pages made, a request for the first one is answered with an object of two, and
one for the second is a panic. -/
theorem deviceObjects_not_run : ∃ s,
    Run (Start demoDevices) call (fun s q => q.Allowed s) [ask "1073741824" 8192] s ∧
      (ask "1073741824" 4096).Allowed s ∧ ¬ (ask "1073741824" 4096).Answered demoDevices s ∧
      (ask "1073745920" 4096).Allowed s ∧ ¬ (ask "1073745920" 4096).Answered demoDevices s := by
  have hstep : (call deviceDemo (ask "1073741824" 8192)).any (fun s =>
      (s.freeHandle 0 false).isSome &&
      ((ask "1073741824" 4096).run s).toOption.any (fun r =>
        decide (r.1 = .objCreate (.handle 1) ∧ r.2.handleAt (.table 0 1) = some (.object 1) ∧
          (r.2.objects 1).frames.values.length = 2)) &&
      ((ask "1073745920" 4096).run s).toPanic.isSome) = true := by
    decide +kernel
  obtain ⟨s, hs, hp⟩ := (Option.any_eq_true _ _).mp hstep
  simp only [Bool.and_eq_true] at hp
  obtain ⟨⟨hfree, hmore⟩, hpanic⟩ := hp
  have hfirst : parseUsize "1073741824" = some 0x40000000 := by decide +kernel
  have hsecond : parseUsize "1073745920" = some 0x40001000 := by decide +kernel
  have start : Run (Start demoDevices) call (fun s q => q.Allowed s) [] deviceDemo :=
    .init deviceDemo_start
  refine ⟨s, start.step (ask_allowed hfirst (by decide) rfl) hs,
    ask_allowed hfirst (by decide) hfree, fun h => ?_,
    ask_allowed hsecond (by decide) hfree, fun h => ?_⟩
  · obtain ⟨⟨reply, s'⟩, hrun, hr⟩ := (Option.any_eq_true _ _).mp hmore
    obtain ⟨hreply, hat, hcount⟩ := of_decide_eq_true hr
    obtain ⟨_, idx, o, _, hreply', hat', hcount', _⟩ :=
      Prog.wp_ok h (Outcome.toOption_eq_some.mp hrun)
    have hidx : 1 = idx :=
      HandleOrHandleCap.handle.inj (SMOSReply.objCreate.inj (hreply.symm.trans hreply'))
    rw [← hidx] at hat'
    cases hat.symm.trans hat'
    cases hcount.symm.trans hcount'
  · obtain ⟨π, hπ⟩ := Option.isSome_iff_exists.mp hpanic
    exact Prog.wp_panic_of h (Outcome.toPanic_eq_some.mp hπ)

end DeviceRequest

end Smos.RootServer
