/-
Smos.RootServer.FrameRuns — the frame table over whole runs.

A run allocates frames and frees them; between two calls the others may do
with the resources what they like, except that pages do not come from
nowhere. What a run keeps is `Sound`: the table spells out a list of free
frames and one of allocated frames, every created frame is in one of them,
and the references still fit a `u32`, because every frame and every page of
the table is a page of physical memory.
-/
import Smos.Base.Run
import Smos.RootServer.Boot
import Smos.RootServer.FrameLists
import Smos.RootServer.UtTable

namespace Smos.RootServer

open Smos.Base

namespace LinkedTable

/-- `FrameTable::init`; the frames are memory that nothing is mapped at. -/
def init (frames : Nat → Frame) : LinkedTable where
  frames := frames
  capacity := 0
  used := 0
  byteLength := 0
  free := ⟨.freeList, none, none, 0⟩
  allocated := ⟨.allocatedList, none, none, 0⟩

/-- The table is well linked: it spells out the two lists, which share no frame and have all
that were created between them. -/
structure Linked (t : LinkedTable) (free allocated : List Nat) : Prop where
  freeLinks : Dlist t.next t.prev t.free.first t.free.last free
  allocatedLinks : Dlist t.next t.prev t.allocated.first t.allocated.last allocated
  lengths : t.free.length = free.length ∧ t.allocated.length = allocated.length
  disjoint : free.Disjoint allocated
  created : ∀ i, i ∈ free ∨ i ∈ allocated ↔ i < t.used
  inFree : ∀ i ∈ free, t.listId i = .freeList
  inAllocated : ∀ i ∈ allocated, t.listId i = .allocatedList

/-- The two lists by name. -/
def lists (free allocated : List Nat) : ListID → List Nat
  | .noList => []
  | .freeList => free
  | .allocatedList => allocated

variable {t : LinkedTable} {free allocated l : List Nat} {x : Nat}

theorem update_freeList : Function.update (lists free allocated) .freeList l =
    lists l allocated := by
  funext id
  cases id <;> simp [lists]

theorem update_allocatedList : Function.update (lists free allocated) .allocatedList l =
    lists free l := by
  funext id
  cases id <;> simp [lists]

theorem Lists.linked (h : t.Lists (lists free allocated))
    (hall : ∀ i < t.used, t.listId i ≠ .noList) : t.Linked free allocated where
  freeLinks := h.dlist .freeList (by decide)
  allocatedLinks := h.dlist .allocatedList (by decide)
  lengths := ⟨h.length .freeList (by decide), h.length .allocatedList (by decide)⟩
  disjoint i hf ha := by
    have hf' := ((h.mem .freeList (by decide) i).mp hf).2
    have ha' := ((h.mem .allocatedList (by decide) i).mp ha).2
    rw [hf'] at ha'
    exact absurd ha' (by decide)
  created i := by
    have hf := h.mem .freeList (by decide) i
    have ha := h.mem .allocatedList (by decide) i
    refine (or_congr hf ha).trans ⟨fun hor => hor.elim And.left And.left, fun hi => ?_⟩
    cases hid : t.listId i with
    | noList => exact absurd hid (hall i hi)
    | freeList => exact .inl ⟨hi, rfl⟩
    | allocatedList => exact .inr ⟨hi, rfl⟩
  inFree i hi := ((h.mem .freeList (by decide) i).mp hi).2
  inAllocated i hi := ((h.mem .allocatedList (by decide) i).mp hi).2

theorem init_lists (frames : Nat → Frame) : (init frames).Lists (lists [] []) where
  header id hid := by
    cases id with
    | noList => contradiction
    | _ => rfl
  length id hid := by
    cases id <;> rfl
  dlist id hid := by
    cases id with
    | noList => contradiction
    | freeList => exact .nil
    | allocatedList => exact .nil
  mem id hid i := by
    cases id with
    | noList => contradiction
    | freeList => simp [lists, init]
    | allocatedList => simp [lists, init]
  loose i hi := absurd hi (Nat.not_lt_zero i)

variable {ls : ListID → List Nat}

/-- A list is no longer than the frames that were created. -/
theorem Lists.length_le (h : t.Lists ls) (id : ListID) (hid : id ≠ .noList) :
    (ls id).length ≤ t.used := by
  have hsub : ls id ⊆ List.range t.used := fun i hi =>
    List.mem_range.mpr ((h.mem id hid i).mp hi).1
  have hle := (List.subperm_of_subset (h.dlist id hid).nodup hsub).length_le
  rwa [List.length_range] at hle

/-- More room for frames. -/
theorem Lists.resize (h : t.Lists ls) (byteLength capacity : Nat) :
    Lists { t with byteLength := byteLength, capacity := capacity } ls where
  header id hid := by
    cases id <;> exact h.header _ hid
  length id hid := by
    cases id <;> exact h.length _ hid
  dlist id hid := by
    cases id <;> exact h.dlist _ hid
  mem := h.mem
  loose := h.loose

/-- The next frame, in no list yet. -/
def create (t : LinkedTable) (cap : Slot) : LinkedTable :=
  (((({ t with used := t.used + 1 } : LinkedTable).setCap t.used cap).setListId t.used
    .noList).setPrev t.used none).setNext t.used none

theorem create_listId (cap : Slot) :
    (t.create cap).listId = Function.update t.listId t.used .noList := by
  simp only [create, setNext_listId, setPrev_listId, setListId_listId, setCap_listId]
  rfl

theorem create_next (cap : Slot) :
    (t.create cap).next = Function.update t.next t.used none := by
  simp only [create, setNext_next, setPrev_next, setListId_next, setCap_next]
  rfl

theorem create_prev (cap : Slot) :
    (t.create cap).prev = Function.update t.prev t.used none := by
  simp only [create, setNext_prev, setPrev_prev, setListId_prev, setCap_prev]
  rfl

theorem create_list (cap : Slot) (id : ListID) : (t.create cap).list id = t.list id := by
  cases id <;> rfl

theorem Lists.create (h : t.Lists ls) (cap : Slot) : (t.create cap).Lists ls where
  header id hid := by
    rw [create_list]
    exact h.header id hid
  length id hid := by
    rw [create_list]
    exact h.length id hid
  dlist id hid := by
    rw [create_list]
    refine (h.dlist id hid).congr fun i hi => ?_
    have hne : i ≠ t.used := Nat.ne_of_lt ((h.mem id hid i).mp hi).1
    rw [create_next, create_prev, Function.update_of_ne hne, Function.update_of_ne hne]
    exact ⟨rfl, rfl⟩
  mem id hid i := by
    rw [create_listId, h.mem id hid i]
    show _ ↔ i < t.used + 1 ∧ _
    by_cases hi : i = t.used
    · rw [hi, Function.update_self]
      exact iff_of_false (fun h => Nat.lt_irrefl _ h.1) fun h => hid h.2.symm
    · rw [Function.update_of_ne hi]
      exact and_congr_left fun _ => by omega
  loose i hi hid := by
    rw [create_listId] at hid
    rw [create_next, create_prev]
    by_cases hx : i = t.used
    · rw [hx, Function.update_self, Function.update_self]
      exact ⟨rfl, rfl⟩
    · rw [Function.update_of_ne hx] at hid
      rw [Function.update_of_ne hx, Function.update_of_ne hx]
      have hi' : i < t.used + 1 := hi
      exact h.loose i (by omega) hid

end LinkedTable

namespace FrameLists

open LinkedTable

variable {m m' : FrameMem} {free allocated xs : List Nat} {x : Nat}

/-- The created frames fit the table, and physical memory has a page for each of them and
for each page of the table. -/
structure Room (m : FrameMem) : Prop where
  capacity : m.table.capacity = m.table.byteLength / frameSize
  used : m.table.used ≤ m.table.capacity
  pages : m.res.ut.freePages + m.table.used + m.table.byteLength / pageSize4K ≤ physicalPages

/-- So references fit a `u32`. -/
theorem Room.sized (h : Room m) : m.table.Sized where
  used := h.used
  capacity := by
    have hp := h.pages
    rw [h.capacity]
    unfold physicalPages physicalAddressLimit maxPhysicalSizeBits frameSize pageSize4K at *
    omega

theorem Room.relink {ls : ListID → List Nat} {id target : ListID} (h : Room m)
    (hr : Relinked m m' ls id xs x target) : Room m' where
  capacity := by
    rw [hr.size.capacity, hr.size.byteLength]
    exact h.capacity
  used := by
    rw [hr.size.used, hr.size.capacity]
    exact h.used
  pages := by
    rw [hr.res, hr.size.used, hr.size.byteLength]
    exact h.pages

/-- What holds between two calls. -/
structure Sound (m : FrameMem) (free allocated : List Nat) : Prop where
  room : Room m
  lists : m.table.Lists (LinkedTable.lists free allocated)
  all : ∀ i < m.table.used, m.table.listId i ≠ .noList

/-- One frame is on its way from one list to the other. -/
structure Pending (m : FrameMem) (free allocated : List Nat) (x : Nat) : Prop where
  room : Room m
  lists : m.table.Lists (LinkedTable.lists free allocated)
  lt : x < m.table.used
  loose : m.table.listId x = .noList
  rest : ∀ i < m.table.used, i ≠ x → m.table.listId i ≠ .noList

theorem allocFrameAt_spec (vaddr : Nat) : (allocFrameAt vaddr).wp
    (fun _ m' => m'.table = m.table ∧ m'.res.ut.freePages + 1 ≤ m.res.ut.freePages)
    (fun _ m' => m'.table = m.table ∧ m'.res.ut.freePages ≤ m.res.ut.freePages)
    Panic.InSlots m := by
  simp only [allocFrameAt, Prog.wp_zoom]
  exact Prog.wp_mono (allocFrameAt_freePages m.res vaddr) (fun _ _ h => ⟨trivial, h⟩)
    (fun _ _ h => ⟨trivial, h⟩) fun _ hp => hp

/-- Others, and a failed call, may take pages. -/
theorem Sound.spend (h : Sound m free allocated) (htable : m'.table = m.table)
    (hpages : m'.res.ut.freePages ≤ m.res.ut.freePages) : Sound m' free allocated := by
  have hle := h.room.pages
  refine ⟨⟨?_, ?_, ?_⟩, ?_, ?_⟩
  all_goals rw [htable]
  · exact h.room.capacity
  · exact h.room.used
  · omega
  · exact h.lists
  · exact h.all

/-- The table has room for one more frame. -/
theorem bumpCapacity_spec (h : Sound m free allocated) : bumpCapacity.wp
    (fun _ m' => Sound m' free allocated ∧ m'.table.used < m'.table.capacity ∧
      m'.table = { m.table with
        byteLength := m'.table.byteLength, capacity := m'.table.capacity })
    (fun _ m' => Sound m' free allocated ∧ m'.table = m.table) Panic.InSlots m := by
  simp only [bumpCapacity, Prog.wp_bind, Prog.wp_gets, modifyTable, Prog.wp_modify]
  refine Prog.wp_mono (allocFrameAt_spec _) ?_ ?_ fun _ hp => hp
  · intro _ m' hpost
    rcases hpost with ⟨htable, hpages⟩
    have hcap := h.room.capacity
    have hused := h.room.used
    have hle := h.room.pages
    rw [htable]
    refine ⟨⟨⟨rfl, ?_, ?_⟩, h.lists.resize _ _, h.all⟩, ?_, rfl⟩
    · show m.table.used ≤ (m.table.byteLength + pageSize4K) / frameSize
      unfold pageSize4K frameSize at *
      omega
    · show m'.res.ut.freePages + m.table.used + (m.table.byteLength + pageSize4K) / pageSize4K ≤
        physicalPages
      unfold pageSize4K at *
      omega
    · show m.table.used < (m.table.byteLength + pageSize4K) / frameSize
      unfold pageSize4K frameSize at *
      omega
  · intro _ m' hpost
    rcases hpost with ⟨htable, hpages⟩
    exact ⟨h.spend htable hpages, htable⟩

/-- Only the room for frames differs. -/
def SameFrames (t t' : LinkedTable) : Prop :=
  t' = { t with byteLength := t'.byteLength, capacity := t'.capacity }

/-- `alloc_fresh_frame` from a table that has room. -/
theorem createFrame_spec (h : Sound m free allocated) (hroom : m.table.used < m.table.capacity) :
    (do
      let t ← Prog.gets FrameMem.table
      Prog.assert .assertionFailed (t.used < t.capacity)
      let frame ← frameFromRef (← toU32 t.used)
      modifyTable fun t => { t with used := t.used + 1 }
      let vaddr ← frameData (← refFromFrame frame)
      let frameCap ← (allocFrameAt vaddr).catchErr fun e => do
        modifyTable fun t => { t with used := t.used - 1 }
        Prog.fail e
      modifyTable fun t => (((t.setCap frame frameCap).setListId frame .noList).setPrev frame
        none).setNext frame none
      pure frame : FProg Sel4Error Nat).wp
      (fun x m' => x = m.table.used ∧ Pending m' free allocated x)
      (fun _ m' => Sound m' free allocated ∧ m'.table = m.table) Panic.InSlots m := by
  have hs := h.room.sized
  have hused : m.table.used < 2 ^ 32 := Nat.lt_trans hroom hs.capacity
  have hcap : (toU32 m.table.capacity : FProg Sel4Error Nat)
      { m with table := { m.table with used := m.table.used + 1 } } = .ok m.table.capacity _ :=
    toU32_ok hs.capacity
  have href : (refFromFrame m.table.used : FProg Sel4Error Nat)
      { m with table := { m.table with used := m.table.used + 1 } } = .ok m.table.used _ :=
    refFromFrame_ok ⟨hroom, hs.capacity⟩ (Nat.lt_succ_self _)
  simp only [Prog.wp_bind, Prog.wp_gets, Prog.wp_assert, Prog.wp_of_ok (toU32_ok hused),
    Prog.wp_of_ok (frameFromRef_ok hs hroom), modifyTable, Prog.wp_modify, Prog.wp_of_ok href,
    frameData, Prog.wp_of_ok hcap, hroom, decide_true, true_implies, Bool.true_eq_false,
    false_implies, and_true, Prog.wp_pure, Prog.wp_catchErr, Prog.wp_fail]
  have hle := h.room.pages
  refine Prog.wp_mono (allocFrameAt_spec _) ?_ ?_ fun _ hp => hp
  · intro cap m' hpost
    rcases hpost with ⟨htable, hpages⟩
    have hcreate : (((m'.table.setCap m.table.used cap).setListId m.table.used .noList).setPrev
        m.table.used none).setNext m.table.used none = m.table.create cap := by
      rw [htable]
      rfl
    rw [hcreate]
    refine ⟨trivial, ⟨h.room.capacity, hroom, ?_⟩, h.lists.create cap, Nat.lt_succ_self _, ?_,
      fun i hi hne => ?_⟩
    · show m'.res.ut.freePages + (m.table.used + 1) + m.table.byteLength / pageSize4K ≤
        physicalPages
      have hpages' : m'.res.ut.freePages + 1 ≤ m.res.ut.freePages := hpages
      omega
    · rw [create_listId, Function.update_self]
    · rw [create_listId, Function.update_of_ne hne]
      have hi' : i < m.table.used + 1 := hi
      exact h.all i (by omega)
  · intro _ m' hpost
    rcases hpost with ⟨htable, hpages⟩
    have hback : { m'.table with used := m'.table.used - 1 } = m.table := by
      rw [htable]
      rfl
    rw [hback]
    have hsound : Sound { m' with table := m.table } free allocated := h.spend rfl hpages
    exact ⟨hsound, rfl⟩

theorem SameFrames.refl (t : LinkedTable) : SameFrames t t := rfl

/-- `alloc_fresh_frame` makes the next frame, or leaves the frames as they were. -/
theorem allocFreshFrame_spec (h : Sound m free allocated) : allocFreshFrame.wp
    (fun x m' => x = m.table.used ∧ Pending m' free allocated x)
    (fun _ m' => Sound m' free allocated ∧ SameFrames m.table m'.table) Panic.InSlots m := by
  have hused := h.room.used
  rw [allocFreshFrame, Prog.wp_bind, Prog.wp_gets, Prog.wp_bind, Prog.wp_assert]
  refine ⟨fun _ => ?_, fun hn => absurd hused (of_decide_eq_false hn)⟩
  by_cases hfull : m.table.used = m.table.capacity
  · rw [if_pos hfull, Prog.wp_bind]
    refine Prog.wp_mono (bumpCapacity_spec h) ?_ ?_ fun _ hp => hp
    · intro _ m₁ ⟨h₁, hroom, htable⟩
      refine Prog.wp_mono (createFrame_spec h₁ hroom) ?_ ?_ fun _ hp => hp
      · intro x m₂ ⟨hx, h₂⟩
        refine ⟨hx.trans ?_, h₂⟩
        rw [htable]
      · intro _ m₂ ⟨h₂, htable'⟩
        refine ⟨h₂, ?_⟩
        rw [htable']
        exact htable
    · intro _ m₁ ⟨h₁, htable⟩
      refine ⟨h₁, ?_⟩
      rw [htable]
      exact .refl _
  · rw [if_neg hfull]
    refine Prog.wp_mono (createFrame_spec h (Nat.lt_of_le_of_ne hused hfull)) (fun _ _ h => h) ?_
      fun _ hp => hp
    intro _ m₁ ⟨h₁, htable⟩
    refine ⟨h₁, ?_⟩
    rw [htable]
    exact .refl _

/-- The frame on its way has arrived. -/
theorem Pending.arrive {id : ListID} (h : Pending m free allocated x)
    (hid : id ≠ .noList) (hr : Relinked m m' (LinkedTable.lists free allocated) id xs x id)
    {free' allocated' : List Nat}
    (hls : Function.update (LinkedTable.lists free allocated) id xs =
      LinkedTable.lists free' allocated') : Sound m' free' allocated' where
  room := h.room.relink hr
  lists := hls ▸ hr.lists
  all i hi := by
    rw [hr.listId]
    rw [hr.size.used] at hi
    by_cases hix : i = x
    · rw [hix, Function.update_self]
      exact hid
    · rw [Function.update_of_ne hix]
      exact h.rest i hi hix

/-- A frame has left a list. -/
theorem Sound.leave {id : ListID} (h : Sound m free allocated)
    (hx : x ∈ LinkedTable.lists free allocated id) (hid : id ≠ .noList)
    (hr : Relinked m m' (LinkedTable.lists free allocated) id xs x .noList)
    {free' allocated' : List Nat}
    (hls : Function.update (LinkedTable.lists free allocated) id xs =
      LinkedTable.lists free' allocated') : Pending m' free' allocated' x where
  room := h.room.relink hr
  lists := hls ▸ hr.lists
  lt := by
    rw [hr.size.used]
    exact ((h.lists.mem id hid x).mp hx).1
  loose := by
    rw [hr.listId, Function.update_self]
  rest i hi hix := by
    rw [hr.listId, Function.update_of_ne hix]
    rw [hr.size.used] at hi
    exact h.all i hi

/-- The last steps of `alloc_frame`. -/
theorem Pending.allocate (h : Pending m free allocated x) :
    (do
      pushBack .allocatedList x
      refFromFrame x : FProg Unit Nat).wp
      (fun ref m' => ref = x ∧ Sound m' free (allocated ++ [x])) (fun _ _ => False)
      (fun _ => False) m := by
  have hs := h.room.sized
  have hlen := h.lists.length_le .allocatedList (by decide)
  have hlt : (LinkedTable.lists free allocated .allocatedList).length < 2 ^ 32 :=
    Nat.lt_of_le_of_lt (hlen.trans hs.used) hs.capacity
  rw [Prog.wp_bind]
  refine Prog.wp_mono (pushBack_spec h.lists hs (by decide) h.lt h.loose hlt) ?_
    (fun _ _ h => h) fun _ h => h
  intro _ m' hr
  have hsound := h.arrive (by decide) hr update_allocatedList
  have hx : x < m'.table.used := by
    rw [hr.size.used]
    exact h.lt
  rw [Prog.wp_of_ok (refFromFrame_ok hsound.room.sized hx)]
  exact ⟨rfl, hsound⟩

/-- `alloc_frame` gives the first free frame, and a fresh one only when none is free. When it
fails, the frames and the lists are what they were. -/
theorem allocFrame_spec (h : Sound m free allocated) : allocFrame.wp
    (fun ref m' => ref = free.headD m.table.used ∧ Sound m' free.tail (allocated ++ [ref]))
    (fun _ m' => free = [] ∧ Sound m' free allocated ∧ SameFrames m.table m'.table)
    Panic.InSlots m := by
  rw [allocFrame, Prog.wp_bind]
  refine Prog.wp_mono (popFront_spec h.lists h.room.sized (by decide)) ?_
    (fun _ _ h => h.elim) fun _ h => h.elim
  intro o m₁ hpop
  cases free with
  | nil =>
    obtain ⟨rfl, rfl⟩ := hpop
    rw [Prog.wp_bind, Prog.wp_catchErr]
    refine Prog.wp_mono (allocFreshFrame_spec h) ?_ ?_ fun _ hp => hp
    · intro x m₂ ⟨hx, hpending⟩
      refine Prog.wp_mono hpending.allocate ?_ (fun _ _ h => h.elim) fun _ h => h.elim
      intro ref m₃ ⟨href, hsound⟩
      refine ⟨href.trans hx, ?_⟩
      rw [href]
      exact hsound
    · intro _ m₂ ⟨hsound, hsame⟩
      exact ⟨rfl, hsound, hsame⟩
  | cons x xs =>
    obtain ⟨rfl, hr⟩ := hpop
    have hpending := h.leave List.mem_cons_self (by decide) hr update_freeList
    rw [Prog.wp_bind, Prog.wp_pure]
    refine Prog.wp_mono hpending.allocate ?_ (fun _ _ h => h.elim) fun _ h => h.elim
    intro ref m₂ ⟨href, hsound⟩
    refine ⟨href, ?_⟩
    rw [href]
    exact hsound

/-- `free_frame` of an allocated frame puts it in front of the free list. -/
theorem freeFrame_spec {ε : Type} (h : Sound m free allocated) (hx : x ∈ allocated) :
    (freeFrame x : FProg ε Unit).wp (fun _ m' => Sound m' (x :: free) (allocated.erase x))
      (fun _ _ => False) (fun _ => False) m := by
  have hs := h.room.sized
  have hused : x < m.table.used := ((h.lists.mem .allocatedList (by decide) x).mp hx).1
  have hnodup : allocated.Nodup := (h.lists.dlist .allocatedList (by decide)).nodup
  obtain ⟨xs, ys, hsplit⟩ := List.append_of_mem hx
  have herase : allocated.erase x = xs ++ ys := by
    rw [hsplit] at hnodup ⊢
    obtain ⟨-, -, hdisj⟩ := List.nodup_append.mp hnodup
    have hnot : x ∉ xs := fun hm => hdisj x hm x List.mem_cons_self rfl
    rw [List.erase_append_right _ hnot, List.erase_cons_head]
  rw [freeFrame, Prog.wp_bind,
    Prog.wp_of_ok (frameFromRef_ok hs (Nat.lt_of_lt_of_le hused hs.used)), Prog.wp_bind]
  refine Prog.wp_mono (removeFrame_spec h.lists hs (by decide) hsplit) ?_ (fun _ _ h => h)
    fun _ h => h
  intro _ m₁ hr
  have hpending : Pending m₁ free (xs ++ ys) x := h.leave hx (by decide) hr update_allocatedList
  have hs₁ := hpending.room.sized
  have hlen := hpending.lists.length_le .freeList (by decide)
  have hlt : (LinkedTable.lists free (xs ++ ys) .freeList).length < 2 ^ 32 :=
    Nat.lt_of_le_of_lt (hlen.trans hs₁.used) hs₁.capacity
  refine Prog.wp_mono (pushFront_spec hpending.lists hs₁ (by decide) hpending.lt hpending.loose
    hlt) ?_ (fun _ _ h => h) fun _ h => h
  intro _ m₂ hr₂
  rw [herase]
  exact hpending.arrive (by decide) hr₂ update_freeList

/-! ## Runs -/

/-- The frame table, and the references that were given out and not given back. -/
structure Tenancy where
  mem : FrameMem
  outstanding : List Nat

inductive Call where
  | allocFrame
  | freeFrame (frameRef : Nat)
  /-- Others use the resources. -/
  | resources (res : Res)

def call (s : Tenancy) : Call → Option Tenancy
  | .allocFrame =>
    match FrameLists.allocFrame s.mem with
    | .ok frameRef m => some ⟨m, s.outstanding ++ [frameRef]⟩
    | .err _ m => some ⟨m, s.outstanding⟩
    | .panic _ => none
  | .freeFrame frameRef =>
    match (FrameLists.freeFrame frameRef : FProg Empty Unit) s.mem with
    | .ok _ m => some ⟨m, s.outstanding.erase frameRef⟩
    | .err _ m => some ⟨m, s.outstanding⟩
    | .panic _ => none
  | .resources res => some ⟨{ s.mem with res := res }, s.outstanding⟩

/-- Only outstanding references are freed, and pages do not come from nowhere. -/
def Allowed (s : Tenancy) : Call → Prop
  | .allocFrame => True
  | .freeFrame frameRef => frameRef ∈ s.outstanding
  | .resources res => res.ut.freePages + s.mem.table.used + s.mem.table.byteLength / pageSize4K ≤
      physicalPages

instance (s : Tenancy) : (a : Call) → Decidable (Allowed s a)
  | .allocFrame => inferInstanceAs (Decidable True)
  | .freeFrame frameRef => inferInstanceAs (Decidable (frameRef ∈ s.outstanding))
  | .resources _ => inferInstanceAs (Decidable (_ ≤ _))

/-- A new frame table. -/
def Start (s : Tenancy) : Prop :=
  (∃ frames, s.mem.table = .init frames) ∧ s.mem.res.ut.freePages ≤ physicalPages ∧
    s.outstanding = []

theorem Start.sound {s : Tenancy} (h : Start s) : Sound s.mem [] s.outstanding := by
  obtain ⟨⟨frames, htable⟩, hpages, hout⟩ := h
  rw [hout]
  refine ⟨⟨?_, ?_, ?_⟩, ?_, ?_⟩
  all_goals rw [htable]
  · exact (Nat.zero_div _).symm
  · exact Nat.le_refl 0
  · simpa [init] using hpages
  · exact init_lists frames
  · exact fun i hi => absurd hi (Nat.not_lt_zero i)

/-- The untyped table that boot makes leaves room for a new frame table. -/
theorem start_of_boots {memory : List UntypedDesc} {start limit nextFreeVaddr : Nat}
    {ranges : List UntypedRange} {s : Tenancy} (hbounds : findMemoryBounds memory = some (start, limit))
    (hram : UTTable.Ram ranges)
    (hboot : Prog.forEach UTTable.addUntypedRange ranges
      (.new start ((limit - start) / pageSize4K) nextFreeVaddr) = .ok () s.mem.res.ut)
    (htable : ∃ frames, s.mem.table = .init frames) (hout : s.outstanding = []) : Start s := by
  refine ⟨htable, ?_, hout⟩
  have hlen := UTTable.length_of_boot hboot
  have hle := UTTable.Boots.ramPages_le hram ⟨_, _, _, hboot⟩
  rw [hlen] at hle
  exact hle.trans (findMemoryBounds_le hbounds)

/-- Every call keeps the two lists. -/
theorem Sound.call {s s' : Tenancy} {a : Call} (h : ∃ free, Sound s.mem free s.outstanding)
    (ha : Allowed s a) (hcall : call s a = some s') :
    ∃ free, Sound s'.mem free s'.outstanding := by
  obtain ⟨free, h⟩ := h
  cases a with
  | allocFrame =>
    have hspec := allocFrame_spec h
    simp only [FrameLists.call] at hcall
    cases hm : FrameLists.allocFrame s.mem with
    | ok ref m =>
      rw [hm] at hcall
      cases hcall
      exact ⟨_, (Prog.wp_ok hspec hm).2⟩
    | err e m =>
      rw [hm] at hcall
      cases hcall
      exact ⟨free, (Prog.wp_err hspec hm).2.1⟩
    | panic p =>
      rw [hm] at hcall
      cases hcall
  | freeFrame frameRef =>
    have hspec : (FrameLists.freeFrame frameRef : FProg Empty Unit).wp _ _ _ s.mem :=
      freeFrame_spec h ha
    simp only [FrameLists.call] at hcall
    cases hm : (FrameLists.freeFrame frameRef : FProg Empty Unit) s.mem with
    | ok u m =>
      rw [hm] at hcall
      cases hcall
      have h' := Prog.wp_ok hspec hm
      exact ⟨_, h'⟩
    | err e m => exact e.elim
    | panic p =>
      rw [hm] at hcall
      cases hcall
  | resources res =>
    cases hcall
    exact ⟨free, ⟨h.room.capacity, h.room.used, ha⟩, h.lists, h.all⟩

theorem Sound.linked (h : Sound m free allocated) : m.table.Linked free allocated :=
  h.lists.linked h.all

/-- After any run the frame table is well linked and the allocated list is the list of
outstanding references. `alloc_frame` then gives the first free frame, or the next one when none
is free; a failure changes neither the frames nor the lists, and no assertion fails. Every
outstanding reference can be freed. -/
theorem frameTable_run {ops : List Call} {s : Tenancy} (run : Run Start call Allowed ops s) :
    ∃ free, s.mem.table.Linked free s.outstanding ∧
      allocFrame.wp
        (fun ref m' => ref = free.headD s.mem.table.used ∧ ref ∉ s.outstanding ∧
          m'.table.Linked free.tail (s.outstanding ++ [ref]))
        (fun _ m' => free = [] ∧ m'.table.Linked free s.outstanding ∧
          SameFrames s.mem.table m'.table)
        Panic.InSlots s.mem ∧
      ∀ ref ∈ s.outstanding, (freeFrame ref : FProg Empty Unit).wp
        (fun _ m' => m'.table.Linked (ref :: free) (s.outstanding.erase ref))
        (fun _ _ => False) (fun _ => False) s.mem := by
  obtain ⟨free, h⟩ := run.invariant (I := fun s => ∃ free, Sound s.mem free s.outstanding)
    (fun s hs => ⟨[], hs.sound⟩) (fun _ _ _ h ha hcall => Sound.call h ha hcall)
  refine ⟨free, h.linked, ?_, fun ref href => ?_⟩
  · refine Prog.wp_mono (allocFrame_spec h) ?_ ?_ fun _ hp => hp
    · intro ref m' ⟨href, hsound⟩
      refine ⟨href, fun hmem => ?_, hsound.linked⟩
      have hnodup := hsound.linked.allocatedLinks.nodup
      exact (List.nodup_append.mp hnodup).2.2 ref hmem ref List.mem_cons_self rfl
    · intro _ m' ⟨hfree, hsound, hsame⟩
      exact ⟨hfree, hsound.linked, hsame⟩
  · exact Prog.wp_mono (freeFrame_spec h href) (fun _ _ h => h.linked) (fun _ _ h => h)
      fun _ h => h

/-- A new frame table, and five pages. -/
def demoTenancy : Tenancy where
  mem :=
    { res :=
        { demo.res with
          kernel := { demo.res.kernel with pages := fun _ _ => none }
          ut :=
            { demo.res.ut with
              freeUntypeds := fun _ => (List.range 5).map fun i => ⟨i, 40 + i, pageBits4K⟩ } }
      table := .init fun _ => ⟨0, none, none, .noList⟩ }
  outstanding := []

theorem demoTenancy_start : Start demoTenancy := ⟨⟨_, rfl⟩, by decide, rfl⟩

/-- A frame that was freed is given again before a third one is made. -/
theorem frameTable_run_three : ∃ s, Run Start call Allowed
    [.allocFrame, .allocFrame, .freeFrame 0, .allocFrame, .allocFrame] s ∧
      s.outstanding = [1, 0, 2] ∧ ∃ free, s.mem.table.Linked free [1, 0, 2] := by
  have hrun : ∃ s, Run Start call Allowed
      [.allocFrame, .allocFrame, .freeFrame 0, .allocFrame, .allocFrame] s ∧
        s.outstanding = [1, 0, 2] :=
    Run.exists_of_steps demoTenancy_start (by decide +kernel) (by decide +kernel)
  obtain ⟨s, run, hout⟩ := hrun
  obtain ⟨free, hlinked, -⟩ := frameTable_run run
  rw [hout] at hlinked
  exact ⟨s, run, hout, free, hlinked⟩

end FrameLists

end Smos.RootServer
