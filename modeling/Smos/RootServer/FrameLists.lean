/-
Smos.RootServer.FrameLists — the frame table's two lists as they are linked.

A frame has the reference of its neighbours and the name of the list it is
in; a list has a header. `pop_front`, `push_front`, `push_back` and
`remove_frame` work on a copy of the header and write it back. A
`FrameWrapper` is the index of its frame here.

`Lists t ls` says that the table spells out the lists `ls`: every created
frame is in the list it names and nowhere else, and `ls .noList` are the
frames on their way from one list to another.

Where frames come from is `alloc_frame_at` of the resources.
-/
import Smos.Base.Dlist
import Smos.RootServer.UtSpecs

namespace Smos.RootServer

open Smos.Base

/-- `ListID`. -/
inductive ListID where
  | noList
  | freeList
  | allocatedList
  deriving DecidableEq, Repr

structure Frame where
  cap : Slot
  prev : Option Nat
  next : Option Nat
  listId : ListID

structure FrameList where
  listId : ListID
  first : Option Nat
  last : Option Nat
  length : Nat

/-- `FrameTable`, with its frames. -/
structure LinkedTable where
  frames : Nat → Frame
  capacity : Nat
  used : Nat
  byteLength : Nat
  free : FrameList
  allocated : FrameList

/-- The resources and the frame table. -/
structure FrameMem where
  res : Res
  table : LinkedTable

namespace LinkedTable

variable (t : LinkedTable)

def next (i : Nat) : Option Nat := (t.frames i).next

def prev (i : Nat) : Option Nat := (t.frames i).prev

def listId (i : Nat) : ListID := (t.frames i).listId

/-- The header of a list. -/
def list : ListID → FrameList
  | .allocatedList => t.allocated
  | _ => t.free

def setFrame (i : Nat) (f : Frame → Frame) : LinkedTable :=
  { t with frames := Function.update t.frames i (f (t.frames i)) }

def setNext (i : Nat) (v : Option Nat) : LinkedTable := t.setFrame i fun f => { f with next := v }

def setPrev (i : Nat) (v : Option Nat) : LinkedTable := t.setFrame i fun f => { f with prev := v }

def setListId (i : Nat) (v : ListID) : LinkedTable := t.setFrame i fun f => { f with listId := v }

def setCap (i : Nat) (v : Slot) : LinkedTable := t.setFrame i fun f => { f with cap := v }

def putList : ListID → FrameList → LinkedTable
  | .allocatedList, l => { t with allocated := l }
  | _, l => { t with free := l }

/-! ## What a write leaves -/

section Writes

variable (i : Nat) (v : Option Nat) (id : ListID) (c : Slot)

/-- One field of all frames, after a write to one frame. -/
theorem setFrame_field {α : Type} (field : Frame → α) (f : Frame → Frame) :
    (fun j => field ((t.setFrame i f).frames j)) =
      Function.update (fun j => field (t.frames j)) i (field (f (t.frames i))) := by
  funext j
  by_cases h : j = i
  · simp [h, setFrame]
  · simp [h, setFrame]

/-- A field that the write leaves alone. -/
theorem setFrame_other {α : Type} (field : Frame → α) (f : Frame → Frame)
    (h : ∀ x, field (f x) = field x) :
    (fun j => field ((t.setFrame i f).frames j)) = fun j => field (t.frames j) := by
  rw [setFrame_field, h]
  exact Function.update_eq_self _ _

@[simp] theorem setNext_next : (t.setNext i v).next = Function.update t.next i v :=
  t.setFrame_field i Frame.next _

@[simp] theorem setNext_prev : (t.setNext i v).prev = t.prev :=
  t.setFrame_other i Frame.prev _ fun _ => rfl

@[simp] theorem setNext_listId : (t.setNext i v).listId = t.listId :=
  t.setFrame_other i Frame.listId _ fun _ => rfl

@[simp] theorem setPrev_next : (t.setPrev i v).next = t.next :=
  t.setFrame_other i Frame.next _ fun _ => rfl

@[simp] theorem setPrev_prev : (t.setPrev i v).prev = Function.update t.prev i v :=
  t.setFrame_field i Frame.prev _

@[simp] theorem setPrev_listId : (t.setPrev i v).listId = t.listId :=
  t.setFrame_other i Frame.listId _ fun _ => rfl

@[simp] theorem setListId_next : (t.setListId i id).next = t.next :=
  t.setFrame_other i Frame.next _ fun _ => rfl

@[simp] theorem setListId_prev : (t.setListId i id).prev = t.prev :=
  t.setFrame_other i Frame.prev _ fun _ => rfl

@[simp] theorem setListId_listId : (t.setListId i id).listId = Function.update t.listId i id :=
  t.setFrame_field i Frame.listId _

@[simp] theorem setCap_next : (t.setCap i c).next = t.next :=
  t.setFrame_other i Frame.next _ fun _ => rfl

@[simp] theorem setCap_prev : (t.setCap i c).prev = t.prev :=
  t.setFrame_other i Frame.prev _ fun _ => rfl

@[simp] theorem setCap_listId : (t.setCap i c).listId = t.listId :=
  t.setFrame_other i Frame.listId _ fun _ => rfl

@[simp] theorem setNext_list : (t.setNext i v).list id = t.list id := by
  cases id <;> rfl

@[simp] theorem setPrev_list : (t.setPrev i v).list id = t.list id := by
  cases id <;> rfl

@[simp] theorem setListId_list (id' : ListID) : (t.setListId i id').list id = t.list id := by
  cases id <;> rfl

@[simp] theorem putList_frames (l : FrameList) : (t.putList id l).frames = t.frames := by
  cases id <;> rfl

@[simp] theorem putList_next (l : FrameList) : (t.putList id l).next = t.next := by
  cases id <;> rfl

@[simp] theorem putList_prev (l : FrameList) : (t.putList id l).prev = t.prev := by
  cases id <;> rfl

@[simp] theorem putList_listId (l : FrameList) : (t.putList id l).listId = t.listId := by
  cases id <;> rfl

@[simp] theorem putList_self (l : FrameList) : (t.putList id l).list id = l := by
  cases id <;> rfl

theorem putList_of_ne (l : FrameList) {id' : ListID} (h : id ≠ .noList) (h' : id' ≠ .noList)
    (hne : id' ≠ id) : (t.putList id l).list id' = t.list id' := by
  cases id <;> cases id' <;> first | rfl | contradiction

end Writes

@[simp] theorem putList_used (id : ListID) (l : FrameList) : (t.putList id l).used = t.used := by
  cases id <;> rfl

@[simp] theorem putList_capacity (id : ListID) (l : FrameList) :
    (t.putList id l).capacity = t.capacity := by
  cases id <;> rfl

@[simp] theorem putList_byteLength (id : ListID) (l : FrameList) :
    (t.putList id l).byteLength = t.byteLength := by
  cases id <;> rfl

/-! ## The lists -/

/-- The table spells out `ls id` for each of its two lists; a created frame in neither has
no links. -/
structure Lists (ls : ListID → List Nat) : Prop where
  header : ∀ id, id ≠ .noList → (t.list id).listId = id
  length : ∀ id, id ≠ .noList → (t.list id).length = (ls id).length
  dlist : ∀ id, id ≠ .noList →
    Dlist t.next t.prev (t.list id).first (t.list id).last (ls id)
  mem : ∀ id, id ≠ .noList → ∀ i, i ∈ ls id ↔ i < t.used ∧ t.listId i = id
  loose : ∀ i < t.used, t.listId i = .noList → t.next i = none ∧ t.prev i = none

/-- The frames fit the table, and their references a `u32`. -/
structure Sized : Prop where
  used : t.used ≤ t.capacity
  capacity : t.capacity < 2 ^ 32

/-- Only the lists differ. -/
structure SameSize (t t' : LinkedTable) : Prop where
  capacity : t'.capacity = t.capacity
  used : t'.used = t.used
  byteLength : t'.byteLength = t.byteLength

variable {t} {t' : LinkedTable} {ls : ListID → List Nat}

theorem SameSize.sized (h : SameSize t t') (hs : t.Sized) : t'.Sized :=
  ⟨by rw [h.used, h.capacity]; exact hs.used, by rw [h.capacity]; exact hs.capacity⟩

theorem SameSize.refl (t : LinkedTable) : SameSize t t := ⟨rfl, rfl, rfl⟩

theorem SameSize.trans {t'' : LinkedTable} (h : SameSize t t') (h' : SameSize t' t'') :
    SameSize t t'' :=
  ⟨h'.capacity.trans h.capacity, h'.used.trans h.used, h'.byteLength.trans h.byteLength⟩

/-- One list of the table becomes `l`: the frames that join it were loose, those that leave it
are loose now, and nothing else has changed. -/
theorem Lists.change (h : t.Lists ls) {id : ListID} {l : List Nat} (hid : id ≠ .noList)
    (hused : t'.used = t.used)
    (hother : ∀ id', id' ≠ .noList → id' ≠ id → t'.list id' = t.list id')
    (hheader : (t'.list id).listId = id) (hlength : (t'.list id).length = l.length)
    (hdlist : Dlist t'.next t'.prev (t'.list id).first (t'.list id).last l)
    (hin : ∀ i ∈ l, i < t.used ∧ t'.listId i = id ∧ (t.listId i = id ∨ t.listId i = .noList))
    (hout : ∀ i ∈ ls id, i ∉ l → t'.listId i = .noList ∧ t'.next i = none ∧ t'.prev i = none)
    (hrest : ∀ i, i ∉ ls id → i ∉ l →
      t'.listId i = t.listId i ∧ t'.next i = t.next i ∧ t'.prev i = t.prev i) :
    t'.Lists (Function.update ls id l) := by
  -- a frame of another list is neither in the old list nor in the new one
  have hother' : ∀ id', id' ≠ .noList → id' ≠ id → ∀ i ∈ ls id', i ∉ ls id ∧ i ∉ l := by
    intro id' hid' hne i hi
    have hi' : t.listId i = id' := ((h.mem id' hid' i).mp hi).2
    refine ⟨fun hm => hne ?_, fun hm => ?_⟩
    · rw [← hi', ((h.mem id hid i).mp hm).2]
    · obtain hold | hold := (hin i hm).2.2
      · exact hne (hi'.symm.trans hold)
      · exact hid' (hi'.symm.trans hold)
  refine ⟨fun id' hid' => ?_, fun id' hid' => ?_, fun id' hid' => ?_, fun id' hid' i => ?_,
    fun i hi hnone => ?_⟩
  · by_cases heq : id' = id
    · rw [heq, hheader]
    · rw [hother id' hid' heq, h.header id' hid']
  · by_cases heq : id' = id
    · rw [heq, Function.update_self, hlength]
    · rw [hother id' hid' heq, Function.update_of_ne heq, h.length id' hid']
  · by_cases heq : id' = id
    · subst heq
      rw [Function.update_self]
      exact hdlist
    · rw [hother id' hid' heq, Function.update_of_ne heq]
      refine (h.dlist id' hid').congr fun i hi => ?_
      obtain ⟨hn, hl⟩ := hother' id' hid' heq i hi
      exact (hrest i hn hl).2
  · rw [hused]
    by_cases heq : id' = id
    · subst heq
      rw [Function.update_self]
      refine ⟨fun hi => ⟨(hin i hi).1, (hin i hi).2.1⟩, fun ⟨hi, hi'⟩ => ?_⟩
      by_contra hl
      by_cases hm : i ∈ ls id'
      · exact hid ((hi'.symm).trans (hout i hm hl).1)
      · exact hm ((h.mem id' hid i).mpr ⟨hi, (hrest i hm hl).1 ▸ hi'⟩)
    · rw [Function.update_of_ne heq, h.mem id' hid' i]
      refine and_congr_right fun hi => ?_
      by_cases hl : i ∈ l
      · obtain ⟨-, hnew, hold⟩ := hin i hl
        rw [hnew]
        refine iff_of_false (fun hi' => ?_) fun hi' => heq hi'.symm
        obtain hold | hold := hold
        · exact heq (hi'.symm.trans hold)
        · exact hid' (hi'.symm.trans hold)
      · by_cases hm : i ∈ ls id
        · rw [(hout i hm hl).1, ((h.mem id hid i).mp hm).2]
          exact iff_of_false (fun hi' => heq hi'.symm) fun hi' => hid' hi'.symm
        · rw [(hrest i hm hl).1]
  · rw [hused] at hi
    have hl : i ∉ l := fun hm => hid ((hin i hm).2.1.symm.trans hnone)
    by_cases hm : i ∈ ls id
    · exact (hout i hm hl).2
    · obtain ⟨hlist, hlinks⟩ := hrest i hm hl
      rw [hlinks.1, hlinks.2]
      exact h.loose i hi (hlist ▸ hnone)

theorem SameSize.putList (h : SameSize t t') (id : ListID) (l : FrameList) :
    SameSize t (t'.putList id l) :=
  ⟨(t'.putList_capacity id l).trans h.capacity, (t'.putList_used id l).trans h.used,
    (t'.putList_byteLength id l).trans h.byteLength⟩

/-- The header is written back last. -/
theorem Lists.writeBack (h : t.Lists ls) {id : ListID} (hid : id ≠ .noList)
    (hlist : ∀ id, t'.list id = t.list id) {first last : Option Nat} {l : List Nat}
    (hsize : SameSize t t') (hdlist : Dlist t'.next t'.prev first last l)
    (hin : ∀ i ∈ l, i < t.used ∧ t'.listId i = id ∧ (t.listId i = id ∨ t.listId i = .noList))
    (hout : ∀ i ∈ ls id, i ∉ l → t'.listId i = .noList ∧ t'.next i = none ∧ t'.prev i = none)
    (hrest : ∀ i, i ∉ ls id → i ∉ l →
      t'.listId i = t.listId i ∧ t'.next i = t.next i ∧ t'.prev i = t.prev i) :
    (t'.putList id ⟨(t.list id).listId, first, last, l.length⟩).Lists
      (Function.update ls id l) := by
  refine h.change hid ((t'.putList_used id _).trans hsize.used) ?_ ?_ ?_ ?_ ?_ ?_ ?_
  · intro id' hid' hne
    rw [t'.putList_of_ne id _ hid hid' hne, hlist]
  · rw [putList_self]
    exact h.header id hid
  · rw [putList_self]
  · rw [putList_self, putList_next, putList_prev]
    exact hdlist
  · intro i hi
    rw [putList_listId]
    exact hin i hi
  · intro i hi hni
    rw [putList_listId, putList_next, putList_prev]
    exact hout i hi hni
  · intro i hi hni
    rw [putList_listId, putList_next, putList_prev]
    exact hrest i hi hni

end LinkedTable

abbrev FProg (ε α : Type) := Prog Panic FrameMem ε α

namespace FrameLists

variable {ε : Type}

/-- `try_into().unwrap()` to a `u32`. -/
def toU32 (n : Nat) : FProg ε Nat := if n < 2 ^ 32 then pure n else Prog.panic .unwrapNone

def modifyTable (f : LinkedTable → LinkedTable) : FProg ε Unit :=
  Prog.modify fun m => { m with table := f m.table }

/-- `frame_from_ref`. -/
def frameFromRef (frameRef : Nat) : FProg ε Nat := do
  let capacity ← toU32 (← Prog.gets fun m => m.table.capacity)
  Prog.assert .assertionFailed (frameRef < capacity)
  pure frameRef

/-- `ref_from_frame`. -/
def refFromFrame (frame : Nat) : FProg ε Nat := do
  let used ← Prog.gets fun m => m.table.used
  Prog.assert .assertionFailed (frame < used)
  toU32 frame

/-- The copy of a list's header. -/
def getList (id : ListID) : FProg ε FrameList :=
  if id = .noList then Prog.panic .assertionFailed else Prog.gets fun m => m.table.list id

def popFront (id : ListID) : FProg ε (Option Nat) := do
  let list ← getList id
  match list.first with
  | none => pure none
  | some first =>
    let head ← frameFromRef first
    let headNext ← Prog.gets fun m => m.table.next head
    let last ←
      if list.last = list.first then do
        Prog.assert .assertionFailed (headNext = none)
        pure none
      else do
        let next ← frameFromRef (← headNext |> Prog.unwrap .unwrapNone)
        modifyTable fun t => t.setPrev next none
        pure list.last
    let headNext ← Prog.gets fun m => m.table.next head
    Prog.assert .assertionFailed ((← Prog.gets fun m => m.table.prev head) = none)
    modifyTable fun t => ((t.setNext head none).setListId head .noList).setPrev head none
    let length ← subU list.length 1
    modifyTable fun t => t.putList id { list with first := headNext, last := last, length := length }
    pure (some head)

/-- The assertions on a frame that is put into a list. -/
def assertLoose (frame : Nat) : FProg ε Unit := do
  let t ← Prog.gets FrameMem.table
  Prog.assert .assertionFailed (t.listId frame = .noList)
  Prog.assert .assertionFailed (t.next frame = none)
  Prog.assert .assertionFailed (t.prev frame = none)

def pushFront (id : ListID) (frame : Nat) : FProg ε Unit := do
  assertLoose frame
  let list ← getList id
  let frameRef ← refFromFrame frame
  let last := if list.last = none then some frameRef else list.last
  modifyTable fun t => t.setNext frame list.first
  match ← Prog.gets fun m => m.table.next frame with
  | some nextRef =>
    let nextFrame ← frameFromRef nextRef
    modifyTable fun t => t.setPrev nextFrame (some frameRef)
  | none => pure ()
  let length ← addU list.length 1
  modifyTable fun t => (t.setListId frame list.listId).putList id
    { list with first := some frameRef, last := last, length := length }

def pushBack (id : ListID) (frame : Nat) : FProg ε Unit := do
  assertLoose frame
  let list ← getList id
  let frameRef ← refFromFrame frame
  match list.last with
  | some lastRef =>
    let lastFrame ← frameFromRef lastRef
    modifyTable fun t => ((t.setNext lastFrame (some frameRef)).setPrev frame list.last).setListId
      frame list.listId
    let length ← addU list.length 1
    modifyTable fun t => t.putList id { list with last := some frameRef, length := length }
  | none => pushFront id frame

def removeFrame (id : ListID) (frame : Nat) : FProg ε Unit := do
  let list ← getList id
  Prog.assert .assertionFailed ((← Prog.gets fun m => m.table.listId frame) = list.listId)
  let list ← match ← Prog.gets fun m => m.table.prev frame with
    | none => do
      let next ← Prog.gets fun m => m.table.next frame
      pure { list with first := next }
    | some prevRef => do
      let prevFrame ← frameFromRef prevRef
      modifyTable fun t => t.setNext prevFrame (t.next frame)
      pure list
  let list ← match ← Prog.gets fun m => m.table.next frame with
    | none => do
      let prev ← Prog.gets fun m => m.table.prev frame
      pure { list with last := prev }
    | some nextRef => do
      let nextFrame ← frameFromRef nextRef
      modifyTable fun t => t.setPrev nextFrame (t.prev frame)
      pure list
  let length ← subU list.length 1
  modifyTable fun t => ((t.setListId frame .noList).setPrev frame none).setNext frame none
  modifyTable fun t => t.putList id { list with length := length }

def allocFrameAt (vaddr : Nat) : FProg Sel4Error Slot :=
  Prog.zoom FrameMem.res (fun m r => { m with res := r }) (RootServer.allocFrameAt vaddr)

def bumpCapacity : FProg Sel4Error Unit := do
  let byteLength ← Prog.gets fun m => m.table.byteLength
  let _ ← allocFrameAt (frameTableVaddr + byteLength)
  modifyTable fun t =>
    { t with
      byteLength := t.byteLength + pageSize4K
      capacity := (t.byteLength + pageSize4K) / frameSize }

/-- `frame_data`, as an address. -/
def frameData (frameRef : Nat) : FProg ε Nat := do
  let capacity ← toU32 (← Prog.gets fun m => m.table.capacity)
  Prog.assert .assertionFailed (frameRef < capacity)
  pure (frameDataAddr frameRef)

def allocFreshFrame : FProg Sel4Error Nat := do
  let t ← Prog.gets FrameMem.table
  Prog.assert .assertionFailed (t.used ≤ t.capacity)
  if t.used = t.capacity then
    bumpCapacity
  let t ← Prog.gets FrameMem.table
  Prog.assert .assertionFailed (t.used < t.capacity)
  let frame ← frameFromRef (← toU32 t.used)
  modifyTable fun t => { t with used := t.used + 1 }
  let vaddr ← frameData (← refFromFrame frame)
  let frameCap ← (allocFrameAt vaddr).catchErr fun e => do
    modifyTable fun t => { t with used := t.used - 1 }
    Prog.fail e
  modifyTable fun t => (((t.setCap frame frameCap).setListId frame .noList).setPrev frame
    none).setNext frame none
  pure frame

def allocFrame : FProg Unit Nat := do
  let frame ← match ← popFront .freeList with
    | some frame => pure frame
    | none => allocFreshFrame.catchErr fun _ => Prog.fail ()
  pushBack .allocatedList frame
  refFromFrame frame

def freeFrame (frameRef : Nat) : FProg ε Unit := do
  let frame ← frameFromRef frameRef
  removeFrame .allocatedList frame
  pushFront .freeList frame

/-! ## What each list operation does -/

open LinkedTable

variable {m : FrameMem} {ls : ListID → List Nat} {id : ListID} {x : Nat}

theorem toU32_ok (h : x < 2 ^ 32) : (toU32 x : FProg ε Nat) m = .ok x m := by
  unfold toU32
  rw [if_pos h]
  rfl

theorem frameFromRef_ok (hs : m.table.Sized) (h : x < m.table.capacity) :
    (frameFromRef x : FProg ε Nat) m = .ok x m := by
  have hu : (toU32 m.table.capacity : FProg ε Nat) m = .ok m.table.capacity m :=
    toU32_ok hs.capacity
  refine Prog.eq_ok_of_wp ?_
  simp only [frameFromRef, Prog.wp_bind, Prog.wp_gets, Prog.wp_of_ok hu, Prog.wp_assert,
    Prog.wp_pure]
  simp [h]

theorem refFromFrame_ok (hs : m.table.Sized) (h : x < m.table.used) :
    (refFromFrame x : FProg ε Nat) m = .ok x m := by
  have hu : (toU32 x : FProg ε Nat) m = .ok x m :=
    toU32_ok (Nat.lt_trans (Nat.lt_of_lt_of_le h hs.used) hs.capacity)
  refine Prog.eq_ok_of_wp ?_
  simp only [refFromFrame, Prog.wp_bind, Prog.wp_gets, Prog.wp_assert, Prog.wp_of_ok hu]
  simp [h]

theorem getList_ok (hid : id ≠ .noList) :
    (getList id : FProg ε FrameList) m = .ok (m.table.list id) m := by
  unfold getList
  rw [if_neg hid]
  rfl

theorem assertLoose_ok (hl : m.table.Lists ls) (h : x < m.table.used)
    (hx : m.table.listId x = .noList) : (assertLoose x : FProg ε Unit) m = .ok () m := by
  obtain ⟨hn, hp⟩ := hl.loose x h hx
  refine Prog.eq_ok_of_wp ?_
  simp only [assertLoose, Prog.wp_bind, Prog.wp_gets, Prog.wp_assert]
  simp [hx, hn, hp]

/-- A frame has gone to another list, and `id` is `l` now. -/
structure Relinked (m m' : FrameMem) (ls : ListID → List Nat) (id : ListID) (l : List Nat)
    (x : Nat) (target : ListID) : Prop where
  res : m'.res = m.res
  size : SameSize m.table m'.table
  lists : m'.table.Lists (Function.update ls id l)
  listId : m'.table.listId = Function.update m.table.listId x target

/-- A frame has left its list. -/
theorem relinked_take {t' : LinkedTable} {xs ys : List Nat} (hl : m.table.Lists ls)
    (hid : id ≠ .noList) (hls : ls id = xs ++ x :: ys) (hsize : SameSize m.table t')
    (hlist : ∀ id, t'.list id = m.table.list id)
    (hnext : t'.next = Function.update (setAt m.table.next xs.getLast? ys.head?) x none)
    (hprev : t'.prev = Function.update (setAt m.table.prev ys.head? xs.getLast?) x none)
    (hlistId : t'.listId = Function.update m.table.listId x .noList) :
    Relinked m
      { m with
        table := t'.putList id
          ⟨(m.table.list id).listId, (xs ++ ys).head?, (xs ++ ys).getLast?, (xs ++ ys).length⟩ }
      ls id (xs ++ ys) x .noList := by
  have hd := hl.dlist id hid
  rw [hls] at hd
  have hmem := hl.mem id hid
  rw [hls] at hmem
  refine ⟨rfl, hsize.putList id _, hl.writeBack hid hlist hsize ?_ ?_ ?_ ?_,
    (t'.putList_listId id _).trans hlistId⟩
  · rw [hnext, hprev]
    exact hd.remove
  · intro i hi
    have hix : i ≠ x := by
      rintro rfl
      exact hd.notMem hi
    have hi' : i ∈ xs ++ x :: ys := by
      simp only [List.mem_append, List.mem_cons] at hi ⊢
      tauto
    obtain ⟨hused, hold⟩ := (hmem i).mp hi'
    rw [hlistId, Function.update_of_ne hix]
    exact ⟨hused, hold, .inl hold⟩
  · intro i hi hni
    rw [hls] at hi
    have hix : i = x := by
      simp only [List.mem_append, List.mem_cons] at hi hni
      tauto
    rw [hix, hlistId, hnext, hprev]
    simp
  · intro i hi hni
    rw [hls] at hi
    have hix : i ≠ x := fun heq => hi (by simp [heq])
    have hxs : xs.getLast? ≠ some i := Dlist.getLast?_ne fun hm => hi (by simp [hm])
    have hys : ys.head? ≠ some i := Dlist.head?_ne fun hm => hi (by simp [hm])
    rw [hlistId, hnext, hprev, Function.update_of_ne hix, Function.update_of_ne hix,
      Function.update_of_ne hix, setAt_of_ne hxs, setAt_of_ne hys]
    exact ⟨rfl, rfl, rfl⟩

/-- `pop_front` takes the first frame of the list. -/
theorem popFront_spec (hl : m.table.Lists ls) (hs : m.table.Sized) (hid : id ≠ .noList) :
    (popFront id : FProg ε (Option Nat)).wp
      (fun o m' => match ls id with
        | [] => o = none ∧ m' = m
        | x :: xs => o = some x ∧ Relinked m m' ls id xs x .noList)
      (fun _ _ => False) (fun _ => False) m := by
  have hd := hl.dlist id hid
  have hlen := hl.length id hid
  simp only [popFront, Prog.wp_bind, Prog.wp_of_ok (getList_ok hid)]
  cases hls : ls id with
  | nil =>
    rw [hls] at hd
    rw [hd.first]
    exact ⟨rfl, rfl⟩
  | cons x xs =>
    rw [hls] at hd hlen
    have hmem : ∀ y ∈ x :: xs, y < m.table.capacity := fun y hy =>
      Nat.lt_of_lt_of_le ((hl.mem id hid y).mp (hls ▸ hy)).1 hs.used
    have hx : (frameFromRef x : FProg ε Nat) m = .ok x m :=
      frameFromRef_ok hs (hmem x List.mem_cons_self)
    have hd' : Dlist m.table.next m.table.prev (m.table.list id).first (m.table.list id).last
      ([] ++ x :: xs) := hd
    have hls' : ls id = [] ++ x :: xs := hls
    have hnext : m.table.next x = xs.head? := hd'.next_eq
    have hprev : m.table.prev x = none := hd'.prev_eq
    have hfirst : (m.table.list id).first = some x := hd.first
    rw [hfirst]
    simp only [Prog.wp_of_ok hx, Prog.wp_bind, Prog.wp_gets]
    cases xs with
    | nil =>
      have hlast : (m.table.list id).last = some x := hd.last
      rw [if_pos hlast]
      simp only [modifyTable, Prog.wp_bind, Prog.wp_assert, Prog.wp_pure, Prog.wp_gets,
        Prog.wp_modify, wp_subU, hnext, hprev, hlen, List.head?_nil, decide_true,
        Bool.true_eq_false, false_implies, and_true, List.length_singleton, Nat.sub_self,
        Nat.le_refl, not_true_eq_false, true_implies, true_and]
      exact relinked_take hl hid hls' ⟨rfl, rfl, rfl⟩ (by simp)
        (by simp [setAt]) (by simp [setAt]) (by simp)
    | cons y ys =>
      have hlast : (m.table.list id).last ≠ some x := by
        rw [hd.last, List.getLast?_cons_cons]
        exact Dlist.getLast?_ne (List.nodup_cons.mp hd.nodup).1
      have hxy : x ≠ y := by
        rintro rfl
        exact (List.nodup_cons.mp hd.nodup).1 List.mem_cons_self
      have hy : (frameFromRef y : FProg ε Nat) m = .ok y m :=
        frameFromRef_ok hs (hmem y (by simp))
      rw [if_neg hlast, hd.last]
      simp only [modifyTable, Prog.wp_bind, Prog.wp_assert, Prog.wp_pure, Prog.wp_gets,
        Prog.wp_modify, wp_subU, hnext, List.head?_cons, Prog.wp_unwrap]
      refine ⟨fun z hz => ?_, fun h => absurd h (by simp)⟩
      obtain rfl : y = z := Option.some.inj hz
      simp only [Prog.wp_of_ok hy, setPrev_prev, setPrev_next, hnext, hlen, hprev,
        Function.update_of_ne hxy, decide_true, Bool.true_eq_false, false_implies, and_true,
        List.length_cons, Nat.le_add_left, not_true_eq_false, true_implies, true_and,
        List.head?_cons, Nat.add_one_sub_one, List.getLast?_cons_cons]
      exact relinked_take hl hid hls' ⟨rfl, rfl, rfl⟩ (by simp)
        (by simp [setAt]) (by simp [setAt]) (by simp)

/-- The end of `remove_frame`, once the neighbours are linked. -/
theorem removeTail_spec {t : LinkedTable} {xs ys : List Nat} {first last : Option Nat}
    (hl : m.table.Lists ls) (hid : id ≠ .noList) (hls : ls id = xs ++ x :: ys)
    (hsize : SameSize m.table t) (hlist : ∀ id, t.list id = m.table.list id)
    (hnext : t.next = setAt m.table.next xs.getLast? ys.head?)
    (hprev : t.prev = setAt m.table.prev ys.head? xs.getLast?)
    (hlistId : t.listId = m.table.listId) (hfirst : first = (xs ++ ys).head?)
    (hlast : last = (xs ++ ys).getLast?) :
    (do
      let length ← subU (m.table.list id).length 1
      modifyTable fun t => ((t.setListId x .noList).setPrev x none).setNext x none
      modifyTable fun t => t.putList id ⟨(m.table.list id).listId, first, last, length⟩
      : FProg ε Unit).wp (fun _ m' => Relinked m m' ls id (xs ++ ys) x .noList)
      (fun _ _ => False) (fun _ => False) { m with table := t } := by
  have hlen : (m.table.list id).length = (xs ++ ys).length + 1 := by
    rw [hl.length id hid, hls]
    simp
    omega
  rw [hlen, hfirst, hlast]
  simp only [modifyTable, Prog.wp_bind, wp_subU, Prog.wp_modify]
  refine ⟨fun _ => ?_, fun h => h (Nat.le_add_left 1 _)⟩
  refine relinked_take hl hid hls ?_ (fun id => ?_) ?_ ?_ ?_
  · exact ⟨hsize.capacity, hsize.used, hsize.byteLength⟩
  · simp [hlist]
  · simp [hnext]
  · simp [hprev]
  · simp [hlistId]

/-- `remove_frame` takes a frame out of its list. -/
theorem removeFrame_spec {xs ys : List Nat} (hl : m.table.Lists ls) (hs : m.table.Sized)
    (hid : id ≠ .noList) (hls : ls id = xs ++ x :: ys) :
    (removeFrame id x : FProg ε Unit).wp
      (fun _ m' => Relinked m m' ls id (xs ++ ys) x .noList)
      (fun _ _ => False) (fun _ => False) m := by
  have hd := hl.dlist id hid
  rw [hls] at hd
  have hmem : ∀ y ∈ xs ++ x :: ys, y < m.table.used ∧ m.table.listId y = id := fun y hy =>
    (hl.mem id hid y).mp (hls ▸ hy)
  have hcap : ∀ y ∈ xs ++ x :: ys, y < m.table.capacity := fun y hy =>
    Nat.lt_of_lt_of_le (hmem y hy).1 hs.used
  have hnext : m.table.next x = ys.head? := hd.next_eq
  have hprev : m.table.prev x = xs.getLast? := hd.prev_eq
  have hlistId : m.table.listId x = (m.table.list id).listId := by
    rw [hl.header id hid]
    exact (hmem x (by simp)).2
  simp only [removeFrame, Prog.wp_bind, Prog.wp_of_ok (getList_ok hid), Prog.wp_gets,
    Prog.wp_assert, hlistId, hprev, decide_true, true_implies, Bool.true_eq_false,
    false_implies, and_true]
  have hfirst : xs ≠ [] → (m.table.list id).first = (xs ++ ys).head? := by
    intro hne
    rw [hd.first, List.head?_append_of_ne_nil _ hne, List.head?_append_of_ne_nil _ hne]
  have hlast : ys ≠ [] → (m.table.list id).last = (xs ++ ys).getLast? := by
    intro hne
    obtain ⟨y, ys, rfl⟩ := List.exists_cons_of_ne_nil hne
    rw [hd.last, List.getLast?_append, List.getLast?_append, List.getLast?_cons_cons]
  cases hp : xs.getLast? with
  | none =>
    obtain rfl : xs = [] := List.getLast?_eq_none_iff.mp hp
    simp only [Prog.wp_bind, Prog.wp_gets, Prog.wp_pure, hnext]
    cases hn : ys.head? with
    | none =>
      obtain rfl : ys = [] := List.head?_eq_none_iff.mp hn
      have htail : (_ : FProg ε Unit).wp _ _ _ _ :=
        removeTail_spec hl hid hls (.refl _) (fun _ => rfl) rfl rfl rfl rfl rfl
      simp only [Prog.wp_bind] at htail
      simp only [Prog.wp_bind, Prog.wp_gets, Prog.wp_pure, hprev]
      exact htail
    | some y =>
      have hne : ys ≠ [] := by
        rintro rfl
        simp at hn
      have hy : (frameFromRef y : FProg ε Nat) m = .ok y m :=
        frameFromRef_ok hs (hcap y (by simp [List.mem_of_head? hn]))
      have htail : (_ : FProg ε Unit).wp _ _ _ { m with table := m.table.setPrev y none } :=
        removeTail_spec hl hid hls ⟨rfl, rfl, rfl⟩ (by simp) (by simp [setAt])
          (by simp [hn, setAt]) (by simp) hn.symm (hlast hne)
      simp only [Prog.wp_bind] at htail
      simp only [Prog.wp_bind, Prog.wp_of_ok hy, modifyTable, Prog.wp_modify, Prog.wp_pure, hprev,
        List.getLast?_nil]
      exact htail
  | some p =>
    have hne : xs ≠ [] := by
      rintro rfl
      simp at hp
    have hpx : x ≠ p := by
      rintro rfl
      exact hd.notMem (List.mem_append_left ys (List.mem_of_getLast? hp))
    have hpref : (frameFromRef p : FProg ε Nat) m = .ok p m :=
      frameFromRef_ok hs (hcap p (by simp [List.mem_of_getLast? hp]))
    simp only [Prog.wp_bind, Prog.wp_of_ok hpref, modifyTable, Prog.wp_modify, Prog.wp_pure,
      Prog.wp_gets, setNext_next, Function.update_of_ne hpx, hnext]
    cases hn : ys.head? with
    | none =>
      obtain rfl : ys = [] := List.head?_eq_none_iff.mp hn
      have htail : (_ : FProg ε Unit).wp _ _ _ { m with table := m.table.setNext p none } :=
        removeTail_spec hl hid hls ⟨rfl, rfl, rfl⟩ (by simp) (by simp [hp, setAt])
          (by simp [setAt]) (by simp) (hfirst hne) (congrArg _ (List.append_nil xs).symm)
      simp only [Prog.wp_bind] at htail
      simp only [Prog.wp_bind, Prog.wp_gets, Prog.wp_pure, setNext_prev, hprev]
      exact htail
    | some y =>
      have hne' : ys ≠ [] := by
        rintro rfl
        simp at hn
      have hy : (frameFromRef y : FProg ε Nat)
          { m with table := m.table.setNext p (some y) } = .ok y _ :=
        frameFromRef_ok ⟨hs.used, hs.capacity⟩ (hcap y (by simp [List.mem_of_head? hn]))
      have htail : (_ : FProg ε Unit).wp _ _ _
          { m with table := (m.table.setNext p (some y)).setPrev y (some p) } :=
        removeTail_spec hl hid hls ⟨rfl, rfl, rfl⟩ (by simp) (by simp [hp, hn, setAt])
          (by simp [hp, hn, setAt]) (by simp) (hfirst hne) (hlast hne')
      simp only [Prog.wp_bind] at htail
      simp only [Prog.wp_bind, Prog.wp_of_ok hy, Prog.wp_modify, Prog.wp_pure, setNext_prev,
        hprev, hp]
      exact htail

/-- A frame has joined a list. -/
theorem relinked_put {t' : LinkedTable} {l : List Nat} {first last : Option Nat}
    (hl : m.table.Lists ls) (hid : id ≠ .noList) (hx : x < m.table.used)
    (hloose : m.table.listId x = .noList) (hsize : SameSize m.table t')
    (hlist : ∀ id, t'.list id = m.table.list id) (hdlist : Dlist t'.next t'.prev first last l)
    (hmem : ∀ i, i ∈ l ↔ i = x ∨ i ∈ ls id)
    (hlinks : ∀ i, i ∉ l → t'.next i = m.table.next i ∧ t'.prev i = m.table.prev i)
    (hlistId : t'.listId = Function.update m.table.listId x id) :
    Relinked m
      { m with table := t'.putList id ⟨(m.table.list id).listId, first, last, l.length⟩ }
      ls id l x id := by
  refine ⟨rfl, hsize.putList id _, hl.writeBack hid hlist hsize hdlist ?_ ?_ ?_,
    (t'.putList_listId id _).trans hlistId⟩
  · intro i hi
    rw [hlistId]
    obtain rfl | hi := (hmem i).mp hi
    · exact ⟨hx, Function.update_self _ _ _, .inr hloose⟩
    · obtain ⟨hused, hold⟩ := (hl.mem id hid i).mp hi
      have hix : i ≠ x := by
        rintro rfl
        exact hid (hold.symm.trans hloose)
      rw [Function.update_of_ne hix]
      exact ⟨hused, hold, .inl hold⟩
  · intro i hi hni
    exact absurd ((hmem i).mpr (.inr hi)) hni
  · intro i _ hni
    have hix : i ≠ x := fun heq => hni ((hmem i).mpr (.inl heq))
    rw [hlistId, Function.update_of_ne hix]
    exact ⟨rfl, hlinks i hni⟩

/-- `push_front` puts a loose frame in front. -/
theorem pushFront_spec (hl : m.table.Lists ls) (hs : m.table.Sized) (hid : id ≠ .noList)
    (hx : x < m.table.used) (hloose : m.table.listId x = .noList)
    (hlen : (ls id).length < 2 ^ 32) :
    (pushFront id x : FProg ε Unit).wp (fun _ m' => Relinked m m' ls id (x :: ls id) x id)
      (fun _ _ => False) (fun _ => False) m := by
  have hd := hl.dlist id hid
  have hxn : x ∉ ls id := fun hm => hid (((hl.mem id hid x).mp hm).2.symm.trans hloose)
  obtain ⟨hnext, hprev⟩ := hl.loose x hx hloose
  simp only [pushFront, Prog.wp_bind, Prog.wp_of_ok (assertLoose_ok hl hx hloose),
    Prog.wp_of_ok (getList_ok hid), Prog.wp_of_ok (refFromFrame_ok hs hx), modifyTable,
    Prog.wp_modify, Prog.wp_gets, setNext_next, Function.update_self, hl.length id hid]
  have hroom : (ls id).length + 1 < usizeBound := by
    unfold usizeBound
    omega
  have hput := hd.pushFront hxn hprev
  have hmem : ∀ i, i ∈ x :: ls id ↔ i = x ∨ i ∈ ls id := fun i => List.mem_cons
  have hlen' : (ls id).length + 1 = (x :: ls id).length := rfl
  cases hls : ls id with
  | nil =>
    rw [hls] at hd hput hroom hmem hlen'
    rw [hd.first, hd.last]
    simp only [List.head?_nil, List.getLast?_nil, if_true, Prog.wp_bind, wp_addU, Prog.wp_modify]
    refine ⟨fun _ => ?_, fun h => h hroom⟩
    rw [hlen']
    refine relinked_put hl hid hx hloose ?_ (fun id => ?_) ?_ ?_ ?_ ?_
    · exact ⟨rfl, rfl, rfl⟩
    · simp
    · simpa [setAt] using hput
    · rw [hls]
      exact hmem
    · intro i hi
      have hix : i ≠ x := fun heq => hi (by simp [heq])
      simp [hix]
    · simp [hl.header id hid]
  | cons y ys =>
    rw [hls] at hd hput hroom hmem hlen'
    have hy : y < m.table.used := ((hl.mem id hid y).mp (by simp [hls])).1
    rw [hd.first]
    simp only [List.head?_cons, Prog.wp_bind]
    have hyref : (frameFromRef y : FProg ε Nat)
        { m with table := m.table.setNext x (some y) } = .ok y _ :=
      frameFromRef_ok ⟨hs.used, hs.capacity⟩ (Nat.lt_of_lt_of_le hy hs.used)
    rw [Prog.wp_of_ok hyref]
    simp only [Prog.wp_modify, wp_addU]
    refine ⟨fun _ => ?_, fun h => h hroom⟩
    rw [hlen']
    refine relinked_put hl hid hx hloose ?_ (fun id => ?_) ?_ ?_ ?_ ?_
    · exact ⟨rfl, rfl, rfl⟩
    · simp
    · simpa [hd.last, setAt] using hput
    · rw [hls]
      exact hmem
    · intro i hi
      have hix : i ≠ x := fun heq => hi (by simp [heq])
      have hiy : i ≠ y := fun heq => hi (by simp [heq])
      simp [hix, hiy]
    · simp [hl.header id hid]

/-- `push_back` puts a loose frame behind. -/
theorem pushBack_spec (hl : m.table.Lists ls) (hs : m.table.Sized) (hid : id ≠ .noList)
    (hx : x < m.table.used) (hloose : m.table.listId x = .noList)
    (hlen : (ls id).length < 2 ^ 32) :
    (pushBack id x : FProg ε Unit).wp (fun _ m' => Relinked m m' ls id (ls id ++ [x]) x id)
      (fun _ _ => False) (fun _ => False) m := by
  have hd := hl.dlist id hid
  have hxn : x ∉ ls id := fun hm => hid (((hl.mem id hid x).mp hm).2.symm.trans hloose)
  obtain ⟨hnext, hprev⟩ := hl.loose x hx hloose
  simp only [pushBack, Prog.wp_bind, Prog.wp_of_ok (assertLoose_ok hl hx hloose),
    Prog.wp_of_ok (getList_ok hid), Prog.wp_of_ok (refFromFrame_ok hs hx)]
  have hroom : (ls id).length + 1 < usizeBound := by
    unfold usizeBound
    omega
  rw [hd.last]
  cases hlast : (ls id).getLast? with
  | none =>
    have hls : ls id = [] := List.getLast?_eq_none_iff.mp hlast
    have hfront : (pushFront id x : FProg ε Unit).wp _ _ _ m :=
      pushFront_spec hl hs hid hx hloose hlen
    rw [hls] at hfront ⊢
    exact hfront
  | some y =>
    have hy : y < m.table.used := ((hl.mem id hid y).mp (List.mem_of_getLast? hlast)).1
    have hyref : (frameFromRef y : FProg ε Nat) m = .ok y m :=
      frameFromRef_ok hs (Nat.lt_of_lt_of_le hy hs.used)
    have hput := hd.pushBack hxn hnext
    simp only [Prog.wp_bind, Prog.wp_of_ok hyref, modifyTable, Prog.wp_modify, wp_addU,
      hl.length id hid]
    refine ⟨fun _ => ?_, fun h => h hroom⟩
    have hlen' : (ls id).length + 1 = (ls id ++ [x]).length := by simp
    have hfirst : (m.table.list id).first = (ls id ++ [x]).head? := by
      rw [hd.first]
      cases hls : ls id with
      | nil => simp [hls] at hlast
      | cons z zs => rfl
    rw [hlen']
    refine relinked_put hl hid hx hloose ?_ (fun id => ?_) ?_ (fun i => ?_)
      (fun i hi => ?_) ?_
    · exact ⟨rfl, rfl, rfl⟩
    · simp
    · rw [hfirst]
      simpa [hlast, setAt] using hput
    · simp [or_comm]
    · have hix : i ≠ x := fun heq => hi (by simp [heq])
      have hiy : i ≠ y := fun heq => hi (by simp [heq, List.mem_of_getLast? hlast])
      simp [hix, hiy]
    · simp [hl.header id hid]

end FrameLists

end Smos.RootServer
