/-
Smos.RootServer.FrameOwners — whose a frame is.

Frames of the frame table go to objects, page by page, and to processes, for
the IPC buffer and the shared buffer. They come back when an object is
destroyed and when a process has been loaded; the walk over an object's table
hands every reference it finds to `free_frame`. `Owning` is the custody behind
this: every frame is once in a list of the table, and what the live owners
have is given out, once, to them.

An object is kept by a handle, by an initial window or as the ring of a
server. Nothing keeps an object twice (`Places.one`), so an object that is
destroyed is kept by nothing any more. The frames of device and contiguous
objects are no frames of the table, and their references mean nothing; such
objects are left out here.
-/
import Smos.Base.Custody
import Smos.RootServer.LiveViews

namespace Smos.RootServer

open Smos.Base

/-! ## Owners -/

inductive FrameOwner where
  | object (o : ObjectRef)
  | process (p : Nat)
  deriving DecidableEq

/-- The references in the table of an object, the way `cleanup_frame_table` meets them. -/
def AnonymousMemoryObject.refs (x : AnonymousMemoryObject) : List Nat :=
  x.frames.values.map ObjectFrame.frameRef

/-- The object takes its frames from the frame table. -/
def AnonymousMemoryObject.Ordinary (x : AnonymousMemoryObject) : Prop :=
  x.attributes.device = false ∧ x.attributes.contiguous = false

instance (x : AnonymousMemoryObject) : Decidable x.Ordinary := inferInstanceAs (Decidable (_ ∧ _))

/-- The frames a process has for itself. -/
def ProcessType.refs : ProcessType → List Nat
  | .activeProcess u => [u.ipcBuffer.2, u.sharedBuffer.2]
  | .zombieProcess _ => []

namespace State

def frameRefs (s : State) : FrameOwner → List Nat
  | .object o => (s.objects o).refs
  | .process p => (s.procCells p).refs

/-- The owner's frames are frames of the table. -/
def Ordinary (s : State) : FrameOwner → Prop
  | .object o => (s.objects o).Ordinary
  | .process _ => True

end State

/-- The frames that the table has made are in its two lists, and the live owners have some of
those given out. -/
structure Owning (live : FrameOwner → Prop) (s : State) : Prop where
  custody : Custody (List.range s.res.frameTable.used) s.res.frameTable.free
    s.res.frameTable.allocated live s.frameRefs

namespace Owning

variable {live live' : FrameOwner → Prop} {s s' : State}

/-- Owners may be forgotten, as long as the lists of the table stay as they are. -/
theorem still (h : Owning live s) (ht : SameFrames s.res.frameTable s'.res.frameTable)
    (hlive : ∀ i, live' i → live i) (hrefs : ∀ i, live' i → s'.frameRefs i = s.frameRefs i) :
    Owning live' s' where
  custody := by
    rw [ht.free, ht.allocated, ht.used]
    exact h.custody.less hlive hrefs

theorem less (h : Owning live s) (hlive : ∀ i, live' i → live i) : Owning live' s :=
  h.still ⟨rfl, rfl, rfl, rfl⟩ hlive fun _ _ => rfl

/-- A new owner has no frames yet. -/
theorem enter (h : Owning live s) {i : FrameOwner} (hi : s.frameRefs i = []) :
    Owning (fun j => live j ∨ j = i) s := ⟨h.custody.enter hi⟩

/-- A frame is taken from the table and entered in an object. -/
theorem insertFrame (h : Owning live s) {o : ObjectRef} {offset f : Nat} {c : Slot} {r : Res}
    {object : AnonymousMemoryObject} (halloc : FrameAllocated s.res f r)
    (hins : (s.objects o).insertFrameAt offset ⟨c, f⟩ = .ok object) :
    Owning live { s with res := r, objects := s.objects.update o fun _ => object } := by
  obtain ⟨t, ht, rfl⟩ := insertFrameAt_ok hins
  obtain ⟨hperm, -, -, -⟩ := insertAt_ok ht
  have hself : (State.frameRefs { s with
      res := r
      objects := s.objects.update o fun _ => { s.objects o with frames := t } }
      (.object o)).Perm (f :: s.frameRefs (.object o)) := by
    simp only [State.frameRefs, Heap.update_self]
    exact hperm.map ObjectFrame.frameRef
  have hother : ∀ i, i ≠ .object o → State.frameRefs { s with
      res := r
      objects := s.objects.update o fun _ => { s.objects o with frames := t } } i =
        s.frameRefs i := by
    intro i hne
    cases i with
    | object o' =>
      have ho : o' ≠ o := fun heq => hne (heq ▸ rfl)
      simp only [State.frameRefs, Heap.update_of_ne _ ho]
    | process p => rfl
  cases halloc with
  | recycled rest hfree =>
    have hcustody := h.custody
    rw [hfree] at hcustody
    exact ⟨hcustody.take hself hother⟩
  | fresh _ c' obj hfree href _ _ hfree' hallocated hused =>
    have hnew : f ∉ List.range s.res.frameTable.used := fun hf =>
      Nat.lt_irrefl _ (href ▸ List.mem_range.mp hf)
    have hrange : List.range s.res.frameTable.used ++ [f] = List.range r.frameTable.used := by
      rw [hused, List.range_succ, href]
    have hcustody := (h.custody.made hnew).take hself hother
    rw [hrange, hfree, ← hallocated, ← hfree'] at hcustody
    exact ⟨hcustody⟩

theorem gotFrame (h : Owning live s) {o : ObjectRef} {offset : Nat} {cap : Slot}
    (hg : GotFrame o offset cap s s') : Owning live s' := by
  cases hg with
  | found => exact h
  | made f r object page _ halloc _ hins _ =>
    exact (h.insertFrame halloc hins).still ⟨rfl, rfl, rfl, rfl⟩ (fun _ hi => hi) fun _ _ => rfl

theorem eagerFilled (h : Owning live s) {o : ObjectRef} {is : List Nat}
    (hf : EagerFilled o is s s') : Owning live s' := by
  induction hf with
  | nil s => exact h
  | cons f r object alloc insert _ ih => exact ih (h.insertFrame alloc insert)

end Owning

/-! ## Giving back -/

/-- Freeing the frames of a list puts their references back, the last one first. -/
theorem Freed.lists {revoke : Bool} {fs : List ObjectFrame} {r r' : Res}
    (h : Freed revoke fs r r') :
    r'.frameTable.free = (fs.map ObjectFrame.frameRef).reverse ++ r.frameTable.free ∧
      r'.frameTable.allocated = r.frameTable.allocated.diff (fs.map ObjectFrame.frameRef) ∧
      r'.frameTable.used = r.frameTable.used := by
  induction h with
  | nil r => exact ⟨rfl, rfl, rfl⟩
  | @cons f fs r r' _ _ ih =>
    obtain ⟨hfree, hallocated, hused⟩ := ih
    refine ⟨?_, ?_, hused⟩
    · rw [hfree, List.map_cons, List.reverse_cons, List.append_assoc]
      rfl
    · rw [hallocated, List.map_cons, List.diff_cons]

theorem SlotFreed.frameTable {c : Slot} {r r' : Res} (h : SlotFreed c r r') :
    r'.frameTable = r.frameTable := by
  rw [h.eq]

theorem Cleaned.frameTable {delete : Bool} {cs : List Slot} {r r' : Res}
    (h : Cleaned delete cs r r') : r'.frameTable = r.frameTable := by
  induction h with
  | nil r => rfl
  | cons freed _ ih =>
    rw [ih, freed.frameTable]
    cases delete <;> rfl

theorem Deallocated.frameTable {x : Alloc} {r r' : Res} (h : Deallocated x r r') :
    r'.frameTable = r.frameTable := by
  obtain ⟨r₁, hf, heq⟩ := h.freed
  rw [heq]
  exact hf.frameTable

theorem SameFrames.of_eq {t t' : FrameTable} (h : t' = t) : SameFrames t t' := by
  rw [h]
  exact ⟨rfl, rfl, rfl, rfl⟩

namespace Owning

variable {live live' : FrameOwner → Prop} {s s' : State}

theorem cleaned (h : Owning live s) {delete : Bool} {cs : List Slot} {r : Res}
    (hc : Cleaned delete cs s.res r) : Owning live { s with res := r } :=
  h.still (.of_eq hc.frameTable) (fun _ hi => hi) fun _ _ => rfl

/-- What an owner that goes had is given back. -/
theorem givenBack (h : Owning live s) {i : FrameOwner} (hi : live i) {r : Res}
    (hfree : r.frameTable.free = (s.frameRefs i).reverse ++ s.res.frameTable.free)
    (hallocated : r.frameTable.allocated = s.res.frameTable.allocated.diff (s.frameRefs i))
    (hused : r.frameTable.used = s.res.frameTable.used) :
    Owning (fun j => live j ∧ j ≠ i) { s with res := r } := by
  have hcustody := h.custody.retire hi
  rw [← hfree, ← hallocated, ← hused] at hcustody
  exact ⟨hcustody⟩

theorem freed (h : Owning live s) {o : ObjectRef} {revoke : Bool} {r : Res}
    (ho : live (.object o)) (hf : Freed revoke (s.objects o).frames.values s.res r) :
    Owning (fun i => live i ∧ i ≠ .object o) { s with res := r } :=
  h.givenBack ho hf.lists.1 hf.lists.2.1 hf.lists.2.2

end Owning

end Smos.RootServer
