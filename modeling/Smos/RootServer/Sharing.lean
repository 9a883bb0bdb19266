/-
Smos.RootServer.Sharing — views of one object share its frames.

A fault and a `PageMap` look a page up in two tables, in the view's by the
offset in the window and in the object's by the offset this is translated to,
and fill the one from the other. `Coherent` relates the two: an entry of a
view is a copy of the capability that the object has at the translated offset.

Runs make windows, objects, views and servers and use them; nothing is torn
down. `handle_view` lets some offsets through that are not page aligned; the
pages of such a view are not pages of its object, and `Coherent` leaves it out.
-/
import Smos.RootServer.Boot
import Smos.RootServer.Links
import Smos.RootServer.PageTables
import Smos.RootServer.SlotsKept

namespace Smos.RootServer

open Smos.Base

/-! ## Coherence -/

/-- The object offset a view has at a window offset. -/
def View.objectOffset (v : View) (offset : Nat) : Nat := v.objOffset + (offset - v.winOffset)

/-- The offsets of a view are page aligned. -/
def View.PageAligned (v : View) : Prop :=
  v.winOffset % pageSize4K = 0 ∧ v.objOffset % pageSize4K = 0

instance (v : View) : Decidable v.PageAligned := inferInstanceAs (Decidable (_ ∧ _))

/-- The slot holds a copy of the capability of the object's frame at the offset. -/
def State.CopyOf (s : State) (c : Slot) (o : ObjectRef) (offset : Nat) : Prop :=
  ∃ f obj, (s.objects o).lookupFrame offset = some f ∧ s.res.Holds c obj ∧ s.res.Holds f.cap obj

/-- What the views of an object have of it are copies of its frames. -/
structure Coherent (s : State) : Prop where
  frame : ∀ o offset f, (s.objects o).lookupFrame offset = some f → ∃ obj, s.res.Holds f.cap obj
  entry : ∀ v o offset c, (s.views v).boundObject = some o → (s.views v).PageAligned →
    (s.views v).winOffset ≤ offset → (s.views v).lookupCap offset = some c →
    s.CopyOf c o ((s.views v).objectOffset offset)

/-- The frames that objects are given are there. -/
structure Stocked (r : Res) (dmaPages : List Slot) : Prop where
  free : ∀ f ∈ r.frameTable.free, ∃ obj, r.Holds (r.frameTable.cap f) obj
  devices : ∀ a ∈ r.deviceAllocations, ∀ f ∈ a.frames, ∃ obj, r.Holds f.1 obj
  dma : ∀ c ∈ dmaPages, ∃ obj, r.Holds c obj

/-- Every reply object is kept in one place. -/
structure RepliesApart (s : State) : Prop where
  spare : s.res.HoldsObject s.reply.1
  pending : ∀ v f, (s.views v).pendingFault = some f →
    s.res.HoldsObject f.reply.1 ∧ f.reply.1 ≠ s.reply.1
  apart : ∀ v v' f f', (s.views v).pendingFault = some f → (s.views v').pendingFault = some f' →
    v ≠ v' → f.reply.1 ≠ f'.reply.1

/-- What the turns of a run keep. -/
structure Shared (s : State) : Prop where
  coherent : Coherent s
  stocked : Stocked s.res s.dma.pages
  replies : RepliesApart s

/-- A part of a turn: the state stays coherent, the objects keep the frames they have, and the
slots what is in them, but for reply objects. -/
structure Goes (s s' : State) : Prop where
  shared : Shared s'
  frames : ∀ o offset f, (s.objects o).lookupFrame offset = some f →
    (s'.objects o).lookupFrame offset = some f
  slots : SlotsKept s.res.HoldsObject s.res s'.res

theorem Goes.trans {s s₁ s' : State} (h : Goes s s₁) (h' : Goes s₁ s') : Goes s s' where
  shared := h'.shared
  frames o offset f hf := h'.frames o offset f (h.frames o offset f hf)
  slots := h.slots.trans_objects h'.slots

theorem Shared.goes {s : State} (h : Shared s) : Goes s s := ⟨h, fun _ _ _ hf => hf, .refl _ _⟩

/-! ## Each kind of change -/

/-- What of a view says which entries it has, and of which object. -/
def View.shape (v : View) : Option ObjectRef × Nat × Nat × PageTable Slot :=
  (v.boundObject, v.winOffset, v.objOffset, v.caps)

/-- A new view has no entries. -/
structure View.Fresh (v : View) : Prop where
  caps : v.caps = Table.new
  noFault : v.pendingFault = none

theorem View.Fresh.lookupCap {v : View} (h : v.Fresh) (offset : Nat) :
    v.lookupCap offset = none := by
  unfold View.lookupCap
  rw [h.caps]
  exact Table.lookup_new _

section Stock

variable {r r' : Res} {pages : List Slot}

theorem Stocked.kept (h : Stocked r pages) (hk : SlotsKept (fun _ => False) r r')
    (hf : SameFrames r.frameTable r'.frameTable) (hd : r'.deviceAllocations = r.deviceAllocations) :
    Stocked r' pages where
  free f hmem := by
    rw [hf.free] at hmem
    rw [hf.cap]
    exact (h.free f hmem).imp fun _ hc => hk.holds id hc
  devices a ha f hmem := by
    rw [hd] at ha
    exact (h.devices a ha f hmem).imp fun _ hc => hk.holds id hc
  dma c hmem := (h.dma c hmem).imp fun _ hc => hk.holds id hc

theorem Stocked.quiet (h : Stocked r pages) (hq : Quiet r r') : Stocked r' pages :=
  h.kept (.of_grow hq.grow) (by rw [hq.frameTable]; exact ⟨rfl, rfl, rfl, rfl⟩) hq.devices

/-- An allocated frame is there, and so are the others. -/
theorem Stocked.frameAllocated {f : Nat} (h : Stocked r pages) (hf : FrameAllocated r f r') :
    Stocked r' pages ∧ ∃ obj, r'.Holds (r'.frameTable.cap f) obj := by
  have hk : SlotsKept (fun _ => False) r r' := .of_grow hf.grow
  cases hf with
  | recycled rest hfree =>
    have hmem : ∀ f' ∈ f :: rest, ∃ obj, r.Holds (r.frameTable.cap f') obj := by
      rw [← hfree]
      exact h.free
    exact ⟨⟨fun f' hf' => hmem f' (List.mem_cons_of_mem _ hf'), h.devices, h.dma⟩,
      hmem f List.mem_cons_self⟩
  | fresh _ c obj _ _ _ frame hfree' _ _ hcap hdev =>
    refine ⟨⟨?_, ?_, fun c hc => (h.dma c hc).imp fun _ hc => hk.holds id hc⟩, obj, ?_⟩
    · rw [hfree']
      exact fun _ hmem => absurd hmem List.not_mem_nil
    · rw [hdev]
      exact fun a ha x hx => (h.devices a ha x hx).imp fun _ hc => hk.holds id hc
    · rw [hcap, Function.update_self]
      exact ⟨frame.allocated, true, _, _, frame.cap⟩

end Stock

namespace Shared

variable {s s' : State}

/-- The new resources keep what is in the slots outside of `D`, which holds no frames, and
views and objects keep their tables; a view may also be new. -/
theorem kept {D : Slot → Prop} (h : Shared s) (hk : SlotsKept D s.res s'.res)
    (hD : ∀ c, D c → s.res.HoldsObject c) (hstock : Stocked s'.res s'.dma.pages)
    (hviews : ∀ v, (s'.views v).shape = (s.views v).shape ∨ (s'.views v).Fresh)
    (hobjects : ∀ o, (s'.objects o).frames = (s.objects o).frames) (hreplies : RepliesApart s') :
    Goes s s' := by
  have hold : ∀ {c obj}, s.res.Holds c obj → s'.res.Holds c obj := fun {c obj} hc =>
    hk.holds (fun hd => hc.ne_of_object (hD c hd) rfl) hc
  have hlook : ∀ o offset, (s'.objects o).lookupFrame offset = (s.objects o).lookupFrame offset := by
    intro o offset
    unfold AnonymousMemoryObject.lookupFrame
    rw [hobjects]
  refine ⟨⟨⟨?_, ?_⟩, hstock, hreplies⟩, fun o offset f hf => (hlook o offset).trans hf,
    hk.mono hD⟩
  · intro o offset f hf
    rw [hlook] at hf
    exact (h.coherent.frame o offset f hf).imp fun _ hc => hold hc
  · intro v o offset c ho ha hle hc
    rcases hviews v with hshape | hnew
    swap
    · rw [hnew.lookupCap] at hc
      cases hc
    obtain ⟨ho', hw, hb, hcaps⟩ := by simpa only [View.shape, Prod.mk.injEq] using hshape
    obtain ⟨f, obj, hf, hc, hcap⟩ := h.coherent.entry v o offset c (ho'.symm.trans ho)
      (by simpa only [View.PageAligned, hw, hb] using ha) (hw ▸ hle)
      (by simpa only [View.lookupCap, hcaps] using hc)
    refine ⟨f, obj, ?_, hold hc, hold hcap⟩
    simpa only [hlook, View.objectOffset, hw, hb] using hf

/-- The resources grow, and views keep or lose their pending faults. -/
theorem replies_kept (h : RepliesApart s) (hk : SlotsKept (fun _ => False) s.res s'.res)
    (hp : ∀ v f, (s'.views v).pendingFault = some f → (s.views v).pendingFault = some f)
    (hr : s'.reply = s.reply) : RepliesApart s' where
  spare := by
    rw [hr]
    exact hk.holdsObject id h.spare
  pending v f hf := by
    obtain ⟨hheld, hne⟩ := h.pending v f (hp v f hf)
    rw [hr]
    exact ⟨hk.holdsObject id hheld, hne⟩
  apart v v' f f' hf hf' := h.apart v v' f f' (hp v f hf) (hp v' f' hf')

theorem withRes (h : Shared s) {r : Res} (hk : SlotsKept (fun _ => False) s.res r)
    (hs : Stocked r s.dma.pages) : Goes s { s with res := r } :=
  h.kept hk (fun _ => False.elim) hs (fun _ => .inl rfl) (fun _ => rfl)
    (replies_kept h.replies hk (fun _ _ hf => hf) rfl)

/-- Nothing that matters here has changed. -/
theorem congr (h : Shared s) (hres : s'.res = s.res) (hdma : s'.dma.pages = s.dma.pages)
    (hviews : s'.views = s.views) (hobjects : ∀ o, (s'.objects o).frames = (s.objects o).frames)
    (hreply : s'.reply = s.reply) : Goes s s' := by
  have hk : SlotsKept (fun _ => False) s.res s'.res := hres ▸ .refl _ _
  refine h.kept hk (fun _ => False.elim) ?_ (fun v => .inl (by rw [hviews])) hobjects ?_
  · rw [hres, hdma]
    exact h.stocked
  · exact replies_kept h.replies hk (fun v f hf => by rwa [hviews] at hf) hreply

/-- An object is given a frame that is there. -/
theorem insertFrame (h : Shared s) {o : ObjectRef} {offset : Nat} {x : ObjectFrame}
    {object : AnonymousMemoryObject} (hheld : ∃ obj, s.res.Holds x.cap obj)
    (hins : (s.objects o).insertFrameAt offset x = .ok object) :
    Goes s { s with objects := s.objects.update o fun _ => object } := by
  obtain ⟨t, ht, rfl⟩ := insertFrameAt_ok hins
  obtain ⟨-, hself, hnone, hne⟩ := insertAt_ok ht
  have hframes : ∀ o' offset' f, (s.objects o').lookupFrame offset' = some f →
      ((s.objects.update o fun _ => { s.objects o with frames := t }) o').lookupFrame offset' =
        some f := by
    intro o' offset' f hf
    by_cases ho : o' = o
    · subst ho
      rw [Heap.update_self]
      have hpath : path offset' ≠ path offset := by
        intro heq
        have hf' : (s.objects o').frames.lookupAt offset = some f := by
          rw [← hf]
          unfold AnonymousMemoryObject.lookupFrame PageTable.lookupAt
          rw [heq]
        rw [hnone] at hf'
        cases hf'
      exact (hne offset' hpath).trans hf
    · rwa [Heap.update_of_ne _ ho]
  have hreplies := h.replies
  refine ⟨⟨⟨?_, ?_⟩, h.stocked, hreplies.spare, hreplies.pending, hreplies.apart⟩, hframes,
    .refl _ _⟩
  · intro o' offset' f hf
    by_cases ho : o' = o
    · subst ho
      simp only [Heap.update_self] at hf
      by_cases hpath : path offset' = path offset
      · have hself' : t.lookupAt offset' = some x := by
          unfold PageTable.lookupAt at hself ⊢
          rw [hpath, hself]
        cases hself'.symm.trans hf
        exact hheld
      · exact h.coherent.frame o' offset' f ((hne offset' hpath).symm.trans hf)
    · simp only [Heap.update_of_ne _ ho] at hf
      exact h.coherent.frame o' offset' f hf
  · intro v o' offset' c ho ha hle hc
    obtain ⟨f, obj, hf, hheld⟩ := h.coherent.entry v o' offset' c ho ha hle hc
    exact ⟨f, obj, hframes o' _ f hf, hheld⟩

/-- A view is given the copy of a capability: its object's, if it has an object. -/
theorem copied (h : Shared s) {v : ViewRef} {offset : Nat} {src slot : Slot} {cs : CSpace}
    {k : Kernel} {view : View} (hc : Copied v offset src s s' slot cs k view)
    (hsrc : ∀ o, (s.views v).boundObject = some o → (s.views v).winOffset ≤ offset ∧
      ∃ f, (s.objects o).lookupFrame ((s.views v).objectOffset offset) = some f ∧ src = f.cap) :
    Goes s s' := by
  obtain ⟨t, ht, hview⟩ := insertCapAt_ok hc.insert
  obtain ⟨-, hself, -, hne⟩ := insertAt_ok ht
  have hk : SlotsKept (fun _ => False) s.res { s.res with cspace := cs, kernel := k } :=
    .of_copy hc.fresh hc.allocated hc.copy
  have hs' := hc.eq
  subst hs' hview
  refine ⟨⟨⟨?_, ?_⟩, ?_, ?_⟩, fun _ _ _ hf => hf, hk.mono fun _ => False.elim⟩
  · intro o offset' f hf
    exact (h.coherent.frame o offset' f hf).imp fun _ hc => hk.holds id hc
  · intro v' o offset' c ho ha hle hlook
    have hold : s.CopyOf c o ((s.views v').objectOffset offset') → ∃ f obj,
        (s.objects o).lookupFrame ((s.views v').objectOffset offset') = some f ∧
        ({ s.res with cspace := cs, kernel := k } : Res).Holds c obj ∧
        ({ s.res with cspace := cs, kernel := k } : Res).Holds f.cap obj := by
      intro hcopy
      obtain ⟨f, obj, hf, hc', hcap⟩ := hcopy
      exact ⟨f, obj, hf, hk.holds id hc', hk.holds id hcap⟩
    by_cases hv : v' = v
    · subst hv
      simp only [Heap.update_self] at ho ha hle hlook ⊢
      by_cases hpath : path offset' = path offset
      · -- the new entry: the object has a frame at the same page
        obtain ⟨hle', f, hf, rfl⟩ := hsrc o ho
        have hslot : t.lookupAt offset' = some slot := by
          unfold PageTable.lookupAt at hself ⊢
          rw [hpath, hself]
        cases hslot.symm.trans hlook
        have hshift := path_shift ha.1 ha.2 hle hle' hpath
        obtain ⟨obj, hobj⟩ := h.coherent.frame o _ f hf
        refine ⟨f, obj, ?_, hobj.copy hc.allocated hc.copy, hk.holds id hobj⟩
        rw [← hf]
        unfold AnonymousMemoryObject.lookupFrame PageTable.lookupAt
        exact congrArg _ hshift
      · exact hold
          (h.coherent.entry v' o offset' c ho ha hle ((hne offset' hpath).symm.trans hlook))
    · simp only [Heap.update_of_ne _ hv] at ho ha hle hlook ⊢
      exact hold (h.coherent.entry v' o offset' c ho ha hle hlook)
  · exact h.stocked.kept hk ⟨rfl, rfl, rfl, rfl⟩ rfl
  · refine replies_kept h.replies hk (fun v' f hf => ?_) rfl
    by_cases hv : v' = v
    · subst hv
      simpa only [Heap.update_self] using hf
    · simpa only [Heap.update_of_ne _ hv] using hf

theorem setHandleAt (h : Shared s) (loc : HandleLoc) (x : Option RootServerResource) :
    Goes s (s.setHandleAt loc x) := by
  cases loc <;> exact h.congr rfl rfl rfl (fun _ => rfl) rfl

theorem giveHandle (h : Shared s) (p : Nat) (returnCap : Bool) (idx : Nat)
    (x : RootServerResource) : Goes s (s.giveHandle p returnCap idx x) := by
  have h₁ := h.setHandleAt (allocatedLoc p returnCap idx) (some x)
  exact h₁.trans (h₁.shared.congr rfl rfl rfl (fun _ => rfl) rfl)

/-- A new view is linked, or not. -/
theorem allocView (h : Shared s) {x : View} (hx : x.Fresh) :
    Goes s { s with views := s.views.alloc x } := by
  have hview : ∀ v, (s.views.alloc x) v = s.views v ∨ (s.views.alloc x) v = x := by
    intro v
    by_cases hv : v = s.views.next
    · subst hv
      exact .inr (s.views.alloc_self x)
    · exact .inl (s.views.alloc_of_ne hv x)
  refine h.kept (.refl (fun _ => False) _) (fun _ => False.elim) h.stocked (fun v => ?_)
    (fun _ => rfl) ?_
  · rcases hview v with hv | hv
    · exact .inl (congrArg View.shape hv)
    · exact .inr (hv.symm ▸ hx)
  · refine replies_kept h.replies (.refl _ _) (fun v f hf => ?_) rfl
    rcases hview v with hv | hv
    · rwa [← hv]
    · have hf' : x.pendingFault = some f := hv ▸ hf
      rw [hx.noFault] at hf'
      cases hf'

theorem linkView (h : Shared s) (w : WindowRef) (o : ObjectRef) {x : View} (hx : x.Fresh) :
    Goes s (s.linkView w o x) := by
  have h₁ := h.allocView hx
  refine h₁.trans (h₁.shared.congr rfl rfl rfl (fun o' => ?_) rfl)
  exact s.objects.update_preserves (r := o) AnonymousMemoryObject.frames
    (f := fun object => { object with
      associatedViews := object.associatedViews ++ [s.views.next] }) rfl o'

theorem allocObject (h : Shared s) (hs : Sane s) {x : AnonymousMemoryObject}
    (hx : x.frames = Table.new) : Goes s { s with objects := s.objects.alloc x } := by
  refine h.congr rfl rfl rfl (fun o => ?_) rfl
  by_cases ho : o = s.objects.next
  · subst ho
    rw [Heap.alloc_self, hx, hs.blankObject _ (Nat.le_refl _)]
    rfl
  · rw [Heap.alloc_of_ne _ ho]

/-! ## Faults and `PageMap` -/

theorem gotFrame (h : Shared s) {o : ObjectRef} {offset : Nat} {cap : Slot}
    (hg : GotFrame o offset cap s s') :
    Goes s s' ∧ ∃ f, (s'.objects o).lookupFrame offset = some f ∧ cap = f.cap := by
  cases hg with
  | found frame lookup heq => exact ⟨h.goes, frame, lookup, heq⟩
  | made f r object page lookup alloc heq insert page_eq =>
    obtain ⟨hstock, hheld⟩ := h.stocked.frameAllocated alloc
    have h₁ := h.withRes (.of_grow alloc.grow) hstock
    have h₂ := h₁.trans (h₁.shared.insertFrame (o := o) (x := ⟨cap, f⟩) (heq ▸ hheld) insert)
    have h₃ := h₂.trans (h₂.shared.withRes
      (r := { r with kernel := r.kernel.writeMem page.obj zeroPage }) (.of_caps rfl rfl)
      (hstock.kept (.of_caps rfl rfl) ⟨rfl, rfl, rfl, rfl⟩ rfl))
    refine ⟨h₃, ⟨cap, f⟩, ?_, rfl⟩
    obtain ⟨t, ht, rfl⟩ := insertFrameAt_ok insert
    simp only [Heap.update_self]
    exact (insertAt_ok ht).2.1

theorem sourcePage (h : Shared s) {v : ViewRef} {offset : Nat} (hp : SourcePage v offset s s') :
    Goes s s' := by
  cases hp with
  | there => exact h.goes
  | filled o s' _ ho populated =>
    obtain ⟨hle, cap, s₁, slot, cs, k, view, hgot, hcopied⟩ := populated
    obtain ⟨h₁, hframe⟩ := h.gotFrame hgot
    have hviews : s₁.views = s.views := by cases hgot <;> rfl
    refine h₁.trans (h₁.shared.copied hcopied fun o' ho' => ?_)
    rw [hviews] at ho' ⊢
    cases ho.symm.trans ho'
    exact ⟨hle, hframe⟩

theorem mapped (h : Shared s) {v : ViewRef} {offset : Nat} {vspace : Slot} {addr : Nat}
    (hm : Mapped v offset vspace addr s s') : Goes s s' := by
  obtain ⟨cap, r, -, hmap, rfl⟩ := hm
  refine h.withRes (.of_mapsFrom hmap) (h.stocked.kept (.of_mapsFrom hmap) ?_ ?_)
  · obtain ⟨r', k, hq, -, rfl⟩ := hmap
    exact hq.frameTable ▸ ⟨rfl, rfl, rfl, rfl⟩
  · obtain ⟨r', k, hq, -, rfl⟩ := hmap
    exact hq.devices

/-- The fault is answered, and its reply object given back. -/
theorem answered (h : Shared s) {v : ViewRef} {offset : Nat} (ha : Answered v offset s s') :
    Goes s s' := by
  cases ha with
  | idle => exact h.goes
  | answered pending s₁ r' hp hm dealloc =>
    have h₁ := h.mapped hm
    have hviews : s₁.views = s.views := by
      obtain ⟨cap, r, -, -, rfl⟩ := hm
      rfl
    have hp₁ : (s₁.views v).pendingFault = some pending := hviews ▸ hp
    obtain ⟨hheld, hne⟩ := h₁.shared.replies.pending v pending hp₁
    have hsent : SlotsKept (fun c => c = pending.reply.1) s₁.res
        { s₁.res with kernel := s₁.res.kernel.replySend pending.reply.1 } :=
      .of_caps (by simp) rfl
    have hk := hsent.trans (.of_deallocated dealloc rfl)
    have hres : r'.frameTable = s₁.res.frameTable ∧
        r'.deviceAllocations = s₁.res.deviceAllocations := by
      obtain ⟨r₁, hf, heq⟩ := dealloc.freed
      rw [heq, hf.eq]
      exact ⟨rfl, rfl⟩
    have hold : ∀ {c obj}, s₁.res.Holds c obj → r'.Holds c obj := fun {c obj} hc =>
      hk.holds (hc.ne_of_object hheld) hc
    refine h₁.trans (h₁.shared.kept hk (fun c hc => hc ▸ hheld) ?_ (fun v' => .inl ?_)
      (fun _ => rfl) ⟨?_, ?_, ?_⟩)
    · have hstock := h₁.shared.stocked
      constructor
      · show ∀ f ∈ r'.frameTable.free, _
        rw [hres.1]
        exact fun f hf => (hstock.free f hf).imp fun _ hc => hold hc
      · show ∀ a ∈ r'.deviceAllocations, _
        rw [hres.2]
        exact fun a ha f hf => (hstock.devices a ha f hf).imp fun _ hc => hold hc
      · exact fun c hc => (hstock.dma c hc).imp fun _ hc => hold hc
    · exact s₁.views.update_preserves (r := v) View.shape
        (f := fun view => { view with pendingFault := none }) rfl v'
    · exact hk.holdsObject (Ne.symm hne) h₁.shared.replies.spare
    · intro v' f hf
      by_cases hv : v' = v
      · subst hv
        simp only [Heap.update_self] at hf
        cases hf
      · simp only [Heap.update_of_ne _ hv] at hf
        obtain ⟨hheld', hne'⟩ := h₁.shared.replies.pending v' f hf
        exact ⟨hk.holdsObject (h₁.shared.replies.apart v' v f pending hf hp₁ hv) hheld', hne'⟩
    · intro v' v'' f f' hf hf'
      by_cases hv : v' = v
      · subst hv
        simp only [Heap.update_self] at hf
        cases hf
      by_cases hv' : v'' = v
      · subst hv'
        simp only [Heap.update_self] at hf'
        cases hf'
      simp only [Heap.update_of_ne _ hv] at hf
      simp only [Heap.update_of_ne _ hv'] at hf'
      exact h₁.shared.replies.apart v' v'' f f' hf hf'

section PageMap

variable {p : Nat} {args : PageMapArgs} {dst src : ViewRef} {w : WindowRef} {cap slot : Slot}
  {cs : CSpace} {k : Kernel} {view : View} {s₁ s₂ : State}

/-- A `PageMap` up to the answer. -/
theorem pageCopied (h : Shared s) (hext : (s.views dst).boundObject = none)
    (hm : PageMapped p args dst src w cap slot cs k view s₁ s₂ s s') : Goes s s₂ := by
  have h₁ := h.sourcePage hm.source
  have hext₁ : (s₁.views dst).boundObject = none :=
    ((SameLinks.sourcePage hm.source).boundObject dst).trans hext
  exact h₁.trans (h₁.shared.copied hm.copied fun o ho => by rw [hext₁] at ho; cases ho)

theorem pageMapped (h : Shared s) (hext : (s.views dst).boundObject = none)
    (hm : PageMapped p args dst src w cap slot cs k view s₁ s₂ s s') : Goes s s' := by
  have h₁ := h.pageCopied hext hm
  exact h₁.trans (h₁.shared.answered hm.answered)

end PageMap

/-- A fault that is served, up to resuming the faulter. -/
theorem blockOn (h : Shared s) (pid : Pid) : Goes s (s.blockOn pid) :=
  h.withRes (.of_caps rfl rfl) (h.stocked.kept (.of_caps rfl rfl) ⟨rfl, rfl, rfl, rfl⟩ rfl)

theorem resume (h : Shared s) (reply : Alloc) : Goes s (s.resume reply) :=
  h.withRes (.of_caps (by simp) rfl)
    (h.stocked.kept (.of_caps (by simp) rfl) ⟨rfl, rfl, rfl, rfl⟩ rfl)

/-- A new reply object replaces the old one, which at most one view has kept for its fault. -/
theorem renewed (h : Shared s) {v : ViewRef} {s₁ : State} {r' : Res} {reply : Alloc}
    (hres : s₁.res = s.res) (hdma : s₁.dma = s.dma) (hobjects : s₁.objects = s.objects)
    (hshape : ∀ v, (s₁.views v).shape = (s.views v).shape)
    (hother : ∀ v' f, v' ≠ v → (s₁.views v').pendingFault = some f →
      (s.views v').pendingFault = some f)
    (hself : ∀ f, (s₁.views v).pendingFault = some f →
      (s.views v).pendingFault = some f ∨ f.reply = s.reply)
    (hr : Renewed r' reply s₁ s') : Goes s s' := by
  have hq : Quiet s.res r' := hres ▸ hr.quiet
  have hk : SlotsKept (fun _ => False) s.res r' := .of_grow hq.grow
  have hfresh : ∀ {c}, s.res.HoldsObject c → c ≠ reply.1 := by
    rintro c hc rfl
    exact hr.fresh (hres ▸ hc.1)
  -- the reply of a pending fault is an old one or the one just given up
  have hold : ∀ v' f, (s₁.views v').pendingFault = some f →
      s.res.HoldsObject f.reply.1 ∧ (f.reply.1 ≠ s.reply.1 ∨ v' = v) := by
    intro v' f hf
    by_cases hv : v' = v
    · subst hv
      rcases hself f hf with hf' | heq
      · exact ⟨(h.replies.pending v' f hf').1, .inr rfl⟩
      · exact ⟨heq ▸ h.replies.spare, .inr rfl⟩
    · obtain ⟨hheld, hne⟩ := h.replies.pending v' f (hother v' f hv hf)
      exact ⟨hheld, .inl hne⟩
  have heq := hr.eq
  subst heq
  refine h.kept hk (fun _ => False.elim) ?_ (fun v => .inl (hshape v))
    (fun o => by rw [hobjects]) ⟨?_, ?_, ?_⟩
  · show Stocked r' s₁.dma.pages
    rw [hdma]
    exact h.stocked.quiet hq
  · exact ⟨hr.allocated, hr.cap⟩
  · intro v' f hf
    obtain ⟨hheld, -⟩ := hold v' f hf
    exact ⟨hk.holdsObject id hheld, hfresh hheld⟩
  · have hwith : ∀ {v' f f'}, v' ≠ v → (s₁.views v).pendingFault = some f →
        (s₁.views v').pendingFault = some f' → f.reply.1 ≠ f'.reply.1 := by
      intro v' f f' hv hf hf'
      have hf₀ := hother v' f' hv hf'
      rcases hself f hf with hfs | heq
      · exact h.replies.apart v v' f f' hfs hf₀ (Ne.symm hv)
      · rw [heq]
        exact Ne.symm (h.replies.pending v' f' hf₀).2
    intro v₁ v₂ f f' hf hf' hne
    by_cases hv₁ : v₁ = v
    · subst hv₁
      exact hwith (Ne.symm hne) hf hf'
    by_cases hv₂ : v₂ = v
    · subst hv₂
      exact Ne.symm (hwith hne hf' hf)
    exact h.replies.apart v₁ v₂ f f' (hother v₁ f hv₁ hf) (hother v₂ f' hv₂ hf') hne

/-! ## Objects -/

/-- Frames that are there are entered one after the other. -/
theorem framesInserted {o : ObjectRef} : ∀ {offset : Nat} {fs : List ObjectFrame}
    {x : AnonymousMemoryObject} {s : State}, Shared s →
    (∀ f ∈ fs, ∃ obj, s.res.Holds f.cap obj) → FramesInserted offset fs (s.objects o) x →
    Goes s { s with objects := s.objects.update o fun _ => x } := by
  intro offset fs x s h hheld hins
  generalize hx₀ : s.objects o = x₀ at hins
  induction hins generalizing s with
  | nil offset x =>
    refine h.congr rfl rfl rfl (fun o' => ?_) rfl
    subst hx₀
    rw [Heap.update_id _ rfl]
  | @cons offset f fs x y z insert rest ih =>
    subst hx₀
    have h₁ := h.insertFrame (o := o) (hheld f List.mem_cons_self) insert
    have hself : (s.objects.update o fun _ => y) o = y := s.objects.update_self o _
    have h₂ := ih h₁.shared (fun f' hf' => hheld f' (List.mem_cons_of_mem _ hf')) hself
    rw [Heap.update_overwrite] at h₂
    exact h₁.trans h₂

theorem eagerFilled (h : Shared s) {o : ObjectRef} {is : List Nat} (hf : EagerFilled o is s s') :
    Goes s s' := by
  induction hf with
  | nil s => exact h.goes
  | cons f r object alloc insert rest ih =>
    obtain ⟨hstock, hheld⟩ := h.stocked.frameAllocated alloc
    have h₁ := h.withRes (.of_grow alloc.grow) hstock
    have h₂ := h₁.trans (h₁.shared.insertFrame (o := o) hheld insert)
    exact h₂.trans (ih h₂.shared)

theorem deviceMemory {r r' : Res} {pages : List Slot} {paddr size : Nat} {fs : List (Slot × Nat)}
    (h : Stocked r pages) (hm : DeviceMemory paddr size fs r r') :
    SlotsKept (fun _ => False) r r' ∧ Stocked r' pages ∧ ∀ f ∈ fs, ∃ obj, r'.Holds f.1 obj := by
  cases hm with
  | cached a mem _ _ heq =>
    exact ⟨.refl _ _, h, heq ▸ h.devices a mem⟩
  | made r₁ frames =>
    have hheld : ∀ f ∈ fs, ∃ obj, r₁.Holds f.1 obj := by
      intro f hf
      obtain ⟨obj, -, -, hcap⟩ := frames.caps f hf
      exact ⟨obj, (frames.fresh f hf).2, _, _, _, hcap⟩
    have hs := h.quiet frames.quiet
    refine ⟨.of_grow (frames.quiet.grow.congr rfl rfl), ⟨hs.free, ?_, hs.dma⟩, hheld⟩
    intro a ha
    rcases List.mem_append.mp ha with ha | ha
    · exact hs.devices a ha
    · cases List.mem_singleton.mp ha
      exact hheld

theorem objMade (h : Shared s) (hs : Sane s) {args : ObjCreateArgs} (hm : ObjMade args s s') :
    Goes s s' := by
  have h₀ : Goes s (s.allocObject args) := h.allocObject hs rfl
  refine h₀.trans ?_
  have hfilled := hm.filled
  generalize s.allocObject args = s₀ at h₀ hfilled
  have h₀ := h₀.shared
  cases hfilled with
  | device paddr fs r object _ memory inserted =>
    obtain ⟨hk, hstock, hheld⟩ := deviceMemory h₀.stocked memory
    have h₁ := h₀.withRes hk hstock
    refine h₁.trans (h₁.shared.framesInserted ?_ inserted)
    intro f hf
    obtain ⟨x, hx, rfl⟩ := List.mem_map.mp hf
    exact hheld x hx
  | contiguous allocation object _ _ _ inserted =>
    have h₁ : Goes s₀ { s₀ with
        dma := { s₀.dma with allocations := allocation :: s₀.dma.allocations }
        objects := s₀.objects.update s.objects.next fun x =>
          { x with dmaAllocation := some allocation } } := by
      refine h₀.congr rfl rfl rfl ?_ rfl
      exact s₀.objects.update_preserves (r := s.objects.next) AnonymousMemoryObject.frames
        (f := fun x => { x with dmaAllocation := some allocation }) rfl
    have h₂ := h₁.shared.framesInserted (o := s.objects.next) ?_
      (by rw [Heap.update_self]; exact inserted)
    · rw [Heap.update_overwrite] at h₂
      exact h₁.trans h₂
    · intro f hf
      obtain ⟨c, hc, rfl⟩ := List.mem_map.mp hf
      exact h₀.stocked.dma c (List.mem_of_mem_drop (List.mem_of_mem_take hc))
  | eager _ _ _ _ filled => exact h₀.eagerFilled filled
  | empty => exact h₀.goes

end Shared

end Smos.RootServer
