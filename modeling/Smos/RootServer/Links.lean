/-
Smos.RootServer.Links — turns that leave windows, views and objects linked
as they are.

Faults, `PageMap`, and the teardown of frames and slots change resources,
page tables and pending faults, but no window, no process and no field of
a view or an object that links it to something else or bounds its use.
`SameLinks` is that frame condition, a preorder; the invariants about
links, ranges and rights get these turns from it.
-/
import Smos.RootServer.SaneTurns

namespace Smos.RootServer

open Smos.Base

/-- A view without what faults put into it. -/
def View.bare (v : View) : View := { v with caps := Table.new, pendingFault := none }

/-- An object without its frames. -/
def AnonymousMemoryObject.bare (o : AnonymousMemoryObject) : AnonymousMemoryObject :=
  { o with frames := Table.new }

/-- Nothing that links or bounds has changed. -/
structure SameLinks (s s' : State) : Prop where
  windows : s'.windows = s.windows
  procCells : s'.procCells = s.procCells
  procs : s'.procs = s.procs
  handleCaps : s'.handleCaps = s.handleCaps
  viewsNext : s'.views.next = s.views.next
  views : ∀ v, (s'.views v).bare = (s.views v).bare
  objectsNext : s'.objects.next = s.objects.next
  objects : ∀ o, (s'.objects o).bare = (s.objects o).bare

namespace SameLinks

variable {s s' s₁ s₂ : State} {p : Nat}

protected theorem refl (s : State) : SameLinks s s :=
  ⟨rfl, rfl, rfl, rfl, rfl, fun _ => rfl, rfl, fun _ => rfl⟩

protected theorem trans (h : SameLinks s s₁) (h' : SameLinks s₁ s₂) : SameLinks s s₂ :=
  ⟨h'.windows.trans h.windows, h'.procCells.trans h.procCells, h'.procs.trans h.procs,
    h'.handleCaps.trans h.handleCaps, h'.viewsNext.trans h.viewsNext,
    fun v => (h'.views v).trans (h.views v), h'.objectsNext.trans h.objectsNext,
    fun o => (h'.objects o).trans (h.objects o)⟩

/-- All handles are as they were. -/
theorem handleAt (h : SameLinks s s') (loc : HandleLoc) : s'.handleAt loc = s.handleAt loc :=
  State.handleAt_congr h.procCells h.handleCaps loc

/-- So are the windows of each process, -/
theorem windowsOf (h : SameLinks s s') (c : Nat) : s'.windowsOf c = s.windowsOf c := by
  simp only [State.windowsOf, h.procCells]

/-- and those it began with. -/
theorem initialOf (h : SameLinks s s') (c : Nat) : s'.initialOf c = s.initialOf c := by
  simp only [State.initialOf, h.procCells]

/-- A field of a view that `bare` keeps is the same. -/
theorem view_field (h : SameLinks s s') {β : Type} (g : View → β) (hg : ∀ x, g x.bare = g x)
    (v : ViewRef) : g (s'.views v) = g (s.views v) := by
  rw [← hg, h.views, hg]

/-- What a view is linked to, and the bounds it sets, are fields of this kind. -/
theorem boundObject (h : SameLinks s s') (v : ViewRef) :
    (s'.views v).boundObject = (s.views v).boundObject :=
  h.view_field View.boundObject (fun _ => rfl) v

theorem boundWindow (h : SameLinks s s') (v : ViewRef) :
    (s'.views v).boundWindow = (s.views v).boundWindow :=
  h.view_field View.boundWindow (fun _ => rfl) v

theorem managingServerInfo (h : SameLinks s s') (v : ViewRef) :
    (s'.views v).managingServerInfo = (s.views v).managingServerInfo :=
  h.view_field View.managingServerInfo (fun _ => rfl) v

theorem rights (h : SameLinks s s') (v : ViewRef) : (s'.views v).rights = (s.views v).rights :=
  h.view_field View.rights (fun _ => rfl) v

theorem winOffset (h : SameLinks s s') (v : ViewRef) :
    (s'.views v).winOffset = (s.views v).winOffset :=
  h.view_field View.winOffset (fun _ => rfl) v

theorem objOffset (h : SameLinks s s') (v : ViewRef) :
    (s'.views v).objOffset = (s.views v).objOffset :=
  h.view_field View.objOffset (fun _ => rfl) v

/-- A field of an object that `bare` keeps is the same. -/
theorem object_field (h : SameLinks s s') {β : Type} (g : AnonymousMemoryObject → β)
    (hg : ∀ x, g x.bare = g x) (o : ObjectRef) : g (s'.objects o) = g (s.objects o) := by
  rw [← hg, h.objects, hg]

theorem associatedViews (h : SameLinks s s') (o : ObjectRef) :
    (s'.objects o).associatedViews = (s.objects o).associatedViews :=
  h.object_field AnonymousMemoryObject.associatedViews (fun _ => rfl) o

/-! ## Effects that keep the links -/

/-- Resources are no links. -/
theorem withRes (s : State) (r : Res) : SameLinks s { s with res := r } :=
  ⟨rfl, rfl, rfl, rfl, rfl, fun _ => rfl, rfl, fun _ => rfl⟩

/-- Nor are servers, connections and interrupts. -/
theorem withLists (s : State) (servers : Heap Server) (connections : Heap Connection)
    (irqs : Heap IRQRegistration) :
    SameLinks s { s with servers := servers, connections := connections, irqs := irqs } :=
  ⟨rfl, rfl, rfl, rfl, rfl, fun _ => rfl, rfl, fun _ => rfl⟩

/-- A view that takes a page, or a pending fault. -/
theorem updView (s : State) (v : ViewRef) {f : View → View}
    (hf : (f (s.views v)).bare = (s.views v).bare) :
    SameLinks s { s with views := s.views.update v f } :=
  ⟨rfl, rfl, rfl, rfl, rfl, s.views.update_preserves View.bare hf, rfl, fun _ => rfl⟩

/-- An object that takes a frame. -/
theorem updObject (s : State) (o : ObjectRef) {f : AnonymousMemoryObject → AnonymousMemoryObject}
    (hf : (f (s.objects o)).bare = (s.objects o).bare) :
    SameLinks s { s with objects := s.objects.update o f } :=
  ⟨rfl, rfl, rfl, rfl, rfl, fun _ => rfl, rfl,
    s.objects.update_preserves AnonymousMemoryObject.bare hf⟩

/-- An object's page, which may be a new one. -/
theorem gotFrame {o : ObjectRef} {objOffset : Nat} {cap : Slot}
    (h : GotFrame o objOffset cap s s') : SameLinks s s' := by
  cases h with
  | found => exact .refl s
  | made f r object page _ _ _ hins _ =>
    obtain ⟨t, -, rfl⟩ := insertFrameAt_ok hins
    exact (withRes s _).trans (updObject _ o rfl)

/-- Its copy for a view. -/
theorem copied {v : ViewRef} {offset : Nat} {src slot : Slot} {cs : CSpace} {k : Kernel}
    {view : View} (h : Copied v offset src s s' slot cs k view) : SameLinks s s' := by
  obtain ⟨t, -, hview⟩ := insertCapAt_ok h.insert
  rw [h.eq]
  exact (withRes s _).trans (updView _ v (by rw [hview]; rfl))

/-- Both together. -/
theorem populated {v : ViewRef} {o : ObjectRef} {offset : Nat} (h : Populated v o offset s s') :
    SameLinks s s' := by
  obtain ⟨-, cap, s₁, slot, cs, k, view, hg, hc⟩ := h
  exact (gotFrame hg).trans (copied hc)

/-- The page a fault or a `PageMap` finds or makes. -/
theorem sourcePage {v : ViewRef} {offset : Nat} (h : SourcePage v offset s s') :
    SameLinks s s' := by
  cases h with
  | there => exact .refl s
  | filled o s' _ _ hp => exact populated hp

/-- Mapping it. -/
theorem mapped {v : ViewRef} {offset : Nat} {vspace : Slot} {addr : Nat}
    (h : Mapped v offset vspace addr s s') : SameLinks s s' := by
  obtain ⟨cap, r, -, -, rfl⟩ := h
  exact withRes s r

/-- Answering a pending fault clears it, which is no link either. -/
theorem answered {v : ViewRef} {offset : Nat} (h : Answered v offset s s') : SameLinks s s' := by
  cases h with
  | idle => exact .refl s
  | answered pending s₁ r' _ hm _ =>
    exact (mapped hm).trans ((withRes s₁ r').trans (updView _ v rfl))

/-- All of `PageMap`. -/
theorem pageMapped {args : PageMapArgs} {dst src : ViewRef} {w : WindowRef} {cap slot : Slot}
    {cs : CSpace} {k : Kernel} {view : View}
    (h : PageMapped p args dst src w cap slot cs k view s₁ s₂ s s') : SameLinks s s' :=
  ((sourcePage h.source).trans (copied h.copied)).trans (answered h.answered)

/-- All of a fault, forwarded or served. -/
theorem faulted {reply : Alloc} {addr : Nat} {x : Option FaultReply}
    (h : Faulted p reply addr s x s') : SameLinks s s' := by
  cases h with
  | nowhere => exact .refl s
  | unbound => exact .refl s
  | forwarded w v srv clientId reference u =>
    have hv := updView s v (f := fun view => { view with
      pendingFault := some ⟨reply, addr, u.vspace.1⟩ }) rfl
    exact hv.trans (withLists _ _ _ _)
  | served w v u s₁ s' _ _ source _ hm => exact (sourcePage source).trans (mapped hm)

/-- A new reply object. -/
theorem renewed {r' : Res} {reply : Alloc} (h : Renewed r' reply s s') : SameLinks s s' := by
  rw [h.eq]
  exact ⟨rfl, rfl, rfl, rfl, rfl, fun _ => rfl, rfl, fun _ => rfl⟩

/-- Unloading gives back frames and slots; the windows, views and objects stay. -/
theorem allUnloaded {ws : List WindowRef} (h : AllUnloaded ws s s') : SameLinks s s' := by
  induction h with
  | nil s => exact .refl s
  | cons first _ ih => exact (first.eq ▸ withRes _ _ : SameLinks _ _).trans ih

/-- An object that is filled with new frames. -/
theorem eagerFilled {o : ObjectRef} {is : List Nat} (h : EagerFilled o is s s') :
    SameLinks s s' := by
  induction h with
  | nil s => exact .refl s
  | cons f r object _ insert _ ih =>
    obtain ⟨t, -, rfl⟩ := insertFrameAt_ok insert
    exact ((withRes _ r).trans (updObject _ o rfl)).trans ih

theorem blockOn (s : State) (pid : Pid) : SameLinks s (s.blockOn pid) := withRes s _

theorem resume (s : State) (reply : Alloc) : SameLinks s (s.resume reply) := withRes s _

end SameLinks

end Smos.RootServer
