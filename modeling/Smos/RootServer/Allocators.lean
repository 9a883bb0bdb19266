/-
Smos.RootServer.Allocators — invariants of the kernel that the allocators keep.

Whatever the allocators do to get and give back slots, untyped memory and
frames, they do with a few kernel calls: retype, delete, and mapping a page
or a page table. An invariant of the kernel that these calls keep (`Stable`)
is kept by every allocator, whether it succeeds or not.
-/
import Smos.Base.Keeps
import Smos.RootServer.Resources

namespace Smos.RootServer

open Smos.Base

/-- An invariant of the kernel that the calls of the allocators keep. -/
class Stable (I : Kernel → Prop) : Prop where
  delete {k : Kernel} (h : I k) (c : Slot) : I (k.delete c)
  untypedRetype {k k' : Kernel} {bp : ObjectBlueprint} {c : Slot} (h : I k)
    (hk : k.untypedRetype bp c = .ok k') : I k'
  ptMap {k k' : Kernel} {c vspace : Slot} {vaddr : Nat} (h : I k)
    (hk : k.ptMap c vspace vaddr = .ok k') : I k'
  frameMap {k k' : Kernel} {c vspace : Slot} {vaddr : Nat} {rights : CapRights} (h : I k)
    (hk : k.frameMap c vspace vaddr rights = .ok k') : I k'
  writeMem {k : Kernel} (h : I k) (obj : Nat) (bytes : Nat → Nat) : I (k.writeMem obj bytes)

/-- An invariant of the resources that does not look at what the allocators keep in tables:
the slots, the free lists and the frames. -/
class Tables (I : Res → Prop) : Prop where
  tables {r r' : Res} (h : I r) (hk : r'.kernel = r.kernel)
    (ht : r'.ut.untypeds = r.ut.untypeds) (hp : r'.ut.firstPaddr = r.ut.firstPaddr)
    (hd : r'.deviceAllocations = r.deviceAllocations) : I r'

/-- Such an invariant that the kernel calls of the allocators keep, too. -/
class Supports (I : Res → Prop) : Prop extends Tables I where
  kernel (r : Res) : Stable fun k => I { r with kernel := k }

instance {I : Kernel → Prop} : Tables fun r => I r.kernel where
  tables h hk _ _ _ := by rw [hk]; exact h

instance {I : Kernel → Prop} [h : Stable I] : Supports fun r => I r.kernel where
  kernel _ := h

section Allocators

/-- The program keeps what `I` says about the resources. -/
def ResProg (I : Res → Prop) {ε α : Type} (m : RProg ε α) : Prop := m.Keeps I fun _ => True

/-- The program keeps what `I` says about the kernel. -/
def KernelProg (I : Kernel → Prop) {ε α : Type} (m : RProg ε α) : Prop :=
  ResProg (fun r => I r.kernel) m

variable {ε : Type} {I : Res → Prop}

/-- A kernel call that fails leaves the kernel as it was. -/
theorem kcall_keeps {f : Kernel → Except Sel4Error Kernel}
    (h : ∀ r k', I r → f r.kernel = .ok k' → I { r with kernel := k' }) : ResProg I (kcall f) := by
  intro r hr
  rw [kcall, Prog.wp_zoom, Prog.wp_ofExcept]
  exact ⟨fun k' hk => ⟨trivial, h r k' hr hk⟩, fun _ _ => hr⟩

theorem kmodify_keeps {f : Kernel → Kernel} (h : ∀ r, I r → I { r with kernel := f r.kernel }) :
    ResProg I (kmodify f : RProg ε Unit) :=
  Prog.Keeps.modify trivial fun _ hr => h _ hr

/-- A program, with a clean-up for its error. -/
theorem ResProg.catchErr {ε' α : Type} {m : RProg ε' α} {h : ε' → RProg ε α}
    (hm : ResProg I m) (hh : ∀ e, ResProg I (h e)) : ResProg I (m.catchErr h) :=
  Prog.Keeps.catchErr hm hh

theorem ResProg.bind {α β : Type} {m : RProg ε α} {f : α → RProg ε β}
    (hm : ResProg I m) (hf : ∀ a, ResProg I (f a)) : ResProg I (m >>= f) :=
  Prog.Keeps.bind hm fun a _ => hf a

theorem ResProg.attempt {ε' α : Type} {m : RProg ε' α} (hm : ResProg I m) :
    ResProg I (m.attempt : RProg ε (Except ε' α)) := Prog.Keeps.attempt hm

theorem ResProg.expect {ε' α : Type} {m : RProg ε' α} {p : Panic} (hm : ResProg I m) :
    ResProg I (m.expect p : RProg ε α) := Prog.Keeps.expect hm

theorem ResProg.pure {α : Type} (a : α) : ResProg I (Pure.pure a : RProg ε α) :=
  Prog.Keeps.pure trivial

theorem ResProg.fail {α : Type} (e : ε) : ResProg I (Prog.fail e : RProg ε α) :=
  Prog.Keeps.fail e

theorem ResProg.gets {α : Type} {f : Res → α} : ResProg I (Prog.gets f : RProg ε α) :=
  Prog.Keeps.gets_any

theorem ResProg.ite {α : Type} {c : Prop} [Decidable c] {m m' : RProg ε α}
    (h : ResProg I m) (h' : ResProg I m') : ResProg I (if c then m else m') :=
  Prog.Keeps.ite (fun _ => h) fun _ => h'

theorem ResProg.forEach {β : Type} {f : β → RProg ε Unit} {xs : List β}
    (h : ∀ x, ResProg I (f x)) : ResProg I (Prog.forEach f xs) :=
  Prog.Keeps.forEach fun x _ => h x

theorem addU_keeps {σ : Type} {I : σ → Prop} (a b : Nat) :
    (addU a b : Prog Panic σ ε Nat).Keeps I fun _ => True :=
  .ite (fun _ => .prog_pure trivial) fun _ => .panic _

theorem subU_keeps {σ : Type} {I : σ → Prop} (a b : Nat) :
    (subU a b : Prog Panic σ ε Nat).Keeps I fun _ => True :=
  .ite (fun _ => .prog_pure trivial) fun _ => .panic _

theorem assert_keeps (p : Panic) (c : Bool) : ResProg I (Prog.assert p c : RProg ε Unit) :=
  Prog.Keeps.assert

/-- Reading the frame table. -/
theorem frameCap_keeps (frameRef : Nat) : ResProg I (frameCap frameRef : RProg ε Slot) :=
  .bind .gets fun _ => .bind (assert_keeps _ _) fun _ => .pure _

section Tables

variable [Tables I]

/-- The cspace is the allocator's own. -/
theorem cspace_keeps {α : Type} {m : Prog Panic CSpace ε α} :
    ResProg I (Prog.zoom Res.cspace (fun r cs => { r with cspace := cs }) m) := by
  intro r hr
  have hkeep : ∀ cs, I { r with cspace := cs } := fun _ => Tables.tables hr rfl rfl rfl rfl
  rw [Prog.wp_zoom]
  unfold Prog.wp
  split
  · exact ⟨trivial, hkeep _⟩
  · exact hkeep _
  · trivial

theorem allocSlot_keeps : ResProg I allocSlot := cspace_keeps

theorem freeSlot_keeps (c : Slot) : ResProg I (freeSlot c : RProg ε Unit) := cspace_keeps

/-- A step that only touches tables of the root server. -/
theorem modify_keeps {f : Res → Res} (hk : ∀ r, (f r).kernel = r.kernel)
    (ht : ∀ r, (f r).ut.untypeds = r.ut.untypeds) (hp : ∀ r, (f r).ut.firstPaddr = r.ut.firstPaddr)
    (hd : ∀ r, (f r).deviceAllocations = r.deviceAllocations) :
    ResProg I (Prog.modify f : RProg ε Unit) :=
  Prog.Keeps.modify trivial fun r hr => Tables.tables hr (hk r) (ht r) (hp r) (hd r)

/-- Free lists may change, but not which untypeds there are. -/
theorem modifyUt_keeps {f : UTTable → UTTable} (ht : ∀ t, (f t).untypeds = t.untypeds)
    (hp : ∀ t, (f t).firstPaddr = t.firstPaddr) : ResProg I (modifyUt f : RProg ε Unit) :=
  modify_keeps (fun _ => rfl) (fun _ => ht _) (fun _ => hp _) fun _ => rfl

theorem modifyFrameTable_keeps (f : FrameTable → FrameTable) :
    ResProg I (modifyFrameTable f : RProg ε Unit) :=
  modify_keeps (fun _ => rfl) (fun _ => rfl) (fun _ => rfl) fun _ => rfl

theorem utFree_keeps (ut : UT) : ResProg I (utFree ut : RProg ε Unit) :=
  modifyUt_keeps (fun _ => rfl) fun _ => rfl

/-- The head of the free list of pages, if it has one. -/
theorem alloc4kUntyped_keeps : ResProg I alloc4kUntyped := by
  refine .bind .gets fun free => ?_
  cases free with
  | nil => exact .fail _
  | cons ut rest => exact .bind (modifyUt_keeps (fun _ => rfl) fun _ => rfl) fun _ => .pure ut

theorem pushStructure_keeps (ptr : Nat) : ResProg I (pushStructure ptr : RProg ε Unit) :=
  modifyUt_keeps (fun _ => rfl) fun _ => rfl

/-- A spare structure, if one is left. -/
theorem popStructure_keeps : ResProg I popStructure := by
  refine .bind .gets fun free => ?_
  cases free with
  | nil => exact .fail _
  | cons ptr rest => exact .bind (modifyUt_keeps (fun _ => rfl) fun _ => rfl) fun _ => .pure ptr

/-- The end of `utAllocBelow`, which takes the first untyped of a free list. -/
theorem popUntyped_keeps (sizeBits : Nat) : ResProg I (do
    match ← Prog.gets fun r => r.ut.freeUntypeds sizeBits with
    | [] => Prog.panic .unwrapNone
    | ut :: rest =>
      modifyUt fun t => { t with freeUntypeds := Function.update t.freeUntypeds sizeBits rest }
      pure ut : RProg Sel4Error UT) := by
  refine .bind .gets fun free => ?_
  cases free with
  | nil => exact Prog.Keeps.panic _
  | cons ut rest => exact .bind (modifyUt_keeps (fun _ => rfl) fun _ => rfl) fun _ => .pure ut

theorem freeFrame_keeps (frameRef : Nat) : ResProg I (freeFrame frameRef : RProg ε Unit) :=
  .bind .gets fun _ => .bind (assert_keeps _ _) fun _ => .bind (assert_keeps _ _) fun _ =>
    modifyFrameTable_keeps _

end Tables

/-! ## Kernel calls -/

section Supports

variable [Supports I]

/-- Deleting is one of the kernel calls that `I` allows. -/
theorem deleteCap_keeps (c : Slot) : ResProg I (deleteCap c : RProg ε Unit) :=
  kmodify_keeps fun r h => (Supports.kernel r).delete h c

theorem untypedRetype_keeps (bp : ObjectBlueprint) (c : Slot) :
    ResProg I (untypedRetype bp c) :=
  kcall_keeps fun r _ h hk => (Supports.kernel r).untypedRetype h hk

theorem frameMap_keeps (c vspace : Slot) (vaddr : Nat) (rights : CapRights) :
    ResProg I (frameMap c vspace vaddr rights) :=
  kcall_keeps fun r _ h hk => (Supports.kernel r).frameMap h hk

theorem retypeMapPt_keeps (vspace : Slot) (vaddr : Nat) (c : Slot) :
    ResProg I (retypeMapPt vspace vaddr c) :=
  .bind (untypedRetype_keeps .pt c) fun _ => kcall_keeps fun r _ h hk => (Supports.kernel r).ptMap h hk

/-- By induction on the attempts: each maps a page table for the level that was missing. -/
theorem mapFrameLoop_keeps (c vspace : Slot) (vaddr : Nat) (rights : CapRights) :
    ∀ (n : Nat) (err : Except Sel4Error Unit), ResProg I (mapFrameLoop c vspace vaddr rights n err)
  | 0, err => by
    cases err <;> exact .pure _
  | n + 1, .ok () => .pure _
  | n + 1, .error e => by
    cases e
    case failedLookup =>
      unfold mapFrameLoop
      refine .bind alloc4kUntyped_keeps fun _ => .bind allocSlot_keeps fun slot => ?_
      refine .ite (.fail _) (.bind (retypeMapPt_keeps _ _ _).attempt fun res => ?_)
      cases res with
      | ok u =>
        exact .bind (frameMap_keeps _ _ _ _).attempt fun err =>
          mapFrameLoop_keeps c vspace vaddr rights n err
      | error e => exact mapFrameLoop_keeps c vspace vaddr rights n (.error e)
    all_goals exact .pure _

/-- However many page tables it took. -/
theorem mapFrame_keeps (c vspace : Slot) (vaddr : Nat) (rights : CapRights) :
    ResProg I (mapFrame c vspace vaddr rights) := by
  refine .bind (frameMap_keeps _ _ _ _).attempt fun err => ?_
  refine .bind (mapFrameLoop_keeps c vspace vaddr rights _ err) fun err => ?_
  cases err with
  | ok u => exact .pure u
  | error e => exact .fail e

/-! ## Untypeds -/

theorem mapFrameToNextFreeVaddr_keeps (frame : Slot) :
    ResProg I (mapFrameToNextFreeVaddr frame) := by
  unfold mapFrameToNextFreeVaddr
  -- the unifier would compute with the numeral
  generalize pageSize4K = size
  refine .bind .gets fun vaddr => .bind (mapFrame_keeps _ _ _ _) fun _ => ?_
  refine .bind (addU_keeps _ _) fun next => .bind ?_ fun _ => .pure vaddr
  exact modifyUt_keeps (fun _ => rfl) fun _ => rfl

/-- The pool takes a page of its own and divides it. -/
theorem ensureNewStructures_keeps : ResProg I ensureNewStructures := by
  unfold ensureNewStructures
  refine .bind .gets fun n => .ite ?_ (.pure _)
  refine .bind alloc4kUntyped_keeps fun _ => .bind allocSlot_keeps fun cptr => ?_
  refine .bind (untypedRetype_keeps _ _) fun _ => .bind (mapFrameToNextFreeVaddr_keeps _) fun newUts => ?_
  exact .forEach fun i => pushStructure_keeps (newUts + i * utSize)

/-- A large untyped is split into its halves, and the kernel retypes both. -/
theorem utSplit_keeps (larger : UT) (sizeBits : Nat) : ResProg I (utSplit larger sizeBits) := by
  unfold utSplit
  refine .bind (ensureNewStructures_keeps.catchErr fun e => ?_) fun _ => ?_
  · exact .bind (utFree_keeps _) fun _ => .fail e
  refine .bind (popStructure_keeps.catchErr fun e => ?_) fun new1 => ?_
  · exact .bind (utFree_keeps _) fun _ => .fail e
  refine .bind (allocSlot_keeps.catchErr fun e => ?_) fun cslot1 => ?_
  · exact .bind (utFree_keeps _) fun _ => .bind (pushStructure_keeps _) fun _ => .fail e
  refine .bind (popStructure_keeps.catchErr fun e => ?_) fun new2 => ?_
  · exact .bind (utFree_keeps _) fun _ => .bind (pushStructure_keeps _) fun _ =>
      .bind (freeSlot_keeps _) fun _ => .fail e
  refine .bind (allocSlot_keeps.catchErr fun e => ?_) fun cslot2 => ?_
  · exact .bind (utFree_keeps _) fun _ => .bind (pushStructure_keeps _) fun _ =>
      .bind (freeSlot_keeps _) fun _ => .bind (pushStructure_keeps _) fun _ => .fail e
  refine .bind ((untypedRetype_keeps _ _).catchErr fun e => ?_) fun _ => ?_
  · exact .bind (utFree_keeps _) fun _ => .bind (pushStructure_keeps _) fun _ =>
      .bind (freeSlot_keeps _) fun _ => .bind (pushStructure_keeps _) fun _ =>
        .bind (freeSlot_keeps _) fun _ => .fail e
  refine .bind ((untypedRetype_keeps _ _).catchErr fun e => ?_) fun _ => ?_
  · exact .bind (utFree_keeps _) fun _ => .bind (pushStructure_keeps _) fun _ =>
      .bind (deleteCap_keeps _) fun _ => .bind (freeSlot_keeps _) fun _ =>
        .bind (pushStructure_keeps _) fun _ => .bind (freeSlot_keeps _) fun _ => .fail e
  exact .bind (utFree_keeps _) fun _ => utFree_keeps _

/-- By induction on how often a page is to be halved. -/
theorem utAllocBelow_keeps : ∀ n : Nat, ResProg I (utAllocBelow n)
  | 0 => alloc4kUntyped_keeps
  | n + 1 => by
    unfold utAllocBelow
    refine .bind .gets fun free => .ite ?_ ?_
    · refine .bind (utAllocBelow_keeps n) fun larger => .bind (utSplit_keeps _ _) fun _ => ?_
      exact popUntyped_keeps _
    · exact popUntyped_keeps _

theorem utAlloc_keeps (sizeBits : Nat) : ResProg I (utAlloc sizeBits) :=
  Prog.Keeps.ite (fun _ => .fail _) fun _ =>
    .ite (fun _ => .fail _) fun _ => utAllocBelow_keeps _

/-- An untyped and a slot, retyped into it. -/
theorem allocRetype_keeps (bp : ObjectBlueprint) : ResProg I (allocRetype bp) := by
  refine .bind ((utAlloc_keeps _).catchErr fun _ => .fail _) fun ut => ?_
  refine .bind (allocSlot_keeps.catchErr fun _ => ?_) fun cptr => ?_
  · exact .bind (utFree_keeps _) fun _ => .fail _
  refine .bind ((untypedRetype_keeps _ _).catchErr fun _ => ?_) fun _ => .pure _
  exact .bind (utFree_keeps _) fun _ => .bind (freeSlot_keeps _) fun _ => .fail _

theorem deallocRetyped_keeps (x : Slot × UT) : ResProg I (deallocRetyped x : RProg ε Unit) :=
  .bind (deleteCap_keeps _) fun _ => .bind (freeSlot_keeps _) fun _ => utFree_keeps _

/-! ## Frames -/

theorem writeFrameData_keeps (frameRef : Nat) (f : (Nat → Nat) → Nat → Nat) :
    ResProg I (writeFrameData frameRef f : RProg ε Unit) := by
  refine .bind .gets fun _ => .bind (assert_keeps _ _) fun _ => .bind .gets fun page => ?_
  refine .bind (Prog.Keeps.unwrap fun _ _ => trivial) fun _ => ?_
  exact kmodify_keeps fun r h => (Supports.kernel r).writeMem h _ _

/-- A page is mapped for the root server, or nothing is left of it. -/
theorem allocFrameAt_keeps (vaddr : Nat) : ResProg I (allocFrameAt vaddr) := by
  refine .bind alloc4kUntyped_keeps fun ut => ?_
  refine .bind (allocSlot_keeps.catchErr fun e => ?_) fun cptr => ?_
  · exact .bind (utFree_keeps _) fun _ => .fail e
  refine .bind ((untypedRetype_keeps _ _).catchErr fun e => ?_) fun _ => ?_
  · exact .bind (freeSlot_keeps _) fun _ => .bind (utFree_keeps _) fun _ => .fail e
  refine .bind ((mapFrame_keeps _ _ _ _).catchErr fun e => ?_) fun _ => .pure cptr
  exact .bind (deleteCap_keeps _) fun _ => .bind (freeSlot_keeps _) fun _ =>
    .bind (utFree_keeps _) fun _ => .fail e

end Supports

section FrameTable

variable (hat : ∀ vaddr, ResProg I (allocFrameAt vaddr))
  (htable : ∀ r t, I r → I { r with frameTable := t })

include hat htable

/-- `alloc_frame` keeps what `alloc_frame_at` keeps and the frame table has no part in. -/
theorem allocFreshFrame_keeps_of : ResProg I allocFreshFrame := by
  unfold allocFreshFrame
  have hmodify : ∀ {ε : Type} (f : FrameTable → FrameTable),
      ResProg I (modifyFrameTable f : RProg ε Unit) :=
    fun _ => Prog.Keeps.modify trivial fun r h => htable r _ h
  have hbump : ResProg I bumpCapacity :=
    .bind .gets fun _ => .bind (hat _) fun _ => hmodify _
  have hnew : ∀ frameRef, ResProg I ((allocFrameAt (frameDataAddr frameRef)).catchErr fun e => do
      modifyFrameTable fun t => { t with used := t.used - 1 }
      Prog.fail e) := by
    intro frameRef
    exact (hat _).catchErr fun e => .bind (hmodify _) fun _ => .fail e
  refine .bind .gets fun t => .bind (assert_keeps _ _) fun _ => .ite (.bind hbump ?_) ?_
  · intro _
    refine .bind .gets fun t => .bind (assert_keeps _ _) fun _ => ?_
    refine .bind (hmodify _) fun _ => .bind (hnew _) fun cap => ?_
    exact .bind (hmodify _) fun _ => .pure _
  · refine .bind .gets fun t => .bind (assert_keeps _ _) fun _ => ?_
    refine .bind (hmodify _) fun _ => .bind (hnew _) fun cap => ?_
    exact .bind (hmodify _) fun _ => .pure _

theorem allocFrame_keeps_of : ResProg I allocFrame := by
  have hmodify : ∀ f, ResProg I (modifyFrameTable f : RProg Unit Unit) :=
    fun _ => Prog.Keeps.modify trivial fun r h => htable r _ h
  refine .bind .gets fun free => ?_
  cases free with
  | cons frameRef rest => exact .bind (hmodify _) fun _ => .pure _
  | nil =>
    refine .bind ((allocFreshFrame_keeps_of hat htable).catchErr fun _ => .fail _) fun frameRef => ?_
    exact .bind (hmodify _) fun _ => .pure _

end FrameTable

theorem allocFrame_keeps [Supports I] : ResProg I allocFrame :=
  allocFrame_keeps_of allocFrameAt_keeps fun _ _ h => Tables.tables h rfl rfl rfl rfl

end Allocators

end Smos.RootServer
