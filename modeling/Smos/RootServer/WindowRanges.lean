/-
Smos.RootServer.WindowRanges — the windows of a process as address ranges.

A window never moves: what changes is only which windows are in a
process's two lists. `Shrunk` says that no list has a new window, `Added`
that one list has one, which passed `overlapping_window`. The test asks
whether an end of the new range lies in an old one, so it lets a range
through that engulfs an old one; it never looks at the initial windows,
and it does not add `base` and `size` at all when there is nothing to
compare with. Where a request is `Clear` of these three, the ranges stay
apart, and the search for an address has one answer.
-/
import Smos.Base.Spans
import Smos.RootServer.Boot
import Smos.RootServer.Links

namespace Smos.RootServer

open Smos.Base

/-! ## Ranges -/

/-- The initial windows of a process, then its other windows: `find_window_containing`'s order. -/
def State.windowList (s : State) (p : Nat) : List WindowRef := s.initialOf p ++ s.windowsOf p

/-- Who waits for a process has no say in its windows. -/
theorem State.windowList_waiter (s : State) (proc c : Nat) :
    (s.updProc proc fun u => { u with waiter := some s.reply }).windowList c = s.windowList c := by
  have hinitial := initialOf_updProc_of_eq (s := s) (p := proc)
    (f := fun u => { u with waiter := some s.reply }) (fun _ => rfl) c
  have hwindows := windowsOf_updProc_of_eq (s := s) (p := proc)
    (f := fun u => { u with waiter := some s.reply }) (fun _ => rfl) c
  rw [windowList, hinitial, hwindows, windowList]

/-- The addresses of a window. -/
def State.range (s : State) (w : WindowRef) : Set Nat := span (s.windows w).start (s.windows w).size

theorem mem_range {s : State} {w : WindowRef} {vaddr : Nat} :
    vaddr ∈ s.range w ↔ (s.windows w).Contains vaddr := Iff.rfl

/-- The geometry of the old windows is the old one. -/
structure SameGeometry (s s' : State) : Prop where
  next : s.windows.next ≤ s'.windows.next
  start : ∀ w, w < s.windows.next → (s'.windows w).start = (s.windows w).start
  size : ∀ w, w < s.windows.next → (s'.windows w).size = (s.windows w).size

/-- No list has a window that it did not have. -/
structure Shrunk (s s' : State) : Prop extends SameGeometry s s' where
  lists : ∀ p, (s'.windowList p).Subperm (s.windowList p)

/-- The process in cell `p` has one window more, which no old one overlaps by its ends. -/
structure Added (p base bytes : Nat) (s s' : State) : Prop extends SameGeometry s s' where
  lt_next : s.windows.next < s'.windows.next
  newStart : (s'.windows s.windows.next).start = base
  newSize : (s'.windows s.windows.next).size = bytes
  lists : ∀ c, c ≠ p → (s'.windowList c).Subperm (s.windowList c)
  list : (s'.windowList p).Subperm (s.windowList p ++ [s.windows.next])
  clear : ∀ w ∈ s.windowsOf p, ¬ (s.windows w).Overlaps base bytes

namespace SameGeometry

variable {s s' s₁ s₂ : State}

theorem of_windows_eq (h : s'.windows = s.windows) : SameGeometry s s' :=
  ⟨by rw [h], fun w _ => by rw [h], fun w _ => by rw [h]⟩

protected theorem trans (h : SameGeometry s s₁) (h' : SameGeometry s₁ s₂) : SameGeometry s s₂ where
  next := Nat.le_trans h.next h'.next
  start w hw := (h'.start w (Nat.lt_of_lt_of_le hw h.next)).trans (h.start w hw)
  size w hw := (h'.size w (Nat.lt_of_lt_of_le hw h.next)).trans (h.size w hw)

/-- Binding a window does not move it. -/
theorem of_bind {w : WindowRef} {v : Option ViewRef}
    (h : s'.windows = s.windows.update w (Window.bind v)) : SameGeometry s s' := by
  refine ⟨by rw [h]; exact Nat.le_refl _, fun w' _ => ?_, fun w' _ => ?_⟩
  · rw [h]
    exact s.windows.update_preserves Window.start rfl w'
  · rw [h]
    exact s.windows.update_preserves Window.size rfl w'

theorem of_alloc {x : Window} (h : s'.windows = s.windows.alloc x) : SameGeometry s s' := by
  refine ⟨by rw [h]; exact Nat.le_succ _, fun w hw => ?_, fun w hw => ?_⟩
  · rw [h, Heap.alloc_of_lt _ hw]
  · rw [h, Heap.alloc_of_lt _ hw]

/-- The range of an old window is the same. -/
theorem range_eq (h : SameGeometry s s') {w : WindowRef} (hw : w < s.windows.next) :
    s'.range w = s.range w := by
  simp only [State.range, h.start w hw, h.size w hw]

end SameGeometry

theorem dropWindow_windows (w : WindowRef) (u : UserProcess) :
    (dropWindow w u).windows.Subperm u.windows := by
  unfold dropWindow
  split
  · rename_i pos hpos
    obtain ⟨hlt, -⟩ := List.findIdx?_eq_some_iff_getElem.mp hpos
    exact ⟨_, (swapRemove_perm hlt).symm, List.eraseIdx_sublist _ _⟩
  · exact List.Subperm.refl _

namespace Shrunk

variable {s s' s₁ s₂ : State} {p : Nat}

theorem of_lists (hg : SameGeometry s s') (hi : ∀ c, s'.initialOf c = s.initialOf c)
    (hw : ∀ c, s'.windowsOf c = s.windowsOf c) : Shrunk s s' :=
  ⟨hg, fun c => by rw [State.windowList, hi, hw]; exact List.Subperm.refl _⟩

theorem of_links (h : SameLinks s s') : Shrunk s s' :=
  of_lists (.of_windows_eq h.windows) h.initialOf h.windowsOf

protected theorem refl (s : State) : Shrunk s s := of_links (.refl s)

protected theorem trans (h : Shrunk s s₁) (h' : Shrunk s₁ s₂) : Shrunk s s₂ :=
  ⟨h.toSameGeometry.trans h'.toSameGeometry, fun p => (h'.lists p).trans (h.lists p)⟩

theorem setHandleAt (s : State) (loc : HandleLoc) (x : Option RootServerResource) :
    Shrunk s (s.setHandleAt loc x) :=
  of_lists (.of_windows_eq (by simp)) (s.initialOf_setHandleAt loc x) (s.windowsOf_setHandleAt loc x)

/-- An update of a process that makes its lists no longer. -/
theorem updProc (s : State) (p : Nat) {f : UserProcess → UserProcess}
    (hf : ∀ u, ((f u).initialWindows ++ (f u).windows).Subperm (u.initialWindows ++ u.windows)) :
    Shrunk s (s.updProc p f) := by
  refine ⟨.of_windows_eq rfl, fun c => ?_⟩
  simp only [State.windowList, State.initialOf, State.windowsOf, State.procCells_updProc]
  by_cases hc : c = p
  · subst hc
    simp only [if_true]
    cases s.procCells c with
    | activeProcess u => exact hf u
    | zombieProcess pid => exact List.Subperm.refl _
  · simp only [hc, if_false]
    exact List.Subperm.refl _

theorem of_eq (hw : s'.windows = s.windows) (hp : s'.procCells = s.procCells) : Shrunk s s' :=
  of_lists (.of_windows_eq hw) (fun c => by simp only [State.initialOf, hp])
    (fun c => by simp only [State.windowsOf, hp])

theorem giveHandle (s : State) (p : Nat) (returnCap : Bool) (idx : Nat) (x : RootServerResource) :
    Shrunk s (s.giveHandle p returnCap idx x) := by
  refine (setHandleAt s _ _).trans (updProc _ p fun u => ?_)
  cases returnCap <;> exact List.Subperm.refl _

theorem windowDestroyed {w : WindowRef} {destroyView : Bool}
    (h : WindowDestroyed w destroyView s s') : Shrunk s s' := by
  rw [h.frame]
  exact of_eq rfl rfl

theorem unviewed {v : ViewRef} {o : ObjectRef} {pos : Nat} {r' : Res}
    (h : Unviewed v o pos r' s s') : Shrunk s s' := by
  rw [h.dissociated.eq]
  exact of_lists (.of_bind rfl) (fun _ => rfl) fun _ => rfl

theorem objMade {args : ObjCreateArgs} (h : ObjMade args s s') : Shrunk s s' := by
  have h₁ : Shrunk s (s.allocObject args) := of_eq rfl rfl
  refine h₁.trans ?_
  cases h.filled with
  | eager _ _ _ _ filled => exact of_links (.eagerFilled filled)
  | _ => exact of_eq rfl rfl

/-- No entry is of a window. -/
theorem entered (h : Entered s s') : Shrunk s s' := by
  induction h with
  | refl => exact .refl s
  | lists _ servers connections irqs _ _ ih => exact ih.trans (.of_eq rfl rfl)
  | handle _ loc x _ _ ih => exact ih.trans (.setHandleAt _ loc x)
  | created _ p idx ih => exact ih.trans (.updProc _ p fun _ => List.Subperm.refl _)

theorem awaits (s : State) (proc : Nat) (pid : Pid) : Shrunk s (s.awaits proc pid) :=
  (updProc s proc (f := fun u => { u with waiter := some s.reply })
    fun _ => List.Subperm.refl _).trans (of_links (.blockOn _ pid))

end Shrunk

namespace Added

variable {s s' s₁ s₂ : State} {p base bytes : Nat}

theorem trans_shrunk (h : Added p base bytes s s₁) (h' : Shrunk s₁ s') :
    Added p base bytes s s' where
  toSameGeometry := h.toSameGeometry.trans h'.toSameGeometry
  lt_next := Nat.lt_of_lt_of_le h.lt_next h'.next
  newStart := (h'.start _ h.lt_next).trans h.newStart
  newSize := (h'.size _ h.lt_next).trans h.newSize
  lists c hc := (h'.lists c).trans (h.lists c hc)
  list := (h'.lists p).trans h.list
  clear := h.clear

/-- `add_window_unchecked` of a window made since `s`. -/
theorem of_push (h : Shrunk s s₁) (hlt : s.windows.next < s₁.windows.next)
    (hstart : (s₁.windows s.windows.next).start = base)
    (hsize : (s₁.windows s.windows.next).size = bytes)
    (hclear : ∀ w ∈ s.windowsOf p, ¬ (s.windows w).Overlaps base bytes) :
    Added p base bytes s
      (s₁.updProc p fun u => { u with windows := u.windows ++ [s.windows.next] }) where
  toSameGeometry := h.toSameGeometry.trans (.of_windows_eq rfl)
  lt_next := hlt
  newStart := hstart
  newSize := hsize
  clear := hclear
  lists c hc := by
    refine List.Subperm.trans ?_ (h.lists c)
    simp only [State.windowList, State.initialOf, State.windowsOf, State.procCells_updProc, hc,
      if_false]
    exact List.Subperm.refl _
  list := by
    refine List.Subperm.trans ?_ ((List.subperm_append_right _).mpr (h.lists p))
    simp only [State.windowList, State.initialOf, State.windowsOf, State.procCells_updProc, if_true]
    cases s₁.procCells p with
    | activeProcess u =>
      simp only [ProcessType.map, List.append_assoc]
      exact List.Subperm.refl _
    | zombieProcess pid => exact List.nil_subperm

theorem windowCreated {args : WindowCreateArgs} (h : WindowCreated p args s s') :
    Added p args.baseVaddr args.size s s' := by
  obtain ⟨idx, -, -, rfl⟩ := h.made
  have h₀ : Shrunk s { s with windows := s.windows.alloc ⟨args.baseVaddr, args.size, none⟩ } :=
    .of_lists (.of_alloc rfl) (fun _ => rfl) fun _ => rfl
  have hw : ∀ (t : State), (t.giveHandle p args.returnCap idx (.window s.windows.next)).windows =
      t.windows := by
    intro t
    simp [State.giveHandle]
  refine of_push (h₀.trans (.giveHandle _ p _ idx _)) ?_ ?_ ?_ h.clear
  · rw [hw]; exact Nat.lt_succ_self _
  · rw [hw]; simp
  · rw [hw]; simp

theorem publishing {args : ConnPublishArgs} {f : Nat} {r₁ r₂ : Res}
    {object : AnonymousMemoryObject} {page : PageEntry}
    (h : Publishing p args f r₁ r₂ object page s s') :
    Added p args.ntfnBuffer pageSize4K s s' := by
  have h₀ : Shrunk s (s.linkRing args.ntfnBuffer) := by
    refine Shrunk.of_lists ?_ (fun _ => rfl) fun _ => rfl
    have hb : SameGeometry { s with
        windows := s.windows.alloc ⟨args.ntfnBuffer, pageSize4K, none⟩ }
        (s.linkRing args.ntfnBuffer) := .of_bind (w := s.windows.next) (v := some s.views.next) rfl
    exact (SameGeometry.of_alloc rfl).trans hb
  have hnew : (s.linkRing args.ntfnBuffer).windows s.windows.next =
      ⟨args.ntfnBuffer, pageSize4K, some s.views.next⟩ := by
    simp [State.linkRing, State.linkView, Window.bind]
  have h₁ : Shrunk s { s.linkRing args.ntfnBuffer with
      res := { r₂ with kernel := r₂.kernel.writeMem page.obj (s.initRing (r₂.kernel.mem page.obj)) }
      objects := (s.linkRing args.ntfnBuffer).objects.update s.objects.next fun _ => object } :=
    h₀.trans (.of_eq rfl rfl)
  rw [h.eq]
  refine (of_push h₁ (Nat.lt_succ_self _) ?_ ?_ h.clear).trans_shrunk
    (.updProc _ p fun u => List.Subperm.refl (u.initialWindows ++ u.windows))
  · exact congrArg Window.start hnew
  · exact congrArg Window.size hnew

end Added

/-! ## What a turn does to the lists -/

/-- The process and range of the window an operation asks for, when its address is
one that the handler takes. -/
def Op.newRange (s : State) : Op → Option (Pid × Nat × Nat)
  | .windowCreate pid args =>
    if args.baseVaddr % pageSize4K = 0 then some (pid, args.baseVaddr, args.size) else none
  | .connPublish pid args =>
    if args.ntfnBuffer % pageSize4K = 0 ∧ args.ntfnBuffer < s.res.kernel.userTop then
      some (pid, args.ntfnBuffer, pageSize4K)
    else none
  | _ => none

theorem turn_lists {s s' : State} {op : Op} (ht : Turn s op s') :
    Shrunk s s' ∨ ∃ pid p u base bytes, op.newRange s = some (pid, base, bytes) ∧
      Acting s pid p u ∧ Added p base bytes s s' := by
  cases ht with
  | refused => exact .inl (.refl s)
  | windowCreate p u act h =>
    exact .inr ⟨_, p, u, _, _, if_pos h.aligned, act, .windowCreated h⟩
  | windowDestroy p u loc w s₁ _ h =>
    rw [h.eq]
    refine .inl ((Shrunk.windowDestroyed h.destroyed).trans ((Shrunk.updProc s₁ p fun u => ?_).trans
      (.setHandleAt _ _ _)))
    have hi : (dropWindow w u).initialWindows = u.initialWindows := by
      unfold dropWindow
      split <;> rfl
    rw [hi]
    exact (List.subperm_append_left _).mpr (dropWindow_windows w u)
  | windowRegister p u srv w idx _ h =>
    rw [h.eq]
    refine .inl (Shrunk.trans ?_ (.setHandleAt _ _ _))
    exact .of_lists (.of_bind (w := w) rfl) (fun _ => rfl) fun _ => rfl
  | windowDeregister p u v r' _ h =>
    rw [h.eq]
    refine .inl (Shrunk.trans ?_ (.setHandleAt _ _ _))
    exact .of_lists (.of_bind rfl) (fun _ => rfl) fun _ => rfl
  | objCreate p u s₁ idx _ h _ _ => exact .inl ((Shrunk.objMade h).trans (.giveHandle _ _ _ _ _))
  | objLeft p u _ h => exact .inl (.objMade h)
  | objDestroy p u loc o r' _ h =>
    rw [h.eq]
    refine .inl (Shrunk.trans ?_ (.setHandleAt _ _ _))
    exact .of_eq rfl rfl
  | @view pid args _ p u w o idx _ h =>
    rw [h.eq]
    have h₀ : Shrunk s (s.linkView w o (args.newView w o)) :=
      .of_lists (.of_bind (w := w) rfl) (fun _ => rfl) fun _ => rfl
    exact .inl ((h₀.trans (.setHandleAt _ _ _)).trans
      (.updProc _ p fun u => List.Subperm.refl (u.initialWindows ++ u.windows)))
  | viewLeft p u w o _ _ _ =>
    exact .inl (.of_lists (.of_bind rfl) (fun _ => rfl) fun _ => rfl)
  | unview p u v o pos r' s₁ _ _ _ h => exact .inl ((Shrunk.unviewed h).trans (.setHandleAt _ _ _))
  | connPublish p u f r₁ r₂ object page s₁ idx srv act h h' =>
    refine .inr ⟨_, p, u, _, _, if_pos ⟨h.aligned, h.belowTop⟩, act,
      (Added.publishing h).trans_shrunk ?_⟩
    rw [h'.eq]
    refine Shrunk.trans ?_ (.setHandleAt _ _ _)
    exact .of_eq rfl rfl
  | connTried p u r' _ _ => exact .inl (.of_eq rfl rfl)
  | connLeft p u f r₁ r₂ object page act h =>
    exact .inr ⟨_, p, u, _, _, if_pos ⟨h.aligned, h.belowTop⟩, act, .publishing h⟩
  | pageMap p u dst src w cap slot cs k view s₁ s₂ _ h => exact .inl (.of_links (.pageMapped h))
  | loadComplete p u s₁ _ h =>
    exact .inl ((Shrunk.of_links (.allUnloaded h)).trans
      (.updProc _ p fun u => (List.sublist_append_right u.initialWindows u.windows).subperm))
  | faultServed p u s₁ _ h =>
    exact .inl (.of_links (((SameLinks.blockOn s _).trans (.faulted h)).trans (.resume _ _)))
  | faultLeft p u x s₁ r' reply _ h _ hn =>
    exact .inl (.of_links (((SameLinks.blockOn s _).trans (.faulted h)).trans (.renewed hn)))
  | registry p u _ h => exact .inl ((Shrunk.entered h.entered).trans (.of_eq rfl rfl))
  | connDestroy p u _ h => exact .inl ((Shrunk.entered h.entered).trans (.of_eq rfl rfl))
  | processWait p u proc r' reply _ hn =>
    exact .inl ((Shrunk.awaits s proc _).trans (.of_links (.renewed hn)))
  | takeNotification srv => exact .inl (.of_eq rfl rfl)
  | userWrite p u _ => exact .inl (.of_eq rfl rfl)

/-! ## The windows of a process stay apart -/

/-- The windows of every process are apart, and none wraps. -/
structure WindowsApart (s : State) : Prop where
  apart : ∀ p, Apart s.range (s.windowList p)
  noWrap : ∀ p, ∀ w ∈ s.windowList p, (s.windows w).start + (s.windows w).size < usizeBound

/-- A range that ends at an address, engulfs no window of the process, and stays
clear of its initial windows. -/
def ClearRange (s : State) (p base bytes : Nat) : Prop :=
  base + bytes < usizeBound ∧
  (∀ w ∈ s.windowsOf p, ¬ Engulfs base bytes (s.windows w).start (s.windows w).size) ∧
  ∀ w ∈ s.initialOf p, Disjoint (span (s.windows w).start (s.windows w).size) (span base bytes)

instance (s : State) (p base bytes : Nat) : Decidable (ClearRange s p base bytes) :=
  inferInstanceAs (Decidable (_ ∧ _ ∧ _))

/-- A range that an operation asks for and `overlapping_window` lets through is clear. -/
def ClearRequest (s : State) (op : Op) : Prop :=
  match op.newRange s with
  | none => True
  | some (pid, base, bytes) =>
    ∀ p, s.procs pid = some p →
      (∀ w ∈ s.windowsOf p, ¬ (s.windows w).Overlaps base bytes) → ClearRange s p base bytes

instance (s : State) (op : Op) : Decidable (ClearRequest s op) := by
  unfold ClearRequest
  split
  · exact inferInstanceAs (Decidable True)
  · rename_i pid base bytes _
    exact decidable_of_iff (∀ p ∈ s.procs pid, (∀ w ∈ s.windowsOf p,
      ¬ (s.windows w).Overlaps base bytes) → ClearRange s p base bytes) Iff.rfl

/-- Boot has laid out the initial windows of each process without overlap. -/
structure LoadedApart (s : State) : Prop extends Booted s where
  apart_initial : ∀ p, Apart s.range (s.initialOf p)
  noWrap : ∀ p, ∀ w ∈ s.initialOf p, (s.windows w).start + (s.windows w).size < usizeBound

theorem LoadedApart.windowsApart {s : State} (h : LoadedApart s) : WindowsApart s := by
  have hlist : ∀ p, s.windowList p = s.initialOf p := fun p => by
    rw [State.windowList, h.toBooted.windowsOf, List.append_nil]
  exact ⟨fun p => hlist p ▸ h.apart_initial p, fun p w hw => h.noWrap p w (hlist p ▸ hw)⟩

namespace WindowsApart

variable {s s' : State}

/-- Lists that only lose windows stay apart. -/
theorem shrunk (h : WindowsApart s) (hs : Sane s) (hl : Shrunk s s') : WindowsApart s' := by
  have hlt : ∀ p, ∀ w ∈ s'.windowList p, w ∈ s.windowList p ∧ w < s.windows.next := by
    intro p w hw
    have hw' := (hl.lists p).subset hw
    exact ⟨hw', hs.procWindows p w hw'⟩
  constructor
  · intro p
    exact ((h.apart p).of_subperm (hl.lists p)).congr fun w hw => hl.range_eq (hlt p w hw).2
  · intro p w hw
    obtain ⟨hw', hn⟩ := hlt p w hw
    rw [hl.start w hn, hl.size w hn]
    exact h.noWrap p w hw'

/-- A new range that passed the test and is clear of what the test misses. -/
theorem added (h : WindowsApart s) (hs : Sane s) {p base bytes : Nat}
    (ha : Added p base bytes s s') (hwrap : base + bytes < usizeBound)
    (hengulf : ∀ w ∈ s.windowsOf p, ¬ Engulfs base bytes (s.windows w).start (s.windows w).size)
    (hinitial : ∀ w ∈ s.initialOf p, Disjoint (s.range w) (span base bytes)) :
    WindowsApart s' := by
  have hold : ∀ c, ∀ w ∈ s.windowList c, w < s.windows.next := hs.procWindows
  have hnew : s'.range s.windows.next = span base bytes := by
    simp only [State.range, ha.newStart, ha.newSize]
  have hapart : ∀ c, Apart s'.range (s.windowList c) := fun c =>
    (h.apart c).congr fun w hw => ha.range_eq (hold c w hw)
  have hdisjoint : ∀ w ∈ s.windowList p, Disjoint (s'.range w) (s'.range s.windows.next) := by
    intro w hw
    rw [hnew, ha.range_eq (hold p w hw)]
    rcases List.mem_append.mp hw with hi | hw'
    · exact hinitial w hi
    · exact ((disjoint_span_iff_of_ends (ha.clear w hw')).mpr (hengulf w hw')).symm
  constructor
  · intro c
    by_cases hc : c = p
    · subst hc
      exact ((hapart c).concat hdisjoint).of_subperm ha.list
    · exact (hapart c).of_subperm (ha.lists c hc)
  · intro c w hw
    have hcase : w ∈ s.windowList c ∨ w = s.windows.next := by
      by_cases hc : c = p
      · subst hc
        rcases List.mem_append.mp (ha.list.subset hw) with hw' | hw'
        · exact .inl hw'
        · exact .inr (List.mem_singleton.mp hw')
      · exact .inl ((ha.lists c hc).subset hw)
    rcases hcase with hw' | rfl
    · rw [ha.start w (hold c w hw'), ha.size w (hold c w hw')]
      exact h.noWrap c w hw'
    · rw [ha.newStart, ha.newSize]
      exact hwrap

theorem turn (h : WindowsApart s) (hs : Sane s) {op : Op} (hg : ClearRequest s op)
    (ht : Turn s op s') : WindowsApart s' := by
  rcases turn_lists ht with hl | ⟨pid, p, u, base, bytes, hop, act, ha⟩
  · exact h.shrunk hs hl
  · unfold ClearRequest at hg
    rw [hop] at hg
    obtain ⟨hwrap, hengulf, hinitial⟩ := hg p act.cell ha.clear
    exact h.added hs ha hwrap hengulf hinitial

end WindowsApart

/-- Without a wrap, `find_window_containing` answers. -/
theorem findWindowContaining_answers {s : State} {p : Nat} {u : UserProcess}
    (hu : s.procCells p = .activeProcess u)
    (hwrap : ∀ w ∈ s.windowList p, (s.windows w).start + (s.windows w).size < usizeBound)
    (vaddr : Nat) : (findWindowContaining p vaddr : Handler (Option WindowRef)) s =
      .ok ((s.windowList p).find? fun w => decide ((s.windows w).Contains vaddr)) s := by
  have hlist : s.windowList p = u.initialWindows ++ u.windows := by
    simp only [State.windowList, State.initialOf, State.windowsOf, hu]
  rw [hlist] at hwrap ⊢
  have hw : (findWindow vaddr (u.initialWindows ++ u.windows) : Handler (Option WindowRef)).wp
      (fun x s' => s' = s ∧ x = (u.initialWindows ++ u.windows).find?
        fun w => decide ((s.windows w).Contains vaddr)) (fun _ _ => False) (fun _ => False) s := by
    refine Prog.wp_mono (findWindow_spec s vaddr _) (fun _ _ h => h) (fun _ _ h => h) ?_
    rintro _ ⟨-, w, hw, hle⟩
    exact absurd (hwrap w hw) (not_lt.mpr hle)
  have hc : (findWindowContaining p vaddr : Handler (Option WindowRef)).wp
      (fun x s' => s' = s ∧ x = (u.initialWindows ++ u.windows).find?
        fun w => decide ((s.windows w).Contains vaddr)) (fun _ _ => False) (fun _ => False) s := by
    simp only [findWindowContaining, Prog.wp_bind, wp_getProc, hu, ProcessType.activeProcess.injEq,
      forall_eq', reduceCtorEq, false_implies, implies_true, and_true]
    exact hw
  obtain ⟨x, s', hx, rfl, rfl⟩ := Prog.exists_ok hc
  exact hx

/-! ## Every run -/

instance (s : State) (w : WindowRef) (vaddr : Nat) : Decidable (vaddr ∈ s.range w) :=
  inferInstanceAs (Decidable ((s.windows w).Contains vaddr))

/-- In a run whose new ranges are clear, the windows of a process stay apart, and a
search by address finds the one window that holds the address. -/
theorem windows_apart {ops : List Op} {s : State}
    (run : Run LoadedApart next ClearRequest ops s) {p : Nat} {u : UserProcess}
    (hu : s.procCells p = .activeProcess u) :
    Apart s.range (u.initialWindows ++ u.windows) ∧
    (∀ w ∈ u.initialWindows ++ u.windows,
      (s.windows w).start + (s.windows w).size < usizeBound) ∧
    ∀ vaddr, ∃ x, (findWindowContaining p vaddr : Handler (Option WindowRef)) s = .ok x s ∧
      ∀ w, x = some w ↔
        w ∈ u.initialWindows ++ u.windows ∧ (s.windows w).Contains vaddr := by
  obtain ⟨-, hw⟩ := run_invariant (I := WindowsApart) (fun _ h => h.toBooted)
    (fun _ h => h.windowsApart) (fun _ _ _ hs hi hg _ ht => hi.turn hs hg ht) run
  have hlist : s.windowList p = u.initialWindows ++ u.windows := by
    simp only [State.windowList, State.initialOf, State.windowsOf, hu]
  refine ⟨hlist ▸ hw.apart p, hlist ▸ hw.noWrap p, fun vaddr => ?_⟩
  refine ⟨_, findWindowContaining_answers hu (hw.noWrap p) vaddr, fun w => ?_⟩
  rw [← hlist]
  exact (hw.apart p).find?_eq_some_iff

theorem demo_loadedApart : LoadedApart demo := by
  have hnone : ∀ p, demo.initialOf p = [] := by
    intro p
    cases hp : demo.procCells p with
    | zombieProcess pid => simp only [State.initialOf, hp]
    | activeProcess u =>
      rcases demo_processes hp with ⟨-, rfl⟩ | ⟨-, rfl⟩ <;> simp only [State.initialOf, hp] <;> rfl
  refine ⟨demo_booted, fun p => ?_, fun p w hw => ?_⟩
  · rw [hnone]
    exact List.Pairwise.nil
  · rw [hnone] at hw
    cases hw

/-- Two adjacent windows of one process, and a ring of the other. -/
def demoAdjacent : List Op :=
  [.windowCreate 0 ⟨0x10000000, 0x1000, false⟩, .windowCreate 0 ⟨0x10001000, 0x3000, false⟩,
    .connPublish 1 ⟨"ring", 0x10000000⟩]

theorem windows_apart_demo : ∃ s, Run LoadedApart next ClearRequest demoAdjacent s ∧
    ∃ u, s.procCells 0 = .activeProcess u ∧ u.windows = [0, 1] ∧
      Apart s.range (u.initialWindows ++ u.windows) := by
  obtain ⟨s, run, hw⟩ := demo_reaches demo_loadedApart ClearRequest demoAdjacent
    (fun s => s.windowsOf 0 = [0, 1]) (by decide +kernel) (by decide +kernel)
  refine ⟨s, run, ?_⟩
  unfold State.windowsOf at hw
  cases hu : s.procCells 0 with
  | zombieProcess pid => simp [hu] at hw
  | activeProcess u =>
    rw [hu] at hw
    exact ⟨u, rfl, hw, (windows_apart run hu).1⟩

/-- The second window swallows the first. -/
def demoEngulfing : List Op :=
  [.windowCreate 0 ⟨0x10000000, 0x1000, false⟩, .windowCreate 0 ⟨0x0FFFF000, 0x3000, false⟩]

theorem windows_overlap : ¬ ∀ (ops : List Op) (s : State),
    Run LoadedApart next (fun _ _ => True) ops s →
    ∀ p u, s.procCells p = .activeProcess u → Apart s.range (u.initialWindows ++ u.windows) := by
  intro h
  obtain ⟨s, run, hw, hr⟩ := demo_reaches demo_loadedApart (fun _ _ => True) demoEngulfing
    (fun s => s.windowsOf 0 = [0, 1] ∧ 0x10000000 ∈ s.range 0 ∧ 0x10000000 ∈ s.range 1)
    (by decide +kernel) (by decide +kernel)
  unfold State.windowsOf at hw
  cases hu : s.procCells 0 with
  | zombieProcess pid => simp [hu] at hw
  | activeProcess u =>
    rw [hu] at hw
    have hwindows : u.windows = [0, 1] := hw
    have hd := h _ s run 0 u hu
    rw [hwindows] at hd
    have h01 : (0 : WindowRef) = 1 := hd.eq_of_mem (by simp) (by simp) hr.1 hr.2
    cases h01

end Smos.RootServer
