/-
Smos.RootServer.ForwardedFaults — faults that a server answers.

A fault on a window that a server manages is kept as its view's pending fault
until a `PageMap` of the server answers it. The states between are `Awaited`:
the process of a pending fault, and no other, waits on the reply object the
fault is kept with. The kernel's log of a turn then says what was mapped where,
and who was answered.

`handle_page_map` maps the page it is given at the address of the pending
fault, whichever page of the view that is, so what it maps is right where the
server answers a fault with the page that faulted (`Op.Answers`).
-/
import Smos.RootServer.SharingTurns
import Smos.RootServer.WindowRanges

namespace Smos.RootServer

open Smos.Base

/-! ## Waiting for an answer -/

/-- The process waits, alone, for the answer to the pending fault of the view. -/
structure Faulting (s : State) (v : ViewRef) (f : PendingFault) (pid : Pid) : Prop where
  waits : s.res.kernel.waiting.filter (fun e => e.1 == f.reply.1) = [(f.reply.1, pid)]
  proc : ∃ p u, s.procs pid = some p ∧ s.procCells p = .activeProcess u ∧ f.vspace = u.vspace.1 ∧
    (s.views v).boundWindow ∈ s.windowList p
  addr : (s.windows (s.views v).boundWindow).start ≤ f.addr

/-- Windows start at pages, and a view is bound to the window it names. -/
structure Tidy (s : State) : Prop where
  starts : ∀ w, (s.windows w).start % pageSize4K = 0
  bound : ∀ w v, (s.windows w).boundView = some v →
    v < s.views.next ∧ (s.views v).boundWindow = w

/-- A window is one process's, and a process has an address space. -/
structure Settled (s : State) : Prop where
  own : ∀ p p' w, w ∈ s.windowList p → w ∈ s.windowList p' → p = p'
  cells : ∀ pid pid' p, s.procs pid = some p → s.procs pid' = some p → pid = pid'
  tidy : Tidy s
  spaces : ∀ p u, s.procCells p = .activeProcess u → s.res.cspace.Allocated u.vspace.1 ∧
    ∃ vs, s.res.kernel.caps u.vspace.1 = some (.vspace vs)

/-- Between two turns. -/
structure Awaited (s : State) : Prop where
  settled : Settled s
  held : ∀ e ∈ s.res.kernel.waiting, s.res.cspace.Allocated e.1
  spare : ∀ e ∈ s.res.kernel.waiting, e.1 ≠ s.reply.1
  once : (s.res.kernel.waiting.map Prod.snd).Nodup
  pending : ∀ v f, (s.views v).pendingFault = some f → ∃ pid, Faulting s v f pid

/-! ## Answering with the page that faulted -/

/-- The offset of the page that faulted, in the window of the view a registration is of. -/
def State.faultedPage (s : State) (pid : Pid) (hndl : Nat) : Option Nat := do
  let p ← s.procs pid
  match s.handleAt (.table p hndl) with
  | some (.windowRegistration v) =>
    let f ← (s.views v).pendingFault
    pure (roundDown (f.addr - (s.windows (s.views v).boundWindow).start))
  | _ => none

/-- A `PageMap` that answers a fault maps the page that faulted. -/
def Op.Answers (s : State) : Op → Prop
  | .pageMap pid args =>
    ∀ page ∈ s.faultedPage pid args.windowRegistrationHndl, args.viewOffset = page
  | _ => True

instance (s : State) : ∀ op : Op, Decidable (op.Answers s)
  | .pageMap _ _ => inferInstanceAs (Decidable (∀ page ∈ _, _ = page))
  | .windowDestroy _ _ | .windowDeregister _ _ | .objDestroy _ _ | .unview _ _
  | .loadComplete _ | .processExit _ _ | .windowCreate _ _ | .windowRegister _ _
  | .objCreate _ _ _ | .view _ _ | .connPublish _ _ | .registry _ _ | .connDestroy _ _
  | .processWait _ _ | .vmFault _ _ | .takeNotification _ | .userWrite _ _ _ => .isTrue trivial

theorem Op.Answers.page {s : State} {pid : Pid} {args : PageMapArgs} {p : Nat} {v : ViewRef}
    {f : PendingFault} (h : (Op.pageMap pid args).Answers s) (hp : s.procs pid = some p)
    (hv : s.handleAt (.table p args.windowRegistrationHndl) = some (.windowRegistration v))
    (hf : (s.views v).pendingFault = some f) :
    args.viewOffset = roundDown (f.addr - (s.windows (s.views v).boundWindow).start) :=
  h _ (by simp [State.faultedPage, hp, hv, hf])

/-! ## What a turn logs -/

/-- Frames are mapped for the root server itself only. -/
def RootMaps (evs : List KernelEvent) : Prop :=
  ∀ ev ∈ evs, ∃ slot vaddr e, ev = .map slot rootVSpace vaddr e

theorem RootMaps.append {evs evs' : List KernelEvent} (h : RootMaps evs) (h' : RootMaps evs') :
    RootMaps (evs ++ evs') := by
  intro ev hev
  rcases List.mem_append.mp hev with hev | hev
  · exact h ev hev
  · exact h' ev hev

/-- Every mapping into the address space of a process is of the page that a view has, at the
place of that page in the view's window, which is one of the process's. -/
def MapsRight (s s' : State) (evs : List KernelEvent) : Prop :=
  ∀ slot vs vaddr e, .map slot vs vaddr e ∈ evs → vs ≠ rootVSpace →
    ∃ p u v offset, s'.procCells p = .activeProcess u ∧
      s.res.kernel.caps u.vspace.1 = some (.vspace vs) ∧
      (s'.views v).boundWindow ∈ s'.windowList p ∧ (s'.views v).lookupCap offset = some slot ∧
      vaddr = roundDown ((s'.windows (s'.views v).boundWindow).start + offset)

/-- The fault is answered in this turn: its own page, then the reply, and that is it. -/
structure Answering (s s' : State) (evs : List KernelEvent) (v : ViewRef) (f : PendingFault) :
    Prop where
  events : ∃ evs₀ slot vs e pid, RootMaps evs₀ ∧ Faulting s v f pid ∧
    evs = evs₀ ++ [.map slot vs (roundDown f.addr) e, .reply f.reply.1 pid] ∧
    (s'.views v).lookupCap (f.addr - (s'.windows (s'.views v).boundWindow).start) = some slot ∧
    s'.res.kernel.blocked pid = false
  done : (s'.views v).pendingFault = none

/-- What the turn does with the faults that were forwarded and with the one it is. -/
structure FaultsTurn (s s' : State) (op : Op) (evs : List KernelEvent) : Prop where
  maps : MapsRight s s' evs
  pending : ∀ v f, (s.views v).pendingFault = some f →
    (s'.views v).pendingFault = some f ∧ (∀ pid, .reply f.reply.1 pid ∉ evs) ∨
      Answering s s' evs v f
  forwarded : ∀ v f, (s'.views v).pendingFault = some f → (s.views v).pendingFault = some f ∨
    ∃ pid, op = .vmFault pid f.addr ∧ (s.views v).pendingFault = none ∧ Faulting s' v f pid

/-! ## Turns that leave the faults alone -/

/-- Nothing has happened to the faults. -/
structure Idle (s s' : State) : Prop where
  waiting : s'.res.kernel.waiting = s.res.kernel.waiting
  allocated : ∀ c, s.res.cspace.Allocated c → s'.res.cspace.Allocated c
  reply : s'.reply = s.reply
  procs : s'.procs = s.procs
  vspace : ∀ p u', s'.procCells p = .activeProcess u' →
    ∃ u, s.procCells p = .activeProcess u ∧ u'.vspace = u.vspace
  active : ∀ p u, s.procCells p = .activeProcess u →
    ∃ u', s'.procCells p = .activeProcess u' ∧ u'.vspace = u.vspace
  lists : ∀ p w, w ∈ s.windowList p → w ∈ s'.windowList p
  pending : ∀ v, (s'.views v).pendingFault = (s.views v).pendingFault
  viewsNext : s.views.next ≤ s'.views.next
  boundWindow : ∀ v, v < s.views.next → (s'.views v).boundWindow = (s.views v).boundWindow
  tidy : Tidy s → Tidy s'
  log : ∃ evs, s'.res.kernel.log = s.res.kernel.log ++ evs ∧ RootMaps evs

/-- The kernel has gone on, but no thread waits or is answered, and no process is mapped a page. -/
structure Still (r r' : Res) : Prop where
  waiting : r'.kernel.waiting = r.kernel.waiting
  allocated : ∀ c, r.cspace.Allocated c → r'.cspace.Allocated c
  log : ∃ evs, r'.kernel.log = r.kernel.log ++ evs ∧ RootMaps evs

theorem Still.of_grow {r r' : Res} (h : Grow r r') : Still r r' := ⟨h.waiting, h.allocated, h.log⟩

theorem Still.of_kernel {r r' : Res} (hw : r'.kernel.waiting = r.kernel.waiting)
    (hl : r'.kernel.log = r.kernel.log) (hc : r'.cspace = r.cspace) : Still r r' :=
  ⟨hw, fun c h => by rwa [hc], [], by rw [hl, List.append_nil], by simp [RootMaps]⟩

protected theorem Still.refl (r : Res) : Still r r := .of_kernel rfl rfl rfl

namespace Idle

variable {s s' s₁ : State} {p : Nat}

/-- Windows, processes and what matters of the views are the same. -/
theorem of_still (hres : Still s.res s'.res) (hr : s'.reply = s.reply) (hp : s'.procs = s.procs)
    (hc : s'.procCells = s.procCells) (hw : s'.windows = s.windows)
    (hn : s'.views.next = s.views.next)
    (hv : ∀ v, (s'.views v).pendingFault = (s.views v).pendingFault)
    (hb : ∀ v, (s'.views v).boundWindow = (s.views v).boundWindow) : Idle s s' where
  waiting := hres.waiting
  allocated := hres.allocated
  reply := hr
  procs := hp
  vspace p u' hu := ⟨u', by rw [← hc]; exact hu, rfl⟩
  active p u hu := ⟨u, by rw [hc]; exact hu, rfl⟩
  lists p w hmem := by
    simpa only [State.windowList, State.initialOf, State.windowsOf, hc] using hmem
  pending := hv
  viewsNext := Nat.le_of_eq hn.symm
  boundWindow v _ := hb v
  tidy h := ⟨fun w => by rw [hw]; exact h.starts w, fun w v hbv => by
    rw [hw] at hbv
    rw [hn, hb]
    exact h.bound w v hbv⟩
  log := hres.log

/-- Nothing that matters here has changed. -/
theorem congr (hres : Still s.res s'.res) (hr : s'.reply = s.reply) (hp : s'.procs = s.procs)
    (hc : s'.procCells = s.procCells) (hw : s'.windows = s.windows) (hv : s'.views = s.views) :
    Idle s s' :=
  of_still hres hr hp hc hw (by rw [hv]) (fun _ => by rw [hv]) fun _ => by rw [hv]

protected theorem refl (s : State) : Idle s s := congr (.refl _) rfl rfl rfl rfl rfl

protected theorem trans (h : Idle s s₁) (h' : Idle s₁ s') : Idle s s' where
  waiting := h'.waiting.trans h.waiting
  allocated c hc := h'.allocated c (h.allocated c hc)
  reply := h'.reply.trans h.reply
  procs := h'.procs.trans h.procs
  vspace p u' hu := by
    obtain ⟨u₁, hu₁, heq₁⟩ := h'.vspace p u' hu
    obtain ⟨u, hu, heq⟩ := h.vspace p u₁ hu₁
    exact ⟨u, hu, heq₁.trans heq⟩
  active p u hu := by
    obtain ⟨u₁, hu₁, heq⟩ := h.active p u hu
    obtain ⟨u', hu', heq'⟩ := h'.active p u₁ hu₁
    exact ⟨u', hu', heq'.trans heq⟩
  lists p w hw := h'.lists p w (h.lists p w hw)
  pending v := (h'.pending v).trans (h.pending v)
  viewsNext := Nat.le_trans h.viewsNext h'.viewsNext
  boundWindow v hv :=
    (h'.boundWindow v (Nat.lt_of_lt_of_le hv h.viewsNext)).trans (h.boundWindow v hv)
  tidy ht := h'.tidy (h.tidy ht)
  log := by
    obtain ⟨evs, hl, hroot⟩ := h.log
    obtain ⟨evs', hl', hroot'⟩ := h'.log
    exact ⟨evs ++ evs', by rw [hl', hl, List.append_assoc], hroot.append hroot'⟩

/-! ### Effects -/

theorem withRes {r : Res} (h : Still s.res r) : Idle s { s with res := r } :=
  congr h rfl rfl rfl rfl rfl

theorem grow {r : Res} (h : Grow s.res r) : Idle s { s with res := r } := withRes (.of_grow h)

/-- A process keeps its address space, and its windows. -/
theorem updProc (s : State) (p : Nat) {f : UserProcess → UserProcess}
    (hv : ∀ u, (f u).vspace = u.vspace) (hi : ∀ u, (f u).initialWindows = u.initialWindows)
    (hw : ∀ u, ∀ w ∈ u.windows, w ∈ (f u).windows) : Idle s (s.updProc p f) where
  waiting := rfl
  allocated _ h := h
  reply := rfl
  procs := rfl
  vspace c u' hu := by
    simp only [State.procCells_updProc] at hu
    split at hu
    · rename_i hc
      subst hc
      cases hcell : s.procCells c with
      | activeProcess u =>
        rw [hcell] at hu
        cases hu
        exact ⟨u, rfl, hv u⟩
      | zombieProcess pid =>
        rw [hcell] at hu
        cases hu
    · exact ⟨u', hu, rfl⟩
  active c u hu := by
    simp only [State.procCells_updProc]
    split
    · rename_i hc
      subst hc
      exact ⟨f u, by rw [hu]; rfl, hv u⟩
    · exact ⟨u, hu, rfl⟩
  lists c w hmem := by
    simp only [State.windowList, State.initialOf, State.windowsOf, State.procCells_updProc]
      at hmem ⊢
    by_cases hc : c = p
    · subst hc
      simp only [if_true]
      cases hcell : s.procCells c with
      | activeProcess u =>
        rw [hcell] at hmem
        simp only [ProcessType.map, hi, List.mem_append] at hmem ⊢
        exact hmem.imp_right (hw u w)
      | zombieProcess pid =>
        rw [hcell] at hmem
        exact hmem
    · simp only [if_neg hc]
      exact hmem
  pending _ := rfl
  viewsNext := Nat.le_refl _
  boundWindow _ _ := rfl
  tidy h := ⟨h.starts, h.bound⟩
  log := ⟨[], by simp, by simp [RootMaps]⟩

/-- A process is waited for. -/
theorem waiter (s : State) (proc : Nat) :
    Idle s (s.updProc proc fun u => { u with waiter := some s.reply }) :=
  updProc s proc (fun _ => rfl) (fun _ => rfl) fun _ _ hw => hw

theorem setHandleAt (s : State) (loc : HandleLoc) (x : Option RootServerResource) :
    Idle s (s.setHandleAt loc x) := by
  cases loc with
  | table p idx => exact updProc s p (fun _ => rfl) (fun _ => rfl) fun _ _ h => h
  | cap idx => exact congr (.refl _) rfl rfl rfl rfl rfl

theorem giveHandle (s : State) (p : Nat) (returnCap : Bool) (idx : Nat) (x : RootServerResource) :
    Idle s (s.giveHandle p returnCap idx x) := by
  refine (setHandleAt s _ _).trans (updProc _ p ?_ ?_ ?_)
  · intro u
    unfold recordCap
    split <;> rfl
  · intro u
    unfold recordCap
    split <;> rfl
  · intro u w h
    unfold recordCap
    split <;> exact h

/-- A new window, at a page. -/
theorem allocWindow (s : State) {x : Window} (hx : x.start % pageSize4K = 0)
    (hb : x.boundView = none) : Idle s { s with windows := s.windows.alloc x } where
  waiting := rfl
  allocated _ h := h
  reply := rfl
  procs := rfl
  vspace p u' hu := ⟨u', hu, rfl⟩
  active p u hu := ⟨u, hu, rfl⟩
  lists _ _ h := h
  pending _ := rfl
  viewsNext := Nat.le_refl _
  boundWindow _ _ := rfl
  tidy h := by
    have hnew : ∀ w, (s.windows.alloc x) w = s.windows w ∨ (s.windows.alloc x) w = x := by
      intro w
      by_cases hw : w = s.windows.next
      · subst hw
        exact .inr (s.windows.alloc_self x)
      · exact .inl (s.windows.alloc_of_ne hw x)
    constructor
    · intro w
      rcases hnew w with heq | heq
      · simp only [heq]
        exact h.starts w
      · simp only [heq]
        exact hx
    · intro w v hbv
      rcases hnew w with heq | heq
      · simp only [heq] at hbv
        exact h.bound w v hbv
      · simp only [heq, hb] at hbv
        cases hbv
  log := ⟨[], by simp, by simp [RootMaps]⟩

/-- A new view is bound to a window; it has no pending fault. -/
theorem bindView (hs : Sane s) {x : View} (hx : x.pendingFault = none)
    (hviews : s'.views = s.views.alloc x)
    (hwindows : s'.windows = s.windows.update x.boundWindow (Window.bind (some s.views.next)))
    (hres : s'.res = s.res) (hr : s'.reply = s.reply) (hp : s'.procs = s.procs)
    (hc : s'.procCells = s.procCells) : Idle s s' where
  waiting := by rw [hres]
  allocated c h := by rwa [hres]
  reply := hr
  procs := hp
  vspace p u' hu := ⟨u', by rw [← hc]; exact hu, rfl⟩
  active p u hu := ⟨u, by rw [hc]; exact hu, rfl⟩
  lists p w hmem := by
    simpa only [State.windowList, State.initialOf, State.windowsOf, hc] using hmem
  pending v := by
    rw [hviews]
    by_cases hv : v = s.views.next
    · subst hv
      rw [Heap.alloc_self, hx, hs.blankView _ (Nat.le_refl _)]
      rfl
    · rw [Heap.alloc_of_ne _ hv]
  viewsNext := by
    rw [hviews]
    exact Nat.le_succ _
  boundWindow v hv := by rw [hviews, Heap.alloc_of_lt _ hv]
  tidy h := by
    constructor
    · intro w
      rw [hwindows]
      refine Eq.trans (congrArg (· % pageSize4K) ?_) (h.starts w)
      exact s.windows.update_preserves (r := x.boundWindow) Window.start
        (f := Window.bind (some s.views.next)) rfl w
    · intro w v hbv
      rw [hwindows, Heap.update_apply] at hbv
      rw [hviews]
      split at hbv
      · rename_i heq
        cases hbv
        refine ⟨Nat.lt_succ_self _, ?_⟩
        rw [Heap.alloc_self]
        exact heq.symm
      · obtain ⟨hlt, hw⟩ := h.bound w v hbv
        refine ⟨Nat.lt_succ_of_lt hlt, ?_⟩
        rw [Heap.alloc_of_lt _ hlt]
        exact hw
  log := ⟨[], by rw [hres, List.append_nil], by simp [RootMaps]⟩

theorem linkView (hs : Sane s) {w : WindowRef} (o : ObjectRef) {x : View}
    (hx : x.pendingFault = none) (hw : x.boundWindow = w) : Idle s (s.linkView w o x) := by
  subst hw
  exact bindView hs hx rfl rfl rfl rfl rfl rfl

theorem eagerFilled {o : ObjectRef} {is : List Nat} (hf : EagerFilled o is s s') : Idle s s' := by
  induction hf with
  | nil s => exact .refl s
  | @cons i is s s₂ f r object alloc insert rest ih =>
    have h₁ : Idle s { s with res := r, objects := s.objects.update o fun _ => object } :=
      congr (.of_grow alloc.grow) rfl rfl rfl rfl rfl
    exact h₁.trans ih

theorem objMade {args : ObjCreateArgs} (hm : ObjMade args s s') : Idle s s' := by
  have h₀ : Idle s (s.allocObject args) := congr (.refl _) rfl rfl rfl rfl rfl
  refine h₀.trans ?_
  have hfilled := hm.filled
  generalize s.allocObject args = s₀ at hfilled
  cases hfilled with
  | device paddr fs r object _ memory inserted =>
    have hg : Grow s₀.res r := by
      cases memory with
      | cached => exact .refl _
      | made r₁ frames => exact frames.quiet.grow.congr rfl rfl
    exact congr (.of_grow hg) rfl rfl rfl rfl rfl
  | contiguous => exact congr (.refl _) rfl rfl rfl rfl rfl
  | eager _ _ _ _ filled => exact eagerFilled filled
  | empty => exact .refl _

theorem copied {v : ViewRef} {offset : Nat} {src slot : Slot} {cs : CSpace} {k : Kernel}
    {view : View} (hc : Copied v offset src s s' slot cs k view) : Idle s s' := by
  obtain ⟨t, -, hview⟩ := insertCapAt_ok hc.insert
  obtain ⟨_, _, -, -, hk, -⟩ := Kernel.copy_ok hc.copy
  have hres : Still s.res { s.res with cspace := cs, kernel := k } := by
    subst hk
    exact ⟨rfl, fun c h => (hc.allocated c).mpr (.inl h), [], by simp [Kernel.setCap],
      by simp [RootMaps]⟩
  rw [hc.eq, hview]
  refine of_still hres rfl rfl rfl rfl rfl ?_ ?_
  · exact s.views.update_preserves (r := v) View.pendingFault
      (f := fun _ => { s.views v with caps := t }) rfl
  · exact s.views.update_preserves (r := v) View.boundWindow
      (f := fun _ => { s.views v with caps := t }) rfl

theorem sourcePage {v : ViewRef} {offset : Nat} (hp : SourcePage v offset s s') : Idle s s' := by
  cases hp with
  | there => exact .refl s
  | filled o s' _ _ populated =>
    obtain ⟨-, cap, s₁, slot, cs, k, view, hgot, hc⟩ := populated
    refine Idle.trans ?_ (copied hc)
    cases hgot with
    | found => exact .refl s
    | made f r object page _ alloc _ _ _ =>
      have h₁ : Idle s { s with res := r } := grow alloc.grow
      exact h₁.trans (congr (.of_kernel rfl rfl rfl) rfl rfl rfl rfl rfl)

theorem published {args : ConnPublishArgs} {f idx : Nat} {srv : Server} {s₀ : State}
    (hp : Published p args f idx srv s₀ s s') : Idle s s' := by
  have heq := hp.eq
  subst heq
  have h₁ : Idle s { s with
      servers := s.servers.alloc srv
      published := s.published ++ [(args.name, s.servers.next)] } :=
    congr (.refl _) rfl rfl rfl rfl rfl
  exact h₁.trans (setHandleAt _ _ _)

theorem linkRing (hs : Sane s) {base : Nat} (hb : base % pageSize4K = 0) :
    Idle s (s.linkRing base) := by
  have h₁ := allocWindow s (x := ⟨base, pageSize4K, none⟩) hb rfl
  have h₂ : Idle s { s with
      windows := s.windows.alloc ⟨base, pageSize4K, none⟩
      objects := s.objects.alloc (.new pageSize4K .all .default) } :=
    h₁.trans (congr (.refl _) rfl rfl rfl rfl rfl)
  have hs₂ := (hs.allocWindow (x := ⟨base, pageSize4K, none⟩) rfl).allocObject
    (x := .new pageSize4K .all .default) rfl
  exact h₂.trans (linkView hs₂ s.objects.next
    (x := View.new s.windows.next (some s.objects.next) none .all 0 0) rfl rfl)

theorem publishing (hs : Sane s) {args : ConnPublishArgs} {f : Nat} {r₁ r₂ : Res}
    {object : AnonymousMemoryObject} {page : PageEntry}
    (hp : Publishing p args f r₁ r₂ object page s s') : Idle s s' := by
  have h₁ := (linkRing hs hp.aligned).trans (grow (hp.tried.grow.trans hp.frame.grow))
  have h₂ : Idle s { s.linkRing args.ntfnBuffer with
      res := { r₂ with kernel := r₂.kernel.writeMem page.obj (s.initRing (r₂.kernel.mem page.obj)) }
      objects := (s.linkRing args.ntfnBuffer).objects.update s.objects.next fun _ => object } :=
    h₁.trans (congr (.of_kernel rfl rfl rfl) rfl rfl rfl rfl rfl)
  have h₃ := h₂.trans (updProc _ p
    (f := fun u => { u with windows := u.windows ++ [s.windows.next] }) (fun _ => rfl)
    (fun _ => rfl) fun _ _ h => List.mem_append_left _ h)
  rw [hp.eq]
  exact h₃.trans (updProc _ p (f := fun u => { u with views := u.views ++ [s.views.next] })
    (fun _ => rfl) (fun _ => rfl) fun _ _ h => h)

theorem windowCreated {args : WindowCreateArgs} (hc : WindowCreated p args s s') : Idle s s' := by
  obtain ⟨hal, -, idx, -, -, rfl⟩ := hc
  have h₁ := allocWindow s (x := ⟨args.baseVaddr, args.size, none⟩) hal rfl
  have h₂ := h₁.trans (giveHandle _ p args.returnCap idx (.window s.windows.next))
  exact h₂.trans (updProc _ p
    (f := fun u => { u with windows := u.windows ++ [s.windows.next] }) (fun _ => rfl)
    (fun _ => rfl) fun _ _ h => List.mem_append_left _ h)

theorem windowRegistered (hs : Sane s) {args : WindowRegisterArgs} {srv : ServerRef}
    {w : WindowRef} {idx : Nat} (hr : WindowRegistered p args srv w idx s s') : Idle s s' := by
  have heq := hr.eq
  subst heq
  have h₁ : Idle s { s with
      views := s.views.alloc
        (View.new w none (some (srv, args.clientId, args.reference)) .all 0 0)
      windows := s.windows.update w (Window.bind (some s.views.next)) } :=
    bindView hs (x := View.new w none (some (srv, args.clientId, args.reference)) .all 0 0)
      rfl rfl rfl rfl rfl rfl rfl
  exact h₁.trans (setHandleAt _ _ _)

/-- Entries are of no window and of no view. -/
theorem entered (h : Entered s s') : Idle s s' := by
  induction h with
  | refl => exact .refl s
  | lists _ servers connections irqs _ _ ih =>
    exact ih.trans (congr (.refl _) rfl rfl rfl rfl rfl)
  | handle _ loc x _ _ ih => exact ih.trans (setHandleAt _ loc x)
  | created _ p idx ih =>
    exact ih.trans (updProc _ p (fun _ => rfl) (fun _ => rfl) fun _ _ hw => hw)

theorem beside (h : Beside s s') : Idle s s' :=
  (entered h.entered).trans (grow (s := { s' with res := s.res }) h.quiet.grow)

theorem userWrite (s : State) (vspace : Slot) (vaddr byte : Nat) : Idle s { s with
    res := { s.res with kernel := s.res.kernel.userWrite vspace vaddr byte } } := by
  have hk : (s.res.kernel.userWrite vspace vaddr byte).waiting = s.res.kernel.waiting ∧
      (s.res.kernel.userWrite vspace vaddr byte).log = s.res.kernel.log := by
    unfold Kernel.userWrite
    split
    · split
      · split <;> exact ⟨rfl, rfl⟩
      · exact ⟨rfl, rfl⟩
    · exact ⟨rfl, rfl⟩
  exact withRes (.of_kernel hk.1 hk.2 rfl)

end Idle

end Smos.RootServer
