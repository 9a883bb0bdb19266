/-
Smos.RootServer.SharingTurns — sharing in every run.

The turns that make something or use it keep `Shared`, one case for each, so
in every run of them from boot an entry of a view is a copy of its object's
frame, an object keeps the frames it has been given, and neither a fault nor a
`PageMap` fails to enter what it has looked up and not found.
-/
import Smos.RootServer.Sharing

namespace Smos.RootServer

open Smos.Base

/-- The operation tears nothing down. -/
def Op.Builds : Op → Prop
  | .windowDestroy _ _ | .windowDeregister _ _ | .objDestroy _ _ | .unview _ _
  | .loadComplete _ | .connDestroy _ _ | .processExit _ _ => False
  | _ => True

instance : ∀ op : Op, Decidable op.Builds
  | .windowDestroy _ _ | .windowDeregister _ _ | .objDestroy _ _ | .unview _ _
  | .loadComplete _ | .connDestroy _ _ | .processExit _ _ => .isFalse id
  | .windowCreate _ _ | .windowRegister _ _ | .objCreate _ _ _ | .view _ _ | .connPublish _ _
  | .pageMap _ _ | .registry _ _ | .processWait _ _ | .vmFault _ _ | .takeNotification _
  | .userWrite _ _ _ => .isTrue trivial

namespace Shared

variable {s s' : State} {p : Nat}

/-! ## Turns that build -/

theorem windowCreated (h : Shared s) {args : WindowCreateArgs} (hc : WindowCreated p args s s') :
    Goes s s' := by
  obtain ⟨-, -, idx, -, -, rfl⟩ := hc
  have h₁ : Goes s { s with windows := s.windows.alloc ⟨args.baseVaddr, args.size, none⟩ } :=
    h.congr rfl rfl rfl (fun _ => rfl) rfl
  have h₂ := h₁.trans (h₁.shared.giveHandle p args.returnCap idx (.window s.windows.next))
  exact h₂.trans (h₂.shared.congr rfl rfl rfl (fun _ => rfl) rfl)

theorem windowRegistered (h : Shared s) {args : WindowRegisterArgs} {srv : ServerRef}
    {w : WindowRef} {idx : Nat} (hr : WindowRegistered p args srv w idx s s') : Goes s s' := by
  have heq := hr.eq
  subst heq
  have h₁ := h.allocView
    (x := View.new w none (some (srv, args.clientId, args.reference)) .all 0 0)
    ⟨rfl, rfl⟩
  have h₂ : Goes s { s with
      views := s.views.alloc
        (View.new w none (some (srv, args.clientId, args.reference)) .all 0 0)
      windows := s.windows.update w (Window.bind (some s.views.next)) } :=
    h₁.trans (h₁.shared.congr rfl rfl rfl (fun _ => rfl) rfl)
  exact h₂.trans (h₂.shared.setHandleAt _ _)

/-- The view that is made has no entries yet. -/
theorem newView_fresh (args : ViewArgs) (w : WindowRef) (o : ObjectRef) :
    (args.newView w o).Fresh := ⟨rfl, rfl⟩

theorem linkedRing (h : Shared s) (hs : Sane s) (base : Nat) : Goes s (s.linkRing base) := by
  have h₁ := h.allocObject hs (x := .new pageSize4K .all .default) rfl
  have h₂ : Goes s { s with
      windows := s.windows.alloc ⟨base, pageSize4K, none⟩
      objects := s.objects.alloc (.new pageSize4K .all .default) } :=
    h₁.trans (h₁.shared.congr rfl rfl rfl (fun _ => rfl) rfl)
  exact h₂.trans (h₂.shared.linkView s.windows.next s.objects.next
    (x := View.new s.windows.next (some s.objects.next) none .all 0 0)
    ⟨rfl, rfl⟩)

theorem tried (h : Shared s) {r : Res} (ht : Tried s.res r) : Goes s { s with res := r } :=
  h.withRes (.of_grow ht.grow) (h.stocked.kept (.of_grow ht.grow) ht.frames ht.devices)

theorem publishing (h : Shared s) (hs : Sane s) {args : ConnPublishArgs} {f : Nat} {r₁ r₂ : Res}
    {object : AnonymousMemoryObject} {page : PageEntry}
    (hp : Publishing p args f r₁ r₂ object page s s') : Goes s s' := by
  have h₁ := h.linkedRing hs args.ntfnBuffer
  have h₂ := h₁.trans (h₁.shared.tried hp.tried)
  obtain ⟨hstock, hheld⟩ := h₂.shared.stocked.frameAllocated hp.frame
  have h₃ := h₂.trans (h₂.shared.withRes (.of_grow hp.frame.grow) hstock)
  have h₄ := h₃.trans (h₃.shared.insertFrame (o := s.objects.next)
    (x := ⟨r₂.frameTable.cap f, f⟩) hheld hp.insert)
  have hkept : SlotsKept (fun _ => False) r₂
      { r₂ with kernel := r₂.kernel.writeMem page.obj (s.initRing (r₂.kernel.mem page.obj)) } :=
    .of_caps rfl rfl
  have h₅ := h₄.trans (h₄.shared.withRes hkept (hstock.kept hkept ⟨rfl, rfl, rfl, rfl⟩ rfl))
  have heq := hp.eq
  subst heq
  exact h₅.trans (h₅.shared.congr rfl rfl rfl (fun _ => rfl) rfl)

theorem published (h : Shared s) {args : ConnPublishArgs} {f idx : Nat} {srv : Server}
    {s₀ : State} (hp : Published p args f idx srv s₀ s s') : Goes s s' := by
  have heq := hp.eq
  subst heq
  have h₁ : Goes s { s with
      servers := s.servers.alloc srv
      published := s.published ++ [(args.name, s.servers.next)] } :=
    h.congr rfl rfl rfl (fun _ => rfl) rfl
  exact h₁.trans (h₁.shared.setHandleAt _ _)

/-! ## Turns that use -/

/-- Entries and quiet resources are of no frame. -/
theorem beside (h : Shared s) (hb : Beside s s') : Goes s s' := by
  have hviews : s'.views = s.views := hb.entered.views
  have hobjects : s'.objects = s.objects := hb.entered.objects
  have hdma : s'.dma = s.dma := hb.entered.dma
  have hreply : s'.reply = s.reply := hb.entered.reply
  have h₁ := h.tried (.of_quiet hb.quiet)
  exact h₁.trans (h₁.shared.congr rfl (by rw [hdma]) hviews (fun _ => by rw [hobjects]) hreply)

/-- The reply object of a process that waits is no longer the spare one. -/
theorem awaited (h : Shared s) {proc : Nat} {pid : Pid} {r' : Res} {reply : Alloc}
    (hr : Renewed r' reply (s.awaits proc pid) s') : Goes s s' := by
  have h₁ : Goes s (s.updProc proc fun u => { u with waiter := some s.reply }) :=
    h.congr rfl rfl rfl (fun _ => rfl) rfl
  have h₂ := h₁.trans (h₁.shared.blockOn pid)
  exact h₂.trans (h₂.shared.renewed (v := 0) rfl rfl rfl (fun _ => rfl) (fun _ _ _ hf => hf)
    (fun _ hf => .inl hf) hr)

theorem faultServed (h : Shared s) (pid : Pid) {reply : Alloc} {addr : Nat}
    (hf : Faulted p reply addr (s.blockOn pid) (some ⟨true⟩) s') :
    Goes s (s'.resume reply) := by
  have h₁ := h.blockOn pid
  generalize s.blockOn pid = s₀ at h₁ hf
  cases hf with
  | served w v u s₁ s' _ _ source _ mapped =>
    have h₂ := h₁.trans (h₁.shared.sourcePage source)
    have h₃ := h₂.trans (h₂.shared.mapped mapped)
    exact h₃.trans (h₃.shared.resume reply)

/-- A fault that is not served now: at most its view notes it, with the reply object. -/
theorem faultLeft (h : Shared s) (pid : Pid) {addr : Nat} {x : Option FaultReply} {s₁ : State}
    {r' : Res} {reply : Alloc} (hf : Faulted p s.reply addr (s.blockOn pid) x s₁)
    (hx : x ≠ some ⟨true⟩) (hr : Renewed r' reply s₁ s') : Goes s s' := by
  have h₁ := h.blockOn pid
  refine h₁.trans ?_
  have hreply : (s.blockOn pid).reply = s.reply := rfl
  rw [← hreply] at hf
  generalize s.blockOn pid = s₀ at h₁ hf
  have hidle : s₁ = s₀ → Goes s₀ s' := by
    rintro rfl
    exact h₁.shared.renewed (v := 0) rfl rfl rfl (fun _ => rfl) (fun _ _ _ hf => hf)
      (fun _ hf => .inl hf) hr
  cases hf with
  | nowhere => exact hidle rfl
  | unbound => exact hidle rfl
  | forwarded w v srv clientId reference u =>
    have hnew := fun hres hdma hobjects hshape hother hself =>
      h₁.shared.renewed (v := v) hres hdma hobjects hshape hother hself hr
    refine hnew rfl rfl rfl ?_ ?_ ?_
    · exact s₀.views.update_preserves (r := v) View.shape
        (f := fun view => { view with pendingFault := some ⟨s₀.reply, addr, u.vspace.1⟩ }) rfl
    · intro v' f hne hf
      simpa only [Heap.update_of_ne _ hne] using hf
    · intro f hf
      simp only [Heap.update_self, Option.some.injEq] at hf
      exact .inr (hf ▸ rfl)
  | served => exact absurd rfl hx

theorem userWrite (h : Shared s) (vspace : Slot) (vaddr byte : Nat) : Goes s { s with
    res := { s.res with kernel := s.res.kernel.userWrite vspace vaddr byte } } := by
  have hcaps : (s.res.kernel.userWrite vspace vaddr byte).caps = s.res.kernel.caps := by
    unfold Kernel.userWrite
    split
    · split
      · split <;> rfl
      · rfl
    · rfl
  have hk : SlotsKept (fun _ => False) s.res
      { s.res with kernel := s.res.kernel.userWrite vspace vaddr byte } := .of_caps hcaps rfl
  exact h.withRes hk (h.stocked.kept hk ⟨rfl, rfl, rfl, rfl⟩ rfl)

/-! ## Every turn -/

theorem turn (h : Shared s) (hs : Sane s) {op : Op} (hop : op.Builds) (ht : Turn s op s') :
    Goes s s' := by
  cases ht with
  | refused => exact h.goes
  | windowCreate p u _ hc => exact h.windowCreated hc
  | windowRegister p u srv w idx _ hr => exact h.windowRegistered hr
  | objCreate p u s₁ idx _ hm _ _ =>
    have h₁ := h.objMade hs hm
    exact h₁.trans (h₁.shared.giveHandle _ _ _ _)
  | objLeft p u _ hm => exact h.objMade hs hm
  | @view pid args s' p u w o idx _ hm =>
    have heq := hm.eq
    subst heq
    have h₁ := h.linkView w o (newView_fresh args w o)
    have h₂ := h₁.trans (h₁.shared.setHandleAt (.table p idx) (some (.view s.views.next)))
    exact h₂.trans (h₂.shared.congr rfl rfl rfl (fun _ => rfl) rfl)
  | @viewLeft pid args p u w o => exact h.linkView w o (newView_fresh args w o)
  | connPublish p u f r₁ r₂ object page s₁ idx srv _ hp hp' =>
    have h₁ := h.publishing hs hp
    exact h₁.trans (h₁.shared.published hp')
  | connTried p u r' _ hr => exact h.tried hr
  | connLeft p u f r₁ r₂ object page _ hp => exact h.publishing hs hp
  | pageMap p u dst src w cap slot cs k view s₁ s₂ _ hm =>
    exact h.pageMapped (hs.registered _ _ hm.registration) hm
  | faultServed p u s₁ act hf => exact h.faultServed _ hf
  | faultLeft p u x s₁ r' reply act hf hx renewed => exact h.faultLeft _ hf hx renewed
  | registry p u _ hb => exact h.beside hb
  | processWait p u proc r' reply _ renewed => exact h.awaited renewed
  | takeNotification srv => exact h.congr rfl rfl rfl (fun _ => rfl) rfl
  | userWrite p u => exact h.userWrite _ _ _
  | windowDestroy | windowDeregister | objDestroy | unview | loadComplete | connDestroy =>
    exact hop.elim

/-- From a shared state on, objects keep the frames they have. -/
theorem run (h : Shared s) (hs : Sane s) {ops : List Op}
    (run : Run (fun s₀ => s₀ = s) next (fun _ op => op.Builds) ops s') : Sane s' ∧ Goes s s' := by
  refine run.invariant (I := fun s' => Sane s' ∧ Goes s s') ?_ ?_
  · intro s₀ heq
    subst heq
    exact ⟨hs, h.goes⟩
  · intro s₁ op s₂ hi hop hn
    obtain ⟨hs₁, h₁⟩ := hi
    have ht := next_turn hs₁ hn
    exact ⟨hs₁.turn ht, h₁.trans (h₁.shared.turn hs₁ hop ht)⟩

end Shared

/-! ## Runs from boot -/

/-- A state after boot in which the loader's views have copies of their objects' frames, and
the frames to give out and the reply object are there. -/
structure BootedShared (s : State) : Prop where
  booted : Booted s
  coherent : Coherent s
  stocked : Stocked s.res s.dma.pages
  spare : s.res.HoldsObject s.reply.1

namespace BootedShared

variable {s : State}

theorem noPending (h : BootedShared s) (v : ViewRef) : (s.views v).pendingFault = none := by
  rcases h.booted.loaded_or_blank v with ⟨-, hl⟩ | ⟨-, -, hb, -⟩
  · exact hl.noPending
  · rw [hb]
    rfl

theorem shared (h : BootedShared s) : Shared s where
  coherent := h.coherent
  stocked := h.stocked
  replies :=
    { spare := h.spare
      pending := fun v f hf => absurd hf (by simp [h.noPending v])
      apart := fun v _ f _ hf => absurd hf (by simp [h.noPending v]) }

end BootedShared

/-- Faults and `PageMap` share: every entry of a page aligned view is a copy of the frame that
its object has there, an object keeps a frame it has been given, and what is looked up and not found can
be entered. -/
theorem sharing_coherent {ops : List Op} {s : State}
    (run : Run BootedShared next (fun _ op => op.Builds) ops s) :
    (∀ v o offset c, (s.views v).boundObject = some o → (s.views v).PageAligned →
      (s.views v).winOffset ≤ offset → (s.views v).lookupCap offset = some c →
      s.CopyOf c o ((s.views v).objectOffset offset)) ∧
    (∀ ops' s', Run (fun s₀ => s₀ = s) next (fun _ op => op.Builds) ops' s' →
      ∀ o offset f, (s.objects o).lookupFrame offset = some f →
        (s'.objects o).lookupFrame offset = some f) ∧
    (∀ pid addr π, exec (.vmFault pid addr) s = .panic π → π ≠ .insertFrame ∧ π ≠ .insertCap) ∧
    ∀ pid args π, exec (.pageMap pid args) s = .panic π → π ≠ .insertFrame ∧ π ≠ .insertCap := by
  obtain ⟨hs, h⟩ := run_invariant (fun _ h => h.booted) (fun _ h => h.shared)
    (fun s op s' hs h hop _ ht => (h.turn hs hop ht).shared) run
  refine ⟨h.coherent.entry, ?_, ?_, ?_⟩
  · intro ops' s' run'
    exact (h.run hs run').2.frames
  · intro pid addr π hπ
    have hlow : π.Low := Prog.wp_panic_of (exec_spec hs (.vmFault pid addr)) hπ
    exact ⟨hlow.1, hlow.2.1⟩
  · intro pid args π hπ
    have hlow : π.Low := Prog.wp_panic_of (exec_spec hs (.pageMap pid args)) hπ
    exact ⟨hlow.1, hlow.2.1⟩

/-- Two processes with a view each of one page of an object, at different offsets. -/
def demoSharing : List Op :=
  [.objCreate 0 ⟨none, 0x4000, .all, .default, true⟩ none,
    .windowCreate 0 ⟨0x10000000, 0x1000, false⟩,
    .view 0 ⟨.handle 0, .unwrappedHandleCap 0, 0, 0x2000, 0x1000, .all⟩,
    .windowCreate 1 ⟨0x20000000, 0x3000, false⟩,
    .view 1 ⟨.handle 0, .unwrappedHandleCap 0, 0x2000, 0x2000, 0x1000, .all⟩,
    .vmFault 0 0x10000123, .vmFault 1 0x20002000]

theorem demo_bootedShared : BootedShared demo where
  booted := demo_booted
  coherent :=
    { frame := fun o offset f hf => by
        have hnone : (demo.objects o).lookupFrame offset = none := Table.lookup_new _
        cases hnone.symm.trans hf
      entry := fun v o offset c ho => by cases ho }
  stocked :=
    { free := fun f hf => by
        have hf' : f = 0 ∨ f = 1 := by simpa [demo] using hf
        rcases hf' with rfl | rfl
        · exact ⟨100, by decide +kernel, true, ⟨true, true⟩, _, rfl⟩
        · exact ⟨101, by decide +kernel, true, ⟨true, true⟩, _, rfl⟩
      devices := fun _ ha => absurd ha List.not_mem_nil
      dma := fun _ hc => absurd hc List.not_mem_nil }
  spare := ⟨by decide +kernel, 9, .reply, rfl⟩

theorem sharing_coherent_demo : ∃ s,
    Run BootedShared next (fun _ op => op.Builds) demoSharing s ∧
      s.CopyOf 60 0 0x2000 ∧ s.CopyOf 61 0 0x2000 := by
  obtain ⟨s, run, h₀, h₁, ha₀, ha₁, hw, ho₀, ho₁, hc₀, hc₁⟩ := demo_reaches demo_bootedShared
    (fun _ op => op.Builds) demoSharing
    (fun s => (s.views 0).boundObject = some 0 ∧ (s.views 1).boundObject = some 0 ∧
      (s.views 0).PageAligned ∧ (s.views 1).PageAligned ∧
      ((s.views 0).winOffset ≤ 0 ∧ (s.views 1).winOffset ≤ 0x2000) ∧
      (s.views 0).objectOffset 0 = 0x2000 ∧ (s.views 1).objectOffset 0x2000 = 0x2000 ∧
      (s.views 0).lookupCap 0 = some 60 ∧ (s.views 1).lookupCap 0x2000 = some 61)
    (by decide +kernel) (by decide +kernel)
  have hcopies := (sharing_coherent run).1
  refine ⟨s, run, ?_, ?_⟩
  · rw [← ho₀]
    exact hcopies 0 0 0 60 h₀ ha₀ hw.1 hc₀
  · rw [← ho₁]
    exact hcopies 1 0 0x2000 61 h₁ ha₁ hw.2 hc₁

end Smos.RootServer
