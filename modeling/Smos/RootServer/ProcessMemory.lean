/-
Smos.RootServer.ProcessMemory — the memory of processes in every run.

The turns that make something or use it keep `Lending`, one case for each. So
in every run of them a process reaches its own two pages and the pages its
views have, and no page with more rights than the view. A page of a view of an
object is the object's page at the translated offset. What the process loads
there is the object's byte, and what it stores there every process with a view
of that page loads from then on.
-/
import Smos.RootServer.AddressSpaces

namespace Smos.RootServer

open Smos.Base

variable {s s' s₁ s₂ : State} {p : Nat}

/-! ## Turns that leave the pages alone -/

namespace Lends

theorem eagerFilled {o : ObjectRef} {is : List Nat} (hf : EagerFilled o is s s') :
    Lends s s' := by
  induction hf with
  | nil s => exact .refl s
  | cons f r object alloc insert rest ih => exact ih.after alloc.grow.pages rfl

theorem objMade {args : ObjCreateArgs} (hm : ObjMade args s s') : Lends s s' := by
  have h₁ : Lends (s.allocObject args) s' → Lends s s' := fun h => h.after (fun _ _ _ => rfl) rfl
  refine h₁ ?_
  have hfilled := hm.filled
  generalize s.allocObject args = s₀ at hfilled
  cases hfilled with
  | device paddr fs r object _ memory inserted =>
    have hg : Grow s₀.res r := by
      cases memory with
      | cached => exact .refl _
      | made r₁ frames => exact frames.quiet.grow.congr rfl rfl
    exact of_pages hg.pages rfl
  | contiguous => exact of_pages (fun _ _ _ => rfl) rfl
  | eager _ _ _ _ filled => exact eagerFilled filled
  | empty => exact .refl _

theorem linkView (hs : Sane s) (w : WindowRef) (o : ObjectRef) {x : View} (hx : x.Fresh) :
    Lends s (s.linkView w o x) := of_alloc hs (fun _ _ _ => rfl) hx rfl

theorem publishing (hs : Sane s) {args : ConnPublishArgs} {f : Nat} {r₁ r₂ : Res}
    {object : AnonymousMemoryObject} {page : PageEntry}
    (hp : Publishing p args f r₁ r₂ object page s s') : Lends s s' := by
  have hgrow := hp.tried.grow.trans hp.frame.grow
  rw [hp.eq]
  exact of_alloc hs (x := View.new s.windows.next (some s.objects.next) none .all 0 0)
    hgrow.pages ⟨rfl, rfl⟩ rfl

end Lends

/-- Giving back a reply object unmaps nothing. -/
theorem Deallocated.pages {x : Alloc} {r r' : Res} (h : Deallocated x r r')
    (hx : r.HoldsObject x.1) : r'.kernel.pages = r.kernel.pages := by
  obtain ⟨-, obj, kind, hcap⟩ := hx
  obtain ⟨r₁, hf, heq⟩ := h.freed
  rw [heq, hf.eq]
  simp only [Kernel.delete, hcap]
  rfl

/-! ## Every turn -/

namespace Lending

theorem faultServed (h : Lending s) (hsp : Spaced s) (hset : Settled s) (hsh : Shared s) {pid : Pid}
    {addr : Nat} (hf : Faulted p s.reply addr (s.blockOn pid) (some ⟨true⟩) s₁) :
    Lending (s₁.resume s.reply) := by
  have hl₀ : SameLinks s (s.blockOn pid) := .blockOn s pid
  have hg₀ := hsh.blockOn pid
  have h₀ : Lending (s.blockOn pid) :=
    h.links hsp hg₀ (Lends.of_pages (fun _ _ _ => rfl) rfl) hl₀
  cases hf with
  | served w v u s₂ s₁ window bound source proc mapped =>
    have hl : SameLinks s s₂ := hl₀.trans (.sourcePage source)
    have hg := hg₀.shared.sourcePage source
    have hsp₀ : Spaced (s.blockOn pid) := hsp.goes hg₀ fun _ hc => hc
    have h₂ : Lending s₂ :=
      h₀.links hsp₀ hg (.sourcePage hg₀.shared source) (.sourcePage source)
    have hsp₂ : Spaced s₂ := hsp₀.goes hg <| (SameLinks.sourcePage source).space fun v f hf =>
      .inl (by rwa [source.pendingFault] at hf)
    have hmem : w ∈ s.windowList p := List.mem_of_find?_eq_some window
    have hcontains : (s.windows w).Contains addr := by
      have hdecide := List.find?_some window
      exact of_decide_eq_true hdecide
    have hbound : (s₂.views v).boundWindow = w :=
      (hl.boundWindow v).trans (hset.tidy.bound w v bound).2
    have h₁ : Lending s₁ := by
      refine h₂.mapped hsp₂ hg.shared (hl.procCells ▸ proc) ?_ ?_ mapped
      · rw [hbound]
        simpa only [State.windowList, hl.initialOf, hl.windowsOf] using hmem
      · rw [hbound, hl.windows]
        exact roundDown_sub (hset.tidy.starts w) hcontains.1
    have hg₁ := hg.shared.mapped mapped
    have hsp₁ : Spaced s₁ := hsp₂.goes hg₁ <| (SameLinks.mapped mapped).space fun v f hf =>
      .inl (by rwa [mapped.pendingFault] at hf)
    exact h₁.links hsp₁ (hg₁.shared.resume s.reply) (Lends.of_pages
      (fun vs vaddr _ => by simp [State.resume]) rfl) (.resume s₁ s.reply)

/-- A fault that is not served: at most its view notes it. -/
theorem faultLeft (h : Lending s) (hsp : Spaced s) (hsh : Shared s) {pid : Pid} {addr : Nat}
    {x : Option FaultReply} {r' : Res} {reply : Alloc}
    (hf : Faulted p s.reply addr (s.blockOn pid) x s₁) (hx : x ≠ some ⟨true⟩)
    (hr : Renewed r' reply s₁ s') : Lending s' := by
  have hlinks := ((SameLinks.blockOn s pid).trans (.faulted hf)).trans (.renewed hr)
  refine h.links hsp (hsh.faultLeft pid hf hx hr) ?_ hlinks
  have hpages := hr.quiet.grow.pages
  have heq := hr.eq
  subst heq
  cases hf with
  | nowhere => exact .of_pages hpages rfl
  | unbound => exact .of_pages hpages rfl
  | forwarded w v srv clientId reference u =>
    refine .of_fields hpages fun v' => ?_
    by_cases hv : v' = v
    · subst hv
      simp only [Heap.update_self]
      exact ⟨rfl, rfl, rfl⟩
    · simp only [Heap.update_of_ne _ hv]
      exact ⟨rfl, rfl, rfl⟩
  | served => exact absurd rfl hx

/-- A process that waits for another one to end keeps its pages. -/
theorem awaited (h : Lending s) (hsp : Spaced s) (hsh : Shared s) {proc : Nat} {pid : Pid}
    {r' : Res} {reply : Alloc} (hr : Renewed r' reply (s.awaits proc pid) s') : Lending s' := by
  have hlinks := (SameLinks.blockOn _ pid).trans (.renewed hr)
  have hi := Idle.waiter s proc
  have hlends : Lends s s' := by
    rw [hr.eq]
    exact .of_pages hr.quiet.grow.pages rfl
  have hstay : WindowsStay s s' := by
    intro c w hw
    rw [← s.windowList_waiter proc c] at hw
    exact hlinks.windowsStay c w hw
  exact h.lends hsp (hsh.awaited hr) hlends hstay fun c u' hu' =>
    hi.vspace c u' (hlinks.procCells ▸ hu')

/-- A `PageMap` maps the page that faulted for the process that waits for it. -/
theorem pageMapped (h : Lending s) (hsp : Spaced s) (haw : Awaited s) (hs : Sane s) (hsh : Shared s)
    {args : PageMapArgs} {dst src : ViewRef} {w : WindowRef} {cap slot : Slot} {cs : CSpace}
    {k : Kernel} {view : View} (hm : PageMapped p args dst src w cap slot cs k view s₁ s₂ s s')
    (hpage : ∀ f, (s.views dst).pendingFault = some f →
      args.viewOffset = roundDown (f.addr - (s.windows (s.views dst).boundWindow).start)) :
    Lending s' := by
  have hg₁ := hsh.sourcePage hm.source
  have hl₁ : SameLinks s s₁ := .sourcePage hm.source
  have h₁ : Lending s₁ := h.links hsp hg₁ (.sourcePage hsh hm.source) hl₁
  have hsp₁ : Spaced s₁ := hsp.goes hg₁ <| hl₁.space fun v f hf =>
    .inl (by rwa [hm.source.pendingFault] at hf)
  have hext : (s₁.views dst).boundObject = none :=
    (hl₁.boundObject dst).trans (hs.registered _ _ hm.registration)
  have hg₂ : Goes s₁ s₂ := hg₁.shared.copied hm.copied fun o ho => by
    rw [hext] at ho
    cases ho
  have hl₂ : SameLinks s₁ s₂ := .copied hm.copied
  have h₂ : Lending s₂ :=
    h₁.links hsp₁ hg₂ (.copied hm.copied (h₁.sourced _ _ _ hm.lookup)) hl₂
  have hsp₂ : Spaced s₂ := hsp₁.goes hg₂ <| hl₂.space fun v f hf =>
    .inl (by rwa [hm.copied.pendingFault] at hf)
  have hanswered := hm.answered
  cases hanswered with
  | idle => exact h₂
  | answered pending s₃ r' hp mapped dealloc =>
    have hl := hl₁.trans hl₂
    have hp₀ : (s.views dst).pendingFault = some pending := by
      rw [← hm.source.pendingFault, ← hm.copied.pendingFault]
      exact hp
    obtain ⟨pid, hfault⟩ := haw.pending dst pending hp₀
    obtain ⟨c, u, -, hcell, hspace, hmem⟩ := hfault.proc
    rw [hspace] at mapped
    have h₃ : Lending s₃ := by
      refine h₂.mapped hsp₂ hg₂.shared (hl.procCells ▸ hcell) ?_ ?_ mapped
      · rw [hl.boundWindow]
        simpa only [State.windowList, hl.initialOf, hl.windowsOf] using hmem
      · rw [hl.boundWindow, hl.windows, hpage pending hp₀,
          roundDown_of_aligned (roundDown_aligned _)]
        exact roundDown_sub (haw.settled.tidy.starts _) hfault.addr
    have hg₃ := hg₂.shared.mapped mapped
    have hsp₃ : Spaced s₃ := hsp₂.goes hg₃ <| (SameLinks.mapped mapped).space fun v f hf =>
      .inl (by rwa [mapped.pendingFault] at hf)
    have hp₃ : (s₃.views dst).pendingFault = some pending := (mapped.pendingFault dst).trans hp
    obtain ⟨hheld, -⟩ := hg₃.shared.replies.pending dst pending hp₃
    have hsent : SlotsKept (fun c => c = pending.reply.1) s₃.res
        { s₃.res with kernel := s₃.res.kernel.replySend pending.reply.1 } :=
      .of_caps (by simp) rfl
    have hslots := (hsent.trans (.of_deallocated dealloc rfl)).mono fun c hc => hc ▸ hheld
    have hg := hg₂.shared.answered hm.answered
    have hreply : Res.HoldsObject
        { s₃.res with kernel := s₃.res.kernel.replySend pending.reply.1 } pending.reply.1 := by
      obtain ⟨hall, obj, kind, hcap⟩ := hheld
      exact ⟨hall, obj, kind, (congrFun (Kernel.replySend_caps _ _) _).trans hcap⟩
    have hl₃ := (SameLinks.withRes s₃ r').trans
      (.updView _ dst (f := fun view => { view with pendingFault := none }) rfl)
    refine h₃.links hsp₃ ⟨hg.shared, fun _ _ _ hf => hf, hslots⟩ (.of_fields ?_ fun v => ?_) hl₃
    · intro vs vaddr _
      simp [dealloc.pages hreply]
    · by_cases hv : v = dst
      · subst hv
        simp [Heap.update_self]
      · simp [Heap.update_of_ne _ hv]

theorem turn (h : Lending s) (hsp : Spaced s) (haw : Awaited s) (hs : Sane s) (hsh : Shared s)
    {op : Op} (hop : op.Builds) (hans : op.Answers s) (ht : Turn s op s') : Lending s' := by
  have hg := hsh.turn hs hop ht
  have hidle : Idle s s' → Lends s s' → Lending s' := h.idle hsp hs ht hg
  cases ht with
  | refused => exact h
  | windowCreate p u _ hc =>
    refine hidle (.windowCreated hc) ?_
    obtain ⟨-, -, idx, -, -, rfl⟩ := hc
    exact .rests (by simp [State.giveHandle]) (by simp [State.giveHandle])
  | @windowRegister pid args s' p u srv w idx _ hr =>
    refine hidle (.windowRegistered hs hr) ?_
    rw [hr.eq]
    exact .of_alloc hs (fun _ _ _ => by simp)
      (x := View.new w none (some (srv, args.clientId, args.reference)) .all 0 0) ⟨rfl, rfl⟩
      (by simp)
  | objCreate p u s₁ idx _ hm _ _ =>
    refine hidle ((Idle.objMade hm).trans (.giveHandle _ _ _ _ _)) ?_
    exact (Lends.objMade hm).before (by simp [State.giveHandle]) (by simp [State.giveHandle])
      (by simp [State.giveHandle])
  | objLeft p u _ hm => exact hidle (.objMade hm) (.objMade hm)
  | @view pid args s' p u w o idx _ hm =>
    have heq := hm.eq
    subst heq
    have h₁ := Idle.linkView hs o (x := args.newView w o) rfl rfl
    have h₂ := h₁.trans (.setHandleAt _ (.table p idx) (some (.view s.views.next)))
    refine hidle (h₂.trans (.updProc _ p (fun _ => rfl) (fun _ => rfl) fun _ _ hw => hw)) ?_
    exact (Lends.linkView hs w o ⟨rfl, rfl⟩).before rfl rfl rfl
  | @viewLeft pid args p u w o =>
    exact hidle (.linkView hs o (x := args.newView w o) rfl rfl) (.linkView hs w o ⟨rfl, rfl⟩)
  | connPublish p u f r₁ r₂ object page s₁ idx srv _ hp hp' =>
    refine hidle ((Idle.publishing hs hp).trans (.published hp')) ?_
    refine (Lends.publishing hs hp).before ?_ ?_ ?_ <;> rw [hp'.eq] <;> simp
  | connTried p u r' _ hr => exact hidle (.grow hr.grow) (.of_pages hr.grow.pages rfl)
  | connLeft p u f r₁ r₂ object page _ hp => exact hidle (.publishing hs hp) (.publishing hs hp)
  | pageMap p u dst src w cap slot cs k view s₁ s₂ act hm =>
    exact h.pageMapped hsp haw hs hsh hm fun f hf =>
      Op.Answers.page hans act.cell hm.registration hf
  | faultServed p u s₁ act hf => exact h.faultServed hsp haw.settled hsh hf
  | faultLeft p u x s₁ r' reply act hf hx renewed => exact h.faultLeft hsp hsh hf hx renewed
  | registry p u _ hb =>
    exact hidle (.beside hb) (.of_pages hb.quiet.grow.pages hb.entered.views)
  | processWait p u proc r' reply _ renewed => exact h.awaited hsp hsh renewed
  | takeNotification srv => exact hidle (.congr (.refl _) rfl rfl rfl rfl rfl) (.rests rfl rfl)
  | @userWrite pid vaddr byte p u =>
    refine hidle (.userWrite s _ _ _) (.of_pages (fun vs va _ => ?_) rfl)
    rcases Kernel.userWrite_eq s u.vspace.1 vaddr byte with heq | ⟨e, -, -, heq⟩
    · simp [heq]
    · simp [heq, Kernel.writeMem]
  | windowDestroy | windowDeregister | objDestroy | unview | loadComplete | connDestroy =>
    exact hop.elim

end Lending

/-! ## Loads and stores -/

namespace State

/-- The page that a process has at an address. -/
def pageAt (s : State) (p : Nat) (vaddr : Nat) : Option PageEntry :=
  match s.procCells p with
  | .activeProcess u => s.pageOf u.vspace.1 vaddr
  | .zombieProcess _ => none

/-- What a process loads at an address, if it may. -/
def load (s : State) (p : Nat) (vaddr : Nat) : Option Nat :=
  match s.pageAt p vaddr with
  | some e => if e.access.read then some (s.res.kernel.mem e.obj (vaddr % pageSize4K)) else none
  | none => none

end State

/-- Through a view of the object, the process has its byte at the offset `x` at this address. -/
structure Sees (s : State) (p vaddr : Nat) (e : PageEntry) (o : ObjectRef) (x : Nat) : Prop where
  page : s.pageAt p vaddr = some e
  view : ∃ v offset c, Lent s p (roundDown vaddr) e v offset c ∧
    (s.views v).boundObject = some o ∧ (s.views v).PageAligned ∧
    (s.views v).winOffset ≤ offset ∧ x = (s.views v).objectOffset offset + vaddr % pageSize4K

theorem Res.Holds.unique {r : Res} {c : Slot} {obj obj' : Nat} (h : r.Holds c obj)
    (h' : r.Holds c obj') : obj = obj' := by
  obtain ⟨-, orig, access, m, hcap⟩ := h
  obtain ⟨-, orig', access', m', hcap'⟩ := h'
  cases hcap.symm.trans hcap'
  rfl

theorem State.frameAt_of_path (s : State) (o : ObjectRef) {x y : Nat} (h : path x = path y) :
    s.frameAt o x = s.frameAt o y := by
  unfold State.frameAt AnonymousMemoryObject.lookupFrame PageTable.lookupAt
  rw [h]

/-- Two bytes of an object are the same one if they are in the same place of the same page. -/
theorem path_eq_and_mod (x y : Nat) : path x = path y ∧ x % pageSize4K = y % pageSize4K ↔
    x % tableBytes = y % tableBytes := by
  rw [path_eq_iff_mod]
  unfold tableBytes objLvlMax pageSize4K
  omega

theorem View.PageAligned.objectOffset {v : View} (h : v.PageAligned) {offset : Nat}
    (ho : offset % pageSize4K = 0) : v.objectOffset offset % pageSize4K = 0 := by
  obtain ⟨hwin, hobj⟩ := h
  unfold View.objectOffset
  unfold pageSize4K at *
  omega

namespace Sees

variable {vaddr x : Nat} {e : PageEntry} {o : ObjectRef}

theorem mod_eq (h : Sees s p vaddr e o x) : x % pageSize4K = vaddr % pageSize4K := by
  obtain ⟨v, offset, c, hlent, -, halign, -, rfl⟩ := h.view
  have hstart := halign.objectOffset hlent.aligned
  unfold pageSize4K at *
  omega

/-- The page is the object's frame. -/
theorem frameAt (h : Sees s p vaddr e o x) (hc : Coherent s) : s.frameAt o x = some e.obj := by
  have hmod := h.mod_eq
  obtain ⟨v, offset, c, hlent, hbound, halign, hle, rfl⟩ := h.view
  obtain ⟨f, obj, hf, hheld, -, orig, access, m, hcap⟩ :=
    hc.entry v o offset c hbound halign hle hlent.entry
  cases hheld.unique hlent.holds
  have hpath : path ((s.views v).objectOffset offset + vaddr % pageSize4K) =
      path ((s.views v).objectOffset offset) := by
    rw [path_eq_iff_mod]
    have hstart := halign.objectOffset hlent.aligned
    unfold pageSize4K objLvlMax at *
    omega
  rw [s.frameAt_of_path o hpath]
  simp only [State.frameAt, hf, hcap]

/-- A load is of the object's byte. -/
theorem load (h : Sees s p vaddr e o x) (hc : Coherent s) :
    s.load p vaddr = if e.access.read then some (s.byteAt o x) else none := by
  simp only [State.load, h.page, Tabled.byteAt_of_frameAt (h.frameAt hc), h.mod_eq]

end Sees

theorem next_userWrite {pid : Pid} {vaddr byte : Nat} {u : UserProcess}
    (hp : s.procs pid = some p) (hu : s.procCells p = .activeProcess u)
    (hn : next s (.userWrite pid vaddr byte) = some s') :
    s' = { s with res := { s.res with
      kernel := s.res.kernel.userWrite u.vspace.1 vaddr byte } } := by
  refine next_of_wp (P := fun _ => True) (Q := fun s' => s' = _) ?_ hn
  simp only [exec, Prog.wp_bind]
  refine Prog.wp_mono (procCell_spec s pid) ?_ (fun _ _ => False.elim) fun _ _ => trivial
  rintro p' s₁ ⟨rfl, u', hact⟩
  cases hp.symm.trans hact.cell
  cases hu.symm.trans hact.proc
  simp only [wp_getProc, wp_onRes, kmodify, Prog.wp_modify]
  refine ⟨fun u' hu' => ?_, fun _ _ => trivial⟩
  cases hu.symm.trans hu'
  rfl

theorem Kernel.userWrite_of_page {c : Slot} {vaddr byte : Nat} {e : PageEntry}
    (h : s.pageOf c vaddr = some e) : s.res.kernel.userWrite c vaddr byte =
      if e.access.write then s.res.kernel.writeMem e.obj
        (Function.update (s.res.kernel.mem e.obj) (vaddr % pageSize4K) byte)
      else s.res.kernel := by
  unfold State.pageOf at h
  split at h
  · rename_i vs hcap
    unfold Kernel.userWrite
    simp only [hcap, h]
  · cases h

/-- After a store, every process loads what it did, but where it has the byte that was stored. -/
theorem store_load {pid : Pid} {vaddr byte : Nat} {e : PageEntry} (hp : s.procs pid = some p)
    (he : s.pageAt p vaddr = some e) (hn : next s (.userWrite pid vaddr byte) = some s')
    {p' vaddr' : Nat} {e' : PageEntry} (he' : s.pageAt p' vaddr' = some e') :
    s'.load p' vaddr' =
      if e.access.write ∧ e'.access.read ∧ e'.obj = e.obj ∧
        vaddr' % pageSize4K = vaddr % pageSize4K then some byte else s.load p' vaddr' := by
  unfold State.pageAt at he
  split at he
  swap
  · cases he
  rename_i u hu
  have hs' := next_userWrite hp hu hn
  rw [Kernel.userWrite_of_page he] at hs'
  by_cases hw : e.access.write = true
  · rw [if_pos hw] at hs'
    subst hs'
    have hpage : (s.withBytes e.obj (Function.update (s.res.kernel.mem e.obj)
        (vaddr % pageSize4K) byte)).pageAt p' vaddr' = some e' := he'
    show (s.withBytes e.obj _).load p' vaddr' = _
    simp only [State.load, hpage, he', hw, true_and]
    by_cases hr : e'.access.read = true
    · simp only [hr, if_true, true_and, State.withBytes, Kernel.writeMem]
      by_cases hobj : e'.obj = e.obj
      · simp only [hobj, Function.update_self, true_and, Function.update_apply]
        split <;> rfl
      · simp only [Function.update_of_ne hobj, hobj, false_and, if_false]
    · simp [hr]
  · rw [if_neg hw] at hs'
    subst hs'
    simp [hw]

/-! ## Every run -/

/-- A state after boot: processes have their own pages, and what views have is objects'. -/
structure BootedLending (s : State) : Prop where
  awaiting : BootedAwaiting s
  memory : BootedMemory s
  lending : Lending s

/-- What the turns keep. -/
structure Reaching (s : State) : Prop where
  awaited : Awaited s
  remembering : Remembering s
  lending : Lending s

theorem Reaching.turn (h : Reaching s) (hs : Sane s) {op : Op} (hop : op.Forwards s)
    (hrun : op.enabled s = true) (ht : Turn s op s') : Reaching s' := by
  have hsh := h.remembering.shared
  constructor
  · exact (h.awaited.turn hs hsh hop.1 hop.2 hrun ht).awaited
  · exact h.remembering.turn hs hop.1 ht
  · exact h.lending.turn h.remembering.spaced h.awaited hs hsh hop.1 hop.2 ht

/-- Which memory a process reaches, and what it loads there. A page is the process's own, or a view
in one of its windows has it, with at most the view's rights, from an object. Where that is an
object's page, the process loads the object's bytes, and a store is seen by every process that has
the byte, and by no other. -/
theorem memory_is_shared {ops : List Op} {s : State}
    (run : Run BootedLending next Op.Forwards ops s) :
    (∀ p u vs vaddr e, s.procCells p = .activeProcess u →
      s.res.kernel.caps u.vspace.1 = some (.vspace vs) → s.res.kernel.pages vs vaddr = some e →
      OwnPage vaddr ∨ ∃ v offset c, Lent s p vaddr e v offset c ∧ s.Sourced c) ∧
    (∀ p vaddr e o x, Sees s p vaddr e o x →
      s.load p vaddr = if e.access.read then some (s.byteAt o x) else none) ∧
    ∀ pid p vaddr e o x byte s', s.Plain o → s.procs pid = some p → Sees s p vaddr e o x →
      next s (.userWrite pid vaddr byte) = some s' →
      ∀ p' vaddr' e' o' x', s.Plain o' → Sees s p' vaddr' e' o' x' →
        s'.load p' vaddr' = if e.access.write ∧ e'.access.read ∧ o' = o ∧
          x' % tableBytes = x % tableBytes then some byte else s.load p' vaddr' := by
  obtain ⟨-, h⟩ := run_invariant (I := Reaching) (fun _ h => h.awaiting.shared.booted)
    (fun _ h => ⟨h.awaiting.awaited, h.memory.remembering, h.lending⟩)
    (fun _ _ _ hs h hop hrun ht => h.turn hs hop hrun ht) run
  have hc := h.remembering.shared.coherent
  refine ⟨?_, fun p vaddr e o x hsees => hsees.load hc, ?_⟩
  · intro p u vs vaddr e hu hvs he
    refine (h.lending.pages p u vs vaddr e hu hvs he).imp_right ?_
    rintro ⟨v, offset, c, hlent⟩
    exact ⟨v, offset, c, hlent, h.lending.sourced v offset c hlent.entry⟩
  · intro pid p vaddr e o x byte s' ho hp hsees hn p' vaddr' e' o' x' ho' hsees'
    have hframe := hsees.frameAt hc
    have hframe' := hsees'.frameAt hc
    have hsame : e'.obj = e.obj ∧ vaddr' % pageSize4K = vaddr % pageSize4K ↔
        o' = o ∧ x' % tableBytes = x % tableBytes := by
      rw [← hsees.mod_eq, ← hsees'.mod_eq, ← path_eq_and_mod, ← and_assoc]
      refine and_congr_left fun _ => ⟨fun heq => ?_, ?_⟩
      · exact h.remembering.tabled.frame_eq ho'.1 ho.1 (heq ▸ hframe') hframe
      · rintro ⟨rfl, hpath⟩
        rw [s.frameAt_of_path o' hpath] at hframe'
        exact Option.some.inj (hframe'.symm.trans hframe)
    rw [store_load hp hsees.page hn hsees'.page]
    simp only [hsame]

/-! ## The small system -/

/-- The capability is not mapped, or in the server's own space, or on a page of a process's own. -/
def mappedOwn : Cap → Bool
  | .frame _ _ _ (some m) => decide (m.1 = rootVSpace ∨ OwnPage m.2)
  | _ => true

theorem demo_own {vs vaddr : Nat} {e : PageEntry} (hvs : vs ≠ rootVSpace)
    (he : demo.res.kernel.pages vs vaddr = some e) : OwnPage vaddr := by
  have hall : (demoCaps.all fun x => mappedOwn x.2) = true := by decide +kernel
  obtain ⟨x, hx, hsome⟩ := List.exists_of_findSome?_eq_some he
  have hown := List.all_eq_true.mp hall x hx
  split at hsome
  · rename_i obj orig access m heq
    split at hsome
    · rename_i hm
      subst hm
      simp only [mappedOwn, heq, decide_eq_true_eq] at hown
      exact hown.resolve_left hvs
    · cases hsome
  · cases hsome

theorem demo_bootedLending : BootedLending demo where
  awaiting := demo_bootedAwaiting
  memory := demo_bootedMemory
  lending :=
    { pages := fun p u vs vaddr e hu hvs he => by
        obtain ⟨-, vs', hvs', hne⟩ := demo_bootedMemory.spaced _ (.inl ⟨p, u, hu, rfl⟩)
        cases hvs.symm.trans hvs'
        exact .inl (demo_own hne he)
      apart := fun p p' u u' vs hu hu' hvs hvs' => by
        have hfirst : demo.res.kernel.caps (demoProcess 0 4 2).vspace.1 = some (.vspace 2) := rfl
        have hsecond : demo.res.kernel.caps (demoProcess 1 12 4).vspace.1 = some (.vspace 3) := rfl
        rcases demo_processes hu with ⟨rfl, rfl⟩ | ⟨rfl, rfl⟩
        · cases hfirst.symm.trans hvs
          rcases demo_processes hu' with ⟨rfl, rfl⟩ | ⟨rfl, rfl⟩
          · rfl
          · cases hsecond.symm.trans hvs'
        · cases hsecond.symm.trans hvs
          rcases demo_processes hu' with ⟨rfl, rfl⟩ | ⟨rfl, rfl⟩
          · cases hfirst.symm.trans hvs'
          · rfl
      sourced := fun v x c hc => by
        have hnone : (demo.views v).lookupCap x = none := Table.lookup_new _
        cases hnone.symm.trans hc }

/-- A view of the small system that shows its process a byte of the first object. -/
def DemoSees (s : State) (p vaddr v offset c : Nat) (m : Option (VSpaceId × Nat)) : Prop :=
  s.pageAt p vaddr = some ⟨100, ⟨true, true⟩⟩ ∧
    ((s.views v).boundWindow ∈ s.windowList p ∧ offset % pageSize4K = 0 ∧
      roundDown vaddr = (s.windows (s.views v).boundWindow).start + offset) ∧
    ((s.views v).lookupCap offset = some c ∧ s.res.cspace.Allocated c ∧
      s.res.kernel.caps c = some (.frame 100 false ⟨true, true⟩ m) ∧
      (⟨true, true⟩ : Access) ≤ .ofRights (s.views v).rights) ∧
    (s.views v).boundObject = some 0 ∧ (s.views v).PageAligned ∧
    (s.views v).winOffset ≤ offset ∧
    0x2123 = (s.views v).objectOffset offset + vaddr % pageSize4K

instance (s : State) (p vaddr v offset c : Nat) (m : Option (VSpaceId × Nat)) :
    Decidable (DemoSees s p vaddr v offset c m) := inferInstanceAs (Decidable (_ ∧ _))

theorem DemoSees.sees {vaddr v offset c : Nat} {m : Option (VSpaceId × Nat)}
    (h : DemoSees s p vaddr v offset c m) : Sees s p vaddr ⟨100, ⟨true, true⟩⟩ 0 0x2123 := by
  obtain ⟨hpage, ⟨hwindow, haligned, hplace⟩, ⟨hentry, hall, hcap, hrights⟩, hview⟩ := h
  refine ⟨hpage, v, offset, c, ?_, hview⟩
  exact ⟨hwindow, haligned, hplace, hentry, ⟨hall, false, ⟨true, true⟩, m, hcap⟩, hrights⟩

theorem memory_is_shared_demo : ∃ s s', Run BootedLending next Op.Forwards demoSharing s ∧
    next s (.userWrite 0 0x10000123 7) = some s' ∧ s'.load 1 0x20002123 = some 7 := by
  obtain ⟨s, run, hplain, hproc, hfirst, hsecond, hsome⟩ := demo_reaches demo_bootedLending
    Op.Forwards demoSharing
    (fun s => s.Plain 0 ∧ s.procs 0 = some 0 ∧
      DemoSees s 0 0x10000123 0 0 60 (some (2, 0x10000000)) ∧
      DemoSees s 1 0x20002123 1 0x2000 61 (some (3, 0x20002000)) ∧
      (next s (.userWrite 0 0x10000123 7)).isSome = true)
    (by decide +kernel) (by decide +kernel)
  obtain ⟨s', hn⟩ := Option.isSome_iff_exists.mp hsome
  refine ⟨s, s', run, hn, ?_⟩
  rw [(memory_is_shared run).2.2 0 0 _ _ 0 _ 7 s' hplain hproc hfirst.sees hn 1 _ _ 0 _ hplain
    hsecond.sees]
  rfl

end Smos.RootServer
