/-
Smos.RootServer.FaultAnswers — faults and `PageMap` in every run.

One case for each turn that makes something or uses it. Most leave the faults
alone. A fault that is served is mapped its own page and resumed, one that is
forwarded is entered as pending, and a `PageMap` answers the fault pending on
the view it maps to.
-/
import Smos.RootServer.ForwardedFaults

namespace Smos.RootServer

open Smos.Base

variable {s s' s₁ : State} {p : Nat}

/-! ## Windows and processes -/

namespace Settled

/-- The windows of different processes stay different. -/
theorem own_turn (h : Settled s) (hs : Sane s) {op : Op} (ht : Turn s op s') (c c' : Nat)
    (w : WindowRef) (hw : w ∈ s'.windowList c) (hw' : w ∈ s'.windowList c') : c = c' := by
  rcases turn_lists ht with hshrunk | ⟨pid, q, u, base, bytes, -, -, hadded⟩
  · exact h.own c c' w ((hshrunk.lists c).subset hw) ((hshrunk.lists c').subset hw')
  · have hmem : ∀ d, w ∈ s'.windowList d → w ∈ s.windowList d ∨ d = q ∧ w = s.windows.next := by
      intro d hd
      by_cases hdq : d = q
      · subst hdq
        rcases List.mem_append.mp (hadded.list.subset hd) with hold | hnew
        · exact .inl hold
        · exact .inr ⟨rfl, List.mem_singleton.mp hnew⟩
      · exact .inl ((hadded.lists d hdq).subset hd)
    have hold : ∀ d, w ∈ s.windowList d → w ≠ s.windows.next := fun d hd =>
      Nat.ne_of_lt (hs.procWindows d w hd)
    rcases hmem c hw with hc | ⟨hc, hnew⟩
    · rcases hmem c' hw' with hc' | ⟨-, hnew⟩
      · exact h.own c c' w hc hc'
      · exact absurd hnew (hold c hc)
    · rcases hmem c' hw' with hc' | ⟨hc', -⟩
      · exact absurd hnew (hold c' hc')
      · exact hc.trans hc'.symm

/-- Address spaces are no objects that a turn gives back. -/
theorem spaces_kept (h : Settled s) (hk : SlotsKept s.res.HoldsObject s.res s'.res)
    (hv : ∀ p u', s'.procCells p = .activeProcess u' →
      ∃ u, s.procCells p = .activeProcess u ∧ u'.vspace = u.vspace)
    (c : Nat) (u' : UserProcess) (hu' : s'.procCells c = .activeProcess u') :
    s'.res.cspace.Allocated u'.vspace.1 ∧
      ∃ vs, s'.res.kernel.caps u'.vspace.1 = some (.vspace vs) := by
  obtain ⟨u, hu, heq⟩ := hv c u' hu'
  obtain ⟨hall, vs, hcap⟩ := h.spaces c u hu
  have hno : ¬ s.res.HoldsObject u.vspace.1 := by
    intro hobject
    obtain ⟨-, obj, kind, hcap'⟩ := hobject
    cases hcap.symm.trans hcap'
  rw [heq]
  exact ⟨hk.allocated _ hno hall, vs, hk.holdsVspace hno hall hcap⟩

theorem idle (h : Settled s) (hs : Sane s) {op : Op} (ht : Turn s op s') (hi : Idle s s')
    (hg : Goes s s') : Settled s' where
  own := h.own_turn hs ht
  cells pid pid' c hp hp' := h.cells pid pid' c (hi.procs ▸ hp) (hi.procs ▸ hp')
  tidy := hi.tidy h.tidy
  spaces := h.spaces_kept hg.slots hi.vspace

theorem links (h : Settled s) (hl : SameLinks s s')
    (hk : SlotsKept s.res.HoldsObject s.res s'.res) : Settled s' where
  own c c' w hw hw' := by
    simp only [State.windowList, hl.initialOf, hl.windowsOf] at hw hw'
    exact h.own c c' w hw hw'
  cells pid pid' c hp hp' := h.cells pid pid' c (hl.procs ▸ hp) (hl.procs ▸ hp')
  tidy := ⟨fun w => by rw [hl.windows]; exact h.tidy.starts w, fun w v hv => by
    rw [hl.windows] at hv
    rw [hl.viewsNext, hl.boundWindow]
    exact h.tidy.bound w v hv⟩
  spaces := h.spaces_kept hk fun c u' hu' => ⟨u', by rw [← hl.procCells]; exact hu', rfl⟩

end Settled

namespace Faulting

variable {v : ViewRef} {f : PendingFault} {pid : Pid}

theorem idle (h : Faulting s v f pid) (hs : Sane s) {op : Op} (ht : Turn s op s')
    (hi : Idle s s') (hv : v < s.views.next) : Faulting s' v f pid := by
  obtain ⟨c, u, hp, hu, hf, hw⟩ := h.proc
  obtain ⟨u', hu', heq⟩ := hi.active c u hu
  have hgeometry : SameGeometry s s' := by
    rcases turn_lists ht with hshrunk | ⟨pid, q, u, base, bytes, -, -, hadded⟩
    · exact hshrunk.toSameGeometry
    · exact hadded.toSameGeometry
  have hbound := hi.boundWindow v hv
  constructor
  · rw [hi.waiting]
    exact h.waits
  · refine ⟨c, u', by rw [hi.procs]; exact hp, hu', by rw [heq]; exact hf, ?_⟩
    rw [hbound]
    exact hi.lists c _ hw
  · rw [hbound, hgeometry.start _ (hs.procWindows c _ hw)]
    exact h.addr

/-- The fault goes on while others come and go. -/
theorem links (h : Faulting s v f pid) (hl : SameLinks s s')
    (hw : s'.res.kernel.waiting.filter (fun e => e.1 == f.reply.1) =
      s.res.kernel.waiting.filter (fun e => e.1 == f.reply.1)) : Faulting s' v f pid := by
  obtain ⟨c, u, hp, hu, hf, hmem⟩ := h.proc
  constructor
  · rw [hw]
    exact h.waits
  · refine ⟨c, u, by rw [hl.procs]; exact hp, by rw [hl.procCells]; exact hu, hf, ?_⟩
    simp only [State.windowList, hl.initialOf, hl.windowsOf, hl.boundWindow]
    exact hmem
  · rw [hl.boundWindow, hl.windows]
    exact h.addr

theorem mem_waiting (h : Faulting s v f pid) : (f.reply.1, pid) ∈ s.res.kernel.waiting := by
  have hmem : (f.reply.1, pid) ∈ s.res.kernel.waiting.filter fun e => e.1 == f.reply.1 := by
    rw [h.waits]
    exact List.mem_singleton_self _
  exact (List.mem_filter.mp hmem).1

end Faulting

/-! ## Turns that leave the faults alone -/

/-- A turn that keeps to the rules. -/
structure FaultsGo (s s' : State) (op : Op) : Prop where
  awaited : Awaited s'
  turn : ∃ evs, s'.res.kernel.log = s.res.kernel.log ++ evs ∧ FaultsTurn s s' op evs

namespace Awaited

theorem pending_lt (hs : Sane s) {v : ViewRef} {f : PendingFault}
    (hf : (s.views v).pendingFault = some f) : v < s.views.next := by
  by_contra hge
  rw [hs.blankView v (Nat.le_of_not_lt hge)] at hf
  cases hf

/-- The reply object of a pending fault is not the one for the next fault. -/
theorem pending_spare (h : Awaited s) {v : ViewRef} {f : PendingFault}
    (hf : (s.views v).pendingFault = some f) : f.reply.1 ≠ s.reply.1 := by
  obtain ⟨pid, hfault⟩ := h.pending v f hf
  exact h.spare _ hfault.mem_waiting

/-- Nobody is answered, and nothing but the root server is mapped a page. -/
theorem quiet_turn {op : Op} {evs : List KernelEvent} (hroot : RootMaps evs)
    (hp : ∀ v f, (s.views v).pendingFault = some f → (s'.views v).pendingFault = some f)
    (hn : ∀ v f, (s'.views v).pendingFault = some f → (s.views v).pendingFault = some f ∨
      ∃ pid, op = .vmFault pid f.addr ∧ (s.views v).pendingFault = none ∧ Faulting s' v f pid) :
    FaultsTurn s s' op evs where
  maps slot vs vaddr e hmem hne := by
    obtain ⟨slot', vaddr', e', heq⟩ := hroot _ hmem
    cases heq
    exact absurd rfl hne
  pending v f hf := by
    refine .inl ⟨hp v f hf, fun pid hmem => ?_⟩
    obtain ⟨slot', vaddr', e', heq⟩ := hroot _ hmem
    cases heq
  forwarded := hn

theorem idle (h : Awaited s) (hs : Sane s) {op : Op} (ht : Turn s op s') (hg : Goes s s')
    (hi : Idle s s') : FaultsGo s s' op where
  awaited :=
    { settled := h.settled.idle hs ht hi hg
      held := fun e he => hi.allocated _ (h.held e (hi.waiting ▸ he))
      spare := fun e he => by
        rw [hi.reply]
        exact h.spare e (hi.waiting ▸ he)
      once := by
        rw [hi.waiting]
        exact h.once
      pending := fun v f hf => by
        rw [hi.pending] at hf
        obtain ⟨pid, hfault⟩ := h.pending v f hf
        exact ⟨pid, hfault.idle hs ht hi (pending_lt hs hf)⟩ }
  turn := by
    obtain ⟨evs, hl, hroot⟩ := hi.log
    exact ⟨evs, hl, quiet_turn hroot (fun v f hf => (hi.pending v).trans hf) fun v f hf =>
      .inl ((hi.pending v).symm.trans hf)⟩

end Awaited

/-! ## Pages that are mapped -/

/-- The log of a page that is mapped into the address space in a slot. -/
theorem Mapped.logged {v : ViewRef} {offset addr : Nat} {vspace : Slot} {vs : VSpaceId}
    (h : Mapped v offset vspace addr s s') (hall : s.res.cspace.Allocated vspace)
    (hvs : s.res.kernel.caps vspace = some (.vspace vs)) :
    ∃ cap e evs r, RootMaps evs ∧ (s.views v).lookupCap offset = some cap ∧
      s' = { s with res := r } ∧ r.kernel.waiting = s.res.kernel.waiting ∧
      (∀ c, s.res.cspace.Allocated c → r.cspace.Allocated c) ∧
      r.kernel.log = s.res.kernel.log ++ (evs ++ [.map cap vs (roundDown addr) e]) := by
  obtain ⟨cap, r, hlook, hmap, rfl⟩ := h
  obtain ⟨r₁, k, hq, hk, rfl⟩ := hmap
  obtain ⟨obj, orig, access, m, vs', hcap, hvs', -, -, rfl⟩ := Kernel.frameMap_ok hk
  cases hvs'.symm.trans ((hq.grow.caps _ hall).trans hvs)
  obtain ⟨evs, hl, hroot⟩ := hq.grow.log
  refine ⟨cap, ⟨obj, access.mask (s.views v).rights⟩, evs, _, hroot, hlook, rfl, hq.grow.waiting,
    hq.grow.allocated, ?_⟩
  show r₁.kernel.log ++ _ = _
  rw [hl, List.append_assoc]

section Log

variable {evs : List KernelEvent} {cap c : Slot} {vs : VSpaceId} {vaddr : Nat} {e : PageEntry}
  {pid : Pid}

theorem mem_mapReply (hroot : RootMaps evs) {ev : KernelEvent}
    (h : ev ∈ evs ++ [.map cap vs vaddr e, .reply c pid]) :
    (∃ slot vaddr e, ev = .map slot rootVSpace vaddr e) ∨ ev = .map cap vs vaddr e ∨
      ev = .reply c pid := by
  rcases List.mem_append.mp h with h | h
  · exact .inl (hroot ev h)
  · right
    simpa using h

theorem reply_of_mem (hroot : RootMaps evs) {c' : Slot} {pid' : Pid}
    (h : .reply c' pid' ∈ evs ++ [.map cap vs vaddr e, .reply c pid]) : c' = c := by
  rcases mem_mapReply hroot h with ⟨slot, vaddr', e', heq⟩ | heq | heq
  · cases heq
  · cases heq
  · cases heq
    rfl

/-- One page is mapped for a process, and it is the right one. -/
theorem mapsRight_one (hroot : RootMaps evs) {u : UserProcess} {v : ViewRef} {offset : Nat}
    (hu : s'.procCells p = .activeProcess u)
    (hvs : s.res.kernel.caps u.vspace.1 = some (.vspace vs))
    (hw : (s'.views v).boundWindow ∈ s'.windowList p)
    (hlook : (s'.views v).lookupCap offset = some cap)
    (hvaddr : vaddr = roundDown ((s'.windows (s'.views v).boundWindow).start + offset)) :
    MapsRight s s' (evs ++ [.map cap vs vaddr e, .reply c pid]) := by
  intro slot vs' vaddr' e' hev hne
  rcases mem_mapReply hroot hev with ⟨slot', vaddr'', e'', heq⟩ | heq | heq
  · cases heq
    exact absurd rfl hne
  · cases heq
    exact ⟨p, u, v, offset, hu, hvs, hw, hlook, hvaddr⟩
  · cases heq

end Log

/-- Who waits on the reply object is resumed. -/
theorem Kernel.replySend_of_find {k : Kernel} {c : Slot} {e : Slot × Pid}
    (h : k.waiting.find? (fun e => e.1 == c) = some e) :
    (k.replySend c).waiting = k.waiting.erase e ∧
      (k.replySend c).log = k.log ++ [.reply c e.2] := by
  unfold Kernel.replySend
  rw [h]
  exact ⟨rfl, rfl⟩

namespace Awaited

/-- A fault that is served is mapped the page that faulted, and resumed. -/
theorem faultServed (h : Awaited s) (hsh : Shared s) {pid : Pid} {addr : Nat}
    (hf : Faulted p s.reply addr (s.blockOn pid) (some ⟨true⟩) s₁) :
    FaultsGo s (s₁.resume s.reply) (.vmFault pid addr) := by
  have hgoes := hsh.faultServed pid hf
  have hblock := hsh.blockOn pid
  have hl : SameLinks s (s₁.resume s.reply) :=
    ((SameLinks.blockOn s pid).trans (.faulted hf)).trans (.resume _ _)
  cases hf with
  | served w v u' s₂ s₁ window bound source proc mapped =>
    have hi := Idle.sourcePage source
    have hpages := hblock.trans (hblock.shared.sourcePage source)
    obtain ⟨hall, vs, hcap⟩ := h.settled.spaces p u' proc
    have hno : ¬ s.res.HoldsObject u'.vspace.1 := by
      intro hobject
      obtain ⟨-, obj, kind, hcap'⟩ := hobject
      cases hcap.symm.trans hcap'
    obtain ⟨cap, e, evs, r, hroot, hlook, rfl, hwaiting, hkeep, hlog⟩ := mapped.logged
      (hpages.slots.allocated _ hno hall) (hpages.slots.holdsVspace hno hall hcap)
    obtain ⟨evs₀, hlog₀, hroot₀⟩ := hi.log
    have hwaiting₀ : r.kernel.waiting = (s.reply.1, pid) :: s.res.kernel.waiting :=
      hwaiting.trans hi.waiting
    have hfind : r.kernel.waiting.find? (fun e => e.1 == s.reply.1) = some (s.reply.1, pid) := by
      rw [hwaiting₀]
      simp
    obtain ⟨hsent, hsentLog⟩ := Kernel.replySend_of_find hfind
    have hafter : (r.kernel.replySend s.reply.1).waiting = s.res.kernel.waiting := by
      rw [hsent, hwaiting₀, List.erase_cons_head]
    have hpending : ∀ v', (s₂.views v').pendingFault = (s.views v').pendingFault := hi.pending
    have hmem : w ∈ s.windowList p := List.mem_of_find?_eq_some window
    have hcontains : (s.windows w).Contains addr := by
      have hdecide := List.find?_some window
      exact of_decide_eq_true hdecide
    constructor
    · constructor
      · exact h.settled.links hl hgoes.slots
      · intro e he
        exact hkeep _ (hi.allocated _ (h.held e (hafter ▸ he)))
      · intro e he
        have hreply : s₂.reply = s.reply := hi.reply
        show e.1 ≠ s₂.reply.1
        rw [hreply]
        exact h.spare e (hafter ▸ he)
      · show ((r.kernel.replySend s.reply.1).waiting.map Prod.snd).Nodup
        rw [hafter]
        exact h.once
      · intro v' f hf
        obtain ⟨pid', hfault⟩ := h.pending v' f ((hpending v').symm.trans hf)
        refine ⟨pid', hfault.links hl ?_⟩
        show (r.kernel.replySend s.reply.1).waiting.filter _ = _
        rw [hafter]
    · refine ⟨evs₀ ++ evs ++ [.map cap vs (roundDown addr) e, .reply s.reply.1 pid], ?_, ?_⟩
      · show (r.kernel.replySend s.reply.1).log = _
        rw [hsentLog, hlog, hlog₀]
        simp [State.blockOn, Kernel.block]
      have hroots := hroot₀.append hroot
      constructor
      · have hbound : (s₂.views v).boundWindow = w := by
          rw [hi.boundWindow v (h.settled.tidy.bound w v bound).1]
          exact (h.settled.tidy.bound w v bound).2
        have hl₂ : SameLinks s s₂ := (SameLinks.blockOn s pid).trans (.sourcePage source)
        refine mapsRight_one hroots (u := u') (v := v) (by rw [hl.procCells]; exact proc) hcap ?_
          hlook ?_
        · show (s₂.views v).boundWindow ∈ s₂.windowList p
          rw [hbound]
          simpa only [State.windowList, hl₂.initialOf, hl₂.windowsOf] using hmem
        · show _ = roundDown ((s₂.windows (s₂.views v).boundWindow).start + _)
          rw [hbound, hl₂.windows]
          exact congrArg roundDown (Nat.add_sub_of_le hcontains.1).symm
      · intro v' f hf
        exact .inl ⟨(hpending v').trans hf, fun pid' hev =>
          h.pending_spare hf (reply_of_mem hroots hev)⟩
      · intro v' f hf
        exact .inl ((hpending v').symm.trans hf)

/-- A view of a process that runs has no pending fault. -/
theorem noPending (h : Awaited s) {pid : Pid} {u : UserProcess} (act : Acting s pid p u)
    (hrun : s.res.kernel.blocked pid = false) {w : WindowRef} {v : ViewRef}
    (hw : w ∈ s.windowList p) (hv : (s.windows w).boundView = some v) :
    (s.views v).pendingFault = none := by
  cases hf : (s.views v).pendingFault with
  | none => rfl
  | some f =>
    exfalso
    obtain ⟨pid', hfault⟩ := h.pending v f hf
    obtain ⟨p', u', hp', -, -, hmem⟩ := hfault.proc
    rw [(h.settled.tidy.bound w v hv).2] at hmem
    have hp := h.settled.own p p' w hw hmem
    subst hp
    have hpid := h.settled.cells pid pid' p act.cell hp'
    subst hpid
    have hblocked : s.res.kernel.blocked pid = true := by
      simp only [Kernel.blocked, List.any_eq_true]
      exact ⟨_, hfault.mem_waiting, by simp⟩
    cases hrun.symm.trans hblocked

/-- Whoever starts to wait does so on the spare reply object, which no pending fault has. -/
theorem filter_blocked (h : Awaited s) {pid : Pid} (hq : Quiet (s.blockOn pid).res s'.res)
    {v : ViewRef} {f : PendingFault} (hf : (s.views v).pendingFault = some f) :
    s'.res.kernel.waiting.filter (fun e => e.1 == f.reply.1) =
      s.res.kernel.waiting.filter (fun e => e.1 == f.reply.1) := by
  have hwaiting : s'.res.kernel.waiting = (s.reply.1, pid) :: s.res.kernel.waiting :=
    hq.grow.waiting
  rw [hwaiting, List.filter_cons_of_neg]
  simpa using (h.pending_spare hf).symm

/-- A process that is not answered in its turn waits, and there is a new reply object. It is
enough to see what becomes of the pending faults. -/
theorem blocked (h : Awaited s) (hsh : Shared s) {pid : Pid}
    (hrun : s.res.kernel.blocked pid = false) (op : Op) (hres : s₁.res = (s.blockOn pid).res)
    {r' : Res} {reply : Alloc} (hr : Renewed r' reply s₁ s') (hsettled : Settled s')
    (hold : ∀ v f pid', (s.views v).pendingFault = some f → Faulting s v f pid' →
      Faulting s' v f pid')
    (hp : ∀ v f, (s.views v).pendingFault = some f → (s'.views v).pendingFault = some f)
    (hn : ∀ v f, (s'.views v).pendingFault = some f → (s.views v).pendingFault = some f ∨
      ∃ pid, op = .vmFault pid f.addr ∧ (s.views v).pendingFault = none ∧ Faulting s' v f pid) :
    FaultsGo s s' op := by
  have hq : Quiet (s.blockOn pid).res r' := hres ▸ hr.quiet
  have hwaiting : r'.kernel.waiting = (s.reply.1, pid) :: s.res.kernel.waiting := hq.grow.waiting
  have hfresh : ¬ s.res.cspace.Allocated reply.1 := by
    have hfresh := hr.fresh
    rw [hres] at hfresh
    exact hfresh
  obtain ⟨evs, hlog, hroot⟩ := hq.grow.log
  have heq := hr.eq
  subst heq
  -- who waits has a reply object that was there before
  have hheld : ∀ e ∈ r'.kernel.waiting, s.res.cspace.Allocated e.1 := by
    intro e he
    rcases List.mem_cons.mp (hwaiting ▸ he) with rfl | he
    · exact hsh.replies.spare.1
    · exact h.held e he
  constructor
  · constructor
    · exact hsettled
    · exact fun e he => hq.grow.allocated _ (hheld e he)
    · exact fun e he hreply => hfresh (hreply ▸ hheld e he)
    · show (r'.kernel.waiting.map Prod.snd).Nodup
      rw [hwaiting, List.map_cons, List.nodup_cons]
      refine ⟨fun hmem => ?_, h.once⟩
      obtain ⟨e, he, heq⟩ := List.mem_map.mp hmem
      have hblocked : s.res.kernel.blocked pid = true := by
        simp only [Kernel.blocked, List.any_eq_true]
        exact ⟨e, he, by simpa using heq⟩
      cases hrun.symm.trans hblocked
    · intro v f hf
      rcases hn v f hf with hf' | ⟨pid', -, -, hfault⟩
      · obtain ⟨pid', hfault⟩ := h.pending v f hf'
        exact ⟨pid', hold v f pid' hf' hfault⟩
      · exact ⟨pid', hfault⟩
  · exact ⟨evs, hlog, quiet_turn hroot hp hn⟩

/-- A process that waits for another one to end does not change what is pending. -/
theorem awaited (h : Awaited s) (hsh : Shared s) {pid : Pid} {proc : Nat}
    (hrun : s.res.kernel.blocked pid = false) {op : Op} {r' : Res} {reply : Alloc}
    (hr : Renewed r' reply (s.awaits proc pid) s') : FaultsGo s s' op := by
  have hgoes := hsh.awaited hr
  have hi := Idle.waiter s proc
  have hlists := s.windowList_waiter proc
  have hl : SameLinks (s.updProc proc fun u => { u with waiter := some s.reply }) s' :=
    (SameLinks.blockOn _ pid).trans (.renewed hr)
  have hviews : ∀ v, (s'.views v).pendingFault = (s.views v).pendingFault := by
    intro v
    rw [hr.eq]
    rfl
  have hq : Quiet (s.blockOn pid).res s'.res := by
    rw [hr.eq]
    exact hr.quiet
  have hres : (s.awaits proc pid).res = (s.blockOn pid).res := rfl
  refine h.blocked hsh hrun op hres hr ?_ ?_ (fun v f hf => (hviews v).trans hf) fun v f hf =>
    .inl ((hviews v).symm.trans hf)
  · have hsettled : Settled (s.updProc proc fun u => { u with waiter := some s.reply }) :=
      { own := fun c c' w hw hw' => h.settled.own c c' w (hlists c ▸ hw) (hlists c' ▸ hw')
        cells := h.settled.cells
        tidy := hi.tidy h.settled.tidy
        spaces := h.settled.spaces_kept (.refl _ _) hi.vspace }
    exact hsettled.links hl hgoes.slots
  · intro v f pid' hf hfault
    obtain ⟨c, u, hp, hu, hspace, hw⟩ := hfault.proc
    obtain ⟨u', hu', heq⟩ := hi.active c u hu
    have hfault₁ : Faulting (s.updProc proc fun u => { u with waiter := some s.reply }) v f pid' :=
      ⟨hfault.waits, ⟨c, u', hp, hu', by rw [heq]; exact hspace, by rw [hlists]; exact hw⟩,
        hfault.addr⟩
    exact hfault₁.links hl (h.filter_blocked hq hf)

/-- A fault that is not served blocks its process; a server may be told of it. -/
theorem faultLeft (h : Awaited s) (hsh : Shared s) {pid : Pid} {addr : Nat} {u : UserProcess}
    (act : Acting s pid p u) (hrun : s.res.kernel.blocked pid = false)
    {x : Option FaultReply} {r' : Res} {reply : Alloc}
    (hf : Faulted p s.reply addr (s.blockOn pid) x s₁) (hx : x ≠ some ⟨true⟩)
    (hr : Renewed r' reply s₁ s') : FaultsGo s s' (.vmFault pid addr) := by
  have hgoes := hsh.faultLeft pid hf hx hr
  have hl : SameLinks s s' :=
    ((SameLinks.blockOn s pid).trans (.faulted hf)).trans (.renewed hr)
  have hres : s₁.res = (s.blockOn pid).res := by
    cases hf with
    | served => exact absurd rfl hx
    | _ => rfl
  have hq : Quiet (s.blockOn pid).res s'.res := by
    rw [hr.eq, ← hres]
    exact hr.quiet
  have hviews : s'.views = s₁.views := by rw [hr.eq]
  have hgo := h.blocked hsh hrun (.vmFault pid addr) hres hr
    (h.settled.links hl hgoes.slots) fun v f pid' hf hfault =>
      hfault.links hl (h.filter_blocked hq hf)
  rw [hviews] at hgo
  cases hf with
  | nowhere => exact hgo (fun _ _ hf => hf) fun _ _ hf => .inl hf
  | unbound => exact hgo (fun _ _ hf => hf) fun _ _ hf => .inl hf
  | forwarded w v srv clientId reference u' window bound missing external info proc =>
    have hmem : w ∈ s.windowList p := List.mem_of_find?_eq_some window
    have hnone := h.noPending act hrun hmem bound
    have hcontains : (s.windows w).Contains addr := by
      have hdecide := List.find?_some window
      exact of_decide_eq_true hdecide
    have hbound := (h.settled.tidy.bound w v bound).2
    refine hgo ?_ ?_
    · intro v' f hf
      have hne : v' ≠ v := by
        rintro rfl
        cases hnone.symm.trans hf
      simp only [Heap.update_of_ne _ hne]
      exact hf
    · intro v' f hf
      by_cases hne : v' = v
      · subst hne
        simp only [Heap.update_self, Option.some.injEq] at hf
        subst hf
        refine .inr ⟨pid, rfl, hnone, ?_, ?_, ?_⟩
        · have hwaiting : s'.res.kernel.waiting = (s.reply.1, pid) :: s.res.kernel.waiting :=
            hq.grow.waiting
          rw [hwaiting, List.filter_cons_of_pos (by simp)]
          refine congrArg _ (List.filter_eq_nil_iff.mpr fun e he => ?_)
          simpa using h.spare e he
        · refine ⟨p, u', by rw [hl.procs]; exact act.cell, by rw [hl.procCells]; exact proc, rfl,
            ?_⟩
          rw [hl.boundWindow, hbound]
          simp only [State.windowList, hl.initialOf, hl.windowsOf]
          exact hmem
        · rw [hl.boundWindow, hl.windows, hbound]
          exact hcontains.1
      · simp only [Heap.update_of_ne _ hne] at hf
        exact .inl hf
  | served => exact absurd rfl hx

end Awaited

/-! ## Answers -/

section Waiting

variable {W : List (Slot × Pid)} {c : Slot} {pid : Pid}

/-- Who waits alone on a reply object is the only one there. -/
theorem eq_of_waits (h : W.filter (fun e => e.1 == c) = [(c, pid)]) {e : Slot × Pid} (he : e ∈ W)
    (hc : e.1 = c) : e = (c, pid) := by
  have hmem : e ∈ W.filter fun e => e.1 == c := List.mem_filter.mpr ⟨he, by simpa using hc⟩
  rw [h] at hmem
  exact List.mem_singleton.mp hmem

/-- When he is answered, nobody waits there, and he waits nowhere. -/
theorem mem_erase_waits (hn : (W.map Prod.snd).Nodup)
    (h : W.filter (fun e => e.1 == c) = [(c, pid)]) {e : Slot × Pid} (he : e ∈ W.erase (c, pid)) :
    e ∈ W ∧ e.1 ≠ c ∧ e.2 ≠ pid := by
  have hW : W.Nodup := hn.of_map Prod.snd
  obtain ⟨hne, hmem⟩ := hW.mem_erase_iff.mp he
  have hin : (c, pid) ∈ W := by
    have hfilter : (c, pid) ∈ W.filter fun e => e.1 == c := by
      rw [h]
      exact List.mem_singleton_self _
    exact (List.mem_filter.mp hfilter).1
  exact ⟨hmem, fun hc => hne (eq_of_waits h hmem hc), fun hp =>
    hne (List.inj_on_of_nodup_map hn hmem hin hp)⟩

/-- Who waits elsewhere waits on. -/
theorem filter_erase_waits (hn : W.Nodup) {c' : Slot} (hne : c' ≠ c) :
    (W.erase (c, pid)).filter (fun e => e.1 == c') = W.filter fun e => e.1 == c' := by
  rw [hn.erase_eq_filter, List.filter_filter]
  refine List.filter_congr fun e _ => ?_
  by_cases he : e.1 = c'
  · have hne' : e ≠ (c, pid) := by
      rintro rfl
      exact hne he.symm
    simp [he, hne']
  · simp [he]

end Waiting

/-- What giving back a reply object leaves. -/
theorem Deallocated.quiet {x : Alloc} {r r' : Res} (h : Deallocated x r r') :
    r'.kernel.waiting = r.kernel.waiting ∧ r'.kernel.log = r.kernel.log ∧
      ∀ c, c ≠ x.1 → r.cspace.Allocated c → r'.cspace.Allocated c := by
  obtain ⟨r₁, hf, heq⟩ := h.freed
  obtain ⟨hwaiting, hlog⟩ := Kernel.delete_quiet r.kernel x.1
  rw [heq, hf.eq]
  exact ⟨hwaiting, hlog, fun c hc hall => (hf.others c hc).mpr hall⟩

theorem View.lookupCap_roundDown (v : View) (offset : Nat) :
    v.lookupCap (roundDown offset) = v.lookupCap offset := by
  unfold View.lookupCap PageTable.lookupAt
  rw [path_roundDown]

/-- The page of a fault, and where it is. -/
theorem roundDown_faulted {start addr : Nat} (hstart : start % pageSize4K = 0)
    (hle : start ≤ addr) : roundDown addr = roundDown (start + roundDown (addr - start)) := by
  unfold roundDown pageSize4K at *
  omega

/-- `PageMap` answers the fault that is pending on the view, with its own page. -/
theorem Awaited.pageMapped (h : Awaited s) (hs : Sane s) (hsh : Shared s) {op : Op}
    {args : PageMapArgs} {dst src : ViewRef} {w : WindowRef} {cap slot : Slot} {cs : CSpace}
    {k : Kernel} {view : View} {s₂ : State} (ht : Turn s op s')
    (hm : PageMapped p args dst src w cap slot cs k view s₁ s₂ s s')
    (hpage : ∀ f, (s.views dst).pendingFault = some f →
      args.viewOffset = roundDown (f.addr - (s.windows (s.views dst).boundWindow).start)) :
    FaultsGo s s' op := by
  have hext := hs.registered _ _ hm.registration
  have hcopied := hsh.pageCopied hext hm
  have hgoes := hsh.pageMapped hext hm
  have hi : Idle s s₂ := (Idle.sourcePage hm.source).trans (.copied hm.copied)
  have hl := SameLinks.pageMapped hm
  have hanswered := hm.answered
  cases hanswered with
  | idle => exact h.idle hs ht hgoes hi
  | answered pending s₃ r' hp mapped dealloc =>
    have hp₀ : (s.views dst).pendingFault = some pending := (hi.pending dst).symm.trans hp
    obtain ⟨pid, hfault⟩ := h.pending dst pending hp₀
    obtain ⟨c, u, hproc, hcell, hspace, hmem⟩ := hfault.proc
    obtain ⟨hall, vs, hcap⟩ := h.settled.spaces c u hcell
    rw [← hspace] at hall hcap
    have hno : ¬ s.res.HoldsObject pending.vspace := by
      intro hobject
      obtain ⟨-, obj, kind, hcap'⟩ := hobject
      cases hcap.symm.trans hcap'
    obtain ⟨cap', e, evs, r, hroot, hlook, rfl, hwaiting, hkeep, hlog⟩ := mapped.logged
      (hcopied.slots.allocated _ hno hall) (hcopied.slots.holdsVspace hno hall hcap)
    obtain ⟨evs₀, hlog₀, hroot₀⟩ := hi.log
    have hwaiting₀ : r.kernel.waiting = s.res.kernel.waiting := hwaiting.trans hi.waiting
    have hfind : r.kernel.waiting.find? (fun e => e.1 == pending.reply.1) =
        some (pending.reply.1, pid) := by
      rw [hwaiting₀, ← List.head?_filter, hfault.waits]
      rfl
    obtain ⟨hsent, hsentLog⟩ := Kernel.replySend_of_find hfind
    obtain ⟨hdealloc, hdeallocLog, hdeallocKeep⟩ := dealloc.quiet
    have hafter : r'.kernel.waiting = s.res.kernel.waiting.erase (pending.reply.1, pid) := by
      rw [hdealloc, hsent, hwaiting₀]
    have hroots := hroot₀.append hroot
    have hleft : ∀ {e}, e ∈ r'.kernel.waiting →
        e ∈ s.res.kernel.waiting ∧ e.1 ≠ pending.reply.1 ∧ e.2 ≠ pid := by
      intro e he
      rw [hafter] at he
      exact mem_erase_waits h.once hfault.waits he
    have hstate : SameLinks s { s₂ with
        res := r'
        views := s₂.views.update dst fun view => { view with pendingFault := none } } := hl
    -- the answered view, and the others
    have hself : (s₂.views.update dst fun view => { view with pendingFault := none }) dst =
        { s₂.views dst with pendingFault := none } := Heap.update_self ..
    have hother : ∀ v, v ≠ dst →
        ((s₂.views.update dst fun view => { view with pendingFault := none }) v).pendingFault =
          (s.views v).pendingFault := by
      intro v hv
      rw [Heap.update_of_ne _ hv]
      exact hi.pending v
    have hapart : ∀ v f, v ≠ dst → (s.views v).pendingFault = some f →
        f.reply.1 ≠ pending.reply.1 := fun v f hv hf => hsh.replies.apart v dst f pending hf hp₀ hv
    constructor
    · constructor
      · exact h.settled.links hstate hgoes.slots
      · intro e he
        obtain ⟨hold, hne, -⟩ := hleft he
        exact hdeallocKeep _ hne (hkeep _ (hi.allocated _ (h.held e hold)))
      · intro e he
        have hreply : s₂.reply = s.reply := hi.reply
        show e.1 ≠ s₂.reply.1
        rw [hreply]
        exact h.spare e (hleft he).1
      · show (r'.kernel.waiting.map Prod.snd).Nodup
        rw [hafter]
        exact h.once.sublist (List.erase_sublist.map Prod.snd)
      · intro v f hf
        by_cases hv : v = dst
        · subst hv
          simp only [hself] at hf
          cases hf
        · have hf₀ := (hother v hv).symm.trans hf
          obtain ⟨pid', hfault'⟩ := h.pending v f hf₀
          refine ⟨pid', hfault'.links hstate ?_⟩
          show r'.kernel.waiting.filter _ = _
          rw [hafter]
          exact filter_erase_waits (h.once.of_map Prod.snd) (hapart v f hv hf₀)
    · refine ⟨evs₀ ++ evs ++ [.map cap' vs (roundDown pending.addr) e,
        .reply pending.reply.1 pid], ?_, ?_⟩
      · show r'.kernel.log = _
        rw [hdeallocLog, hsentLog, hlog, hlog₀]
        simp
      have hlook' : ((s₂.views.update dst fun view => { view with pendingFault := none })
          dst).lookupCap args.viewOffset = some cap' := by
        rw [hself]
        exact hlook
      constructor
      · refine mapsRight_one hroots (u := u) (v := dst) (p := c)
          (by rw [hstate.procCells]; exact hcell) (by rw [← hspace]; exact hcap) ?_ hlook' ?_
        · rw [hstate.boundWindow]
          simp only [State.windowList, hstate.initialOf, hstate.windowsOf]
          exact hmem
        · rw [hstate.boundWindow, hstate.windows, hpage pending hp₀]
          exact roundDown_faulted (h.settled.tidy.starts _) hfault.addr
      · intro v f hf
        by_cases hv : v = dst
        · subst hv
          cases hp₀.symm.trans hf
          refine .inr ⟨⟨evs₀ ++ evs, cap', vs, e, pid, hroots, hfault, rfl, ?_, ?_⟩, ?_⟩
          · rw [hstate.boundWindow, hstate.windows, ← View.lookupCap_roundDown, ← hpage _ hp₀]
            exact hlook'
          · simp only [Kernel.blocked, List.any_eq_false]
            intro e' he'
            simpa using (hleft he').2.2
          · simp only [hself]
        · exact .inl ⟨(hother v hv).trans hf, fun pid' hev =>
            hapart v f hv hf (reply_of_mem hroots hev)⟩
      · intro v f hf
        by_cases hv : v = dst
        · subst hv
          simp only [hself] at hf
          cases hf
        · exact .inl ((hother v hv).symm.trans hf)

/-! ## Every turn -/

theorem Awaited.turn (h : Awaited s) (hs : Sane s) (hsh : Shared s) {op : Op} (hop : op.Builds)
    (hans : op.Answers s) (hrun : op.enabled s = true) (ht : Turn s op s') : FaultsGo s s' op := by
  have hgoes := hsh.turn hs hop ht
  have hidle : Idle s s' → FaultsGo s s' op := h.idle hs ht hgoes
  cases ht with
  | refused => exact hidle (.refl s)
  | windowCreate p u _ hc => exact hidle (.windowCreated hc)
  | windowRegister p u srv w idx _ hr => exact hidle (.windowRegistered hs hr)
  | objCreate p u s₁ idx _ hm _ _ => exact hidle ((Idle.objMade hm).trans (.giveHandle _ _ _ _ _))
  | objLeft p u _ hm => exact hidle (.objMade hm)
  | @view pid args s' p u w o idx _ hm =>
    have heq := hm.eq
    subst heq
    have h₁ := Idle.linkView hs o (x := args.newView w o) rfl rfl
    have h₂ := h₁.trans (.setHandleAt _ (.table p idx) (some (.view s.views.next)))
    exact hidle (h₂.trans (.updProc _ p (fun _ => rfl) (fun _ => rfl) fun _ _ hw => hw))
  | @viewLeft pid args p u w o =>
    exact hidle (.linkView hs o (x := args.newView w o) rfl rfl)
  | connPublish p u f r₁ r₂ object page s₁ idx srv _ hp hp' =>
    exact hidle ((Idle.publishing hs hp).trans (.published hp'))
  | connTried p u r' _ hr => exact hidle (.grow hr.grow)
  | connLeft p u f r₁ r₂ object page _ hp => exact hidle (.publishing hs hp)
  | pageMap p u dst src w cap slot cs k view s₁ s₂ act hm =>
    exact h.pageMapped hs hsh (.pageMap p u dst src w cap slot cs k view s₁ s₂ act hm) hm
      fun f hf => Op.Answers.page hans act.cell hm.registration hf
  | faultServed p u s₁ act hf => exact h.faultServed hsh hf
  | faultLeft p u x s₁ r' reply act hf hx renewed =>
    exact h.faultLeft hsh act (by simpa [Op.enabled, Op.pid] using hrun) hf hx renewed
  | registry p u _ hb => exact hidle (.beside hb)
  | processWait p u proc r' reply _ renewed =>
    exact h.awaited hsh (by simpa [Op.enabled, Op.pid] using hrun) renewed
  | takeNotification srv => exact hidle (.congr (.refl _) rfl rfl rfl rfl rfl)
  | userWrite p u => exact hidle (.userWrite s _ _ _)
  | windowDestroy | windowDeregister | objDestroy | unview | loadComplete | connDestroy =>
    exact hop.elim

/-! ## Runs from boot -/

/-- A state after boot: nobody waits, no two processes have a window in common, windows start at
pages, and every process has an address space. -/
structure BootedAwaiting (s : State) : Prop where
  shared : BootedShared s
  quiet : s.res.kernel.waiting = []
  own : ∀ p p' w, w ∈ s.initialOf p → w ∈ s.initialOf p' → p = p'
  cells : ∀ pid pid' p, s.procs pid = some p → s.procs pid' = some p → pid = pid'
  starts : ∀ w, (s.windows w).start % pageSize4K = 0
  spaces : ∀ p u, s.procCells p = .activeProcess u → s.res.cspace.Allocated u.vspace.1 ∧
    ∃ vs, s.res.kernel.caps u.vspace.1 = some (.vspace vs)

theorem BootedAwaiting.awaited (h : BootedAwaiting s) : Awaited s where
  settled :=
    { own := fun c c' w hw hw' => by
        simp only [State.windowList, h.shared.booted.windowsOf, List.append_nil] at hw hw'
        exact h.own c c' w hw hw'
      cells := h.cells
      tidy := ⟨h.starts, fun w v hv => by
        rcases h.shared.booted.loaded_or_blank w with ⟨hw, hl⟩ | ⟨-, hb, -⟩
        · cases hl.boundView.symm.trans hv
          exact ⟨h.shared.booted.viewsNext ▸ hw, hl.boundWindow⟩
        · rw [hb] at hv
          cases hv⟩
      spaces := h.spaces }
  held e he := absurd (h.quiet ▸ he) List.not_mem_nil
  spare e he := absurd (h.quiet ▸ he) List.not_mem_nil
  once := by simp [h.quiet]
  pending v f hf := by
    rw [h.shared.noPending] at hf
    cases hf

/-- The turns of a run: nothing is torn down, and servers answer with the page that faulted. -/
def Op.Forwards (s : State) (op : Op) : Prop := op.Builds ∧ op.Answers s

instance (s : State) (op : Op) : Decidable (op.Forwards s) := inferInstanceAs (Decidable (_ ∧ _))

/-- The fault is still pending, and nobody was answered with its reply object. -/
structure Pends (s s' : State) (v : ViewRef) (f : PendingFault) : Prop where
  pending : (s'.views v).pendingFault = some f
  unanswered : ∃ evs, s'.res.kernel.log = s.res.kernel.log ++ evs ∧
    ∀ pid, .reply f.reply.1 pid ∉ evs

/-- The turns from one state to another, and the one of them that answers the fault. -/
def AnsweredOnce (guard : State → Op → Prop) (s : State) (v : ViewRef) (f : PendingFault)
    (ops : List Op) : Prop :=
  ∃ before op after s₁ s₂ evs, ops = before ++ op :: after ∧
    Run (fun s₀ => s₀ = s) next guard before s₁ ∧ Pends s s₁ v f ∧ next s₁ op = some s₂ ∧
    s₂.res.kernel.log = s₁.res.kernel.log ++ evs ∧ Answering s₁ s₂ evs v f

theorem Awaited.run (h : Awaited s) (hs : Sane s) (hsh : Shared s) {v : ViewRef} {f : PendingFault}
    (hf : (s.views v).pendingFault = some f) {ops : List Op}
    (run : Run (fun s₀ => s₀ = s) next (fun s op => op.Forwards s) ops s') :
    (Sane s' ∧ Shared s' ∧ Awaited s') ∧
      (Pends s s' v f ∨ AnsweredOnce (fun s op => op.Forwards s) s v f ops) := by
  induction run with
  | init heq =>
    subst heq
    exact ⟨⟨hs, hsh, h⟩, .inl ⟨hf, [], by simp, by simp⟩⟩
  | @step ops s₁ s' op run hok hn ih =>
    obtain ⟨⟨hs₁, hsh₁, h₁⟩, hcase⟩ := ih
    have ht := next_turn hs₁ hn
    have hrun : op.enabled s₁ = true := by
      unfold next at hn
      split at hn
      · assumption
      · cases hn
    obtain ⟨hawaited, evs, hlog, hturn⟩ := h₁.turn hs₁ hsh₁ hok.1 hok.2 hrun ht
    refine ⟨⟨hs₁.turn ht, (hsh₁.turn hs₁ hok.1 ht).shared, hawaited⟩, ?_⟩
    rcases hcase with hp | ⟨before, op', after, s₂, s₃, evs', hops, hrun', hp, hn', hlog', hans⟩
    · rcases hturn.pending v f hp.pending with ⟨hkeep, hno⟩ | hans
      · obtain ⟨evs₀, hlog₀, hno₀⟩ := hp.unanswered
        refine .inl ⟨hkeep, evs₀ ++ evs, by rw [hlog, hlog₀, List.append_assoc], fun pid hmem => ?_⟩
        rcases List.mem_append.mp hmem with hmem | hmem
        · exact hno₀ pid hmem
        · exact hno pid hmem
      · exact .inr ⟨ops, op, [], s₁, s', evs, rfl, run, hp, hn, hlog, hans⟩
    · exact .inr ⟨before, op', after ++ [op], s₂, s₃, evs', by simp [hops], hrun', hp, hn', hlog',
        hans⟩

/-- Where servers answer with the page that faulted, every page that is mapped for a process is
the one its view has there, and a forwarded fault is answered once, after its page is mapped. -/
theorem forwarded_answered {ops : List Op} {s : State}
    (run : Run BootedAwaiting next (fun s op => op.Forwards s) ops s) :
    (∀ op s', op.Forwards s → next s op = some s' →
      ∃ evs, s'.res.kernel.log = s.res.kernel.log ++ evs ∧ FaultsTurn s s' op evs) ∧
    ∀ v f, (s.views v).pendingFault = some f → (∃ pid, Faulting s v f pid) ∧
      ∀ ops' s', Run (fun s₀ => s₀ = s) next (fun s op => op.Forwards s) ops' s' →
        Pends s s' v f ∨ AnsweredOnce (fun s op => op.Forwards s) s v f ops' := by
  obtain ⟨hs, hsh, h⟩ := run_invariant (I := fun s => Shared s ∧ Awaited s)
    (fun _ h => h.shared.booted) (fun _ h => ⟨h.shared.shared, h.awaited⟩)
    (fun s op s' hs h hop hrun ht => ⟨(h.1.turn hs hop.1 ht).shared,
      (h.2.turn hs h.1 hop.1 hop.2 hrun ht).awaited⟩) run
  constructor
  · intro op s' hop hn
    have hrun : op.enabled s = true := by
      unfold next at hn
      split at hn
      · assumption
      · cases hn
    exact (h.turn hs hsh hop.1 hop.2 hrun (next_turn hs hn)).turn
  · intro v f hf
    exact ⟨h.pending v f hf, fun ops' s' run' => (h.run hs hsh hf run').2⟩

/-- A client faults on a window whose server has a page to answer with. -/
def demoForwarded : List Op :=
  [.connPublish 1 ⟨"ring", 0x10000000⟩, .windowCreate 0 ⟨0x20000000, 0x2000, true⟩,
    .windowRegister 1 ⟨0, 0, 7, 1⟩, .objCreate 1 ⟨none, 0x1000, .all, .default, false⟩ none,
    .windowCreate 1 ⟨0x30000000, 0x1000, false⟩, .view 1 ⟨.handle 3, .handle 2, 0, 0, 0x1000, .all⟩,
    .vmFault 0 0x20000123]

theorem demo_bootedAwaiting : BootedAwaiting demo where
  shared := demo_bootedShared
  quiet := rfl
  own p p' w hw _ := by
    have hnone : demo.initialOf p = [] := by
      simp only [State.initialOf]
      cases hu : demo.procCells p with
      | zombieProcess pid => rfl
      | activeProcess u =>
        rcases demo_processes hu with ⟨-, rfl⟩ | ⟨-, rfl⟩ <;> rfl
    rw [hnone] at hw
    cases hw
  cells pid pid' p hp hp' := by
    simp only [demo] at hp hp'
    split at hp
    · split at hp'
      · cases hp
        cases hp'
        rfl
      · cases hp'
    · cases hp
  starts _ := rfl
  spaces p u hu := by
    rcases demo_processes hu with ⟨-, rfl⟩ | ⟨-, rfl⟩
    · exact ⟨by decide +kernel, 2, rfl⟩
    · exact ⟨by decide +kernel, 3, rfl⟩

theorem forwarded_answered_demo : ∃ s f,
    Run BootedAwaiting next (fun s op => op.Forwards s) demoForwarded s ∧
      (s.views 1).pendingFault = some f ∧ f.addr = 0x20000123 ∧
      AnsweredOnce (fun s op => op.Forwards s) s 1 f [.pageMap 1 ⟨1, 0, 0x30000000⟩] := by
  obtain ⟨s, run, hpending, hans, hnext⟩ := demo_reaches demo_bootedAwaiting
    (fun s op => op.Forwards s) demoForwarded
    (fun s => (s.views 1).pendingFault.map PendingFault.addr = some 0x20000123 ∧
      (Op.pageMap 1 ⟨1, 0, 0x30000000⟩).Answers s ∧
      (next s (.pageMap 1 ⟨1, 0, 0x30000000⟩)).any
        (fun s' => (s'.views 1).pendingFault.isNone) = true)
    (by decide +kernel) (by decide +kernel)
  obtain ⟨f, hf, haddr⟩ := Option.map_eq_some_iff.mp hpending
  obtain ⟨s', hn, hnone⟩ := (Option.any_eq_true _ _).mp hnext
  have start : Run (fun s₀ => s₀ = s) next (fun s op => op.Forwards s) [] s := .init rfl
  have hok : (Op.pageMap 1 ⟨1, 0, 0x30000000⟩).Forwards s := ⟨trivial, hans⟩
  have run' := start.step hok hn
  refine ⟨s, f, run, hf, haddr, ?_⟩
  rcases ((forwarded_answered run).2 1 f hf).2 _ s' run' with hp | honce
  · have hnone' : (s'.views 1).pendingFault = none := by simpa using hnone
    cases hnone'.symm.trans hp.pending
  · exact honce

/-- A server may answer with a page that did not fault: it is mapped where the fault was. -/
theorem forwarded_astray : ¬ ∀ ops s, Run BootedAwaiting next (fun _ op => op.Builds) ops s →
    ∀ op s', op.Builds → next s op = some s' →
      ∃ evs, s'.res.kernel.log = s.res.kernel.log ++ evs ∧ FaultsTurn s s' op evs := by
  intro hall
  obtain ⟨s, run, hpending, hnext⟩ := demo_reaches demo_bootedAwaiting
    (fun _ op => op.Builds) demoForwarded
    (fun s => (s.views 1).pendingFault.map PendingFault.addr = some 0x20000123 ∧
      (next s (.pageMap 1 ⟨1, 0x1000, 0x30000000⟩)).any
        (fun s' => (s'.views 1).pendingFault.isNone &&
          ((s'.views 1).lookupCap
            (0x20000123 - (s'.windows (s'.views 1).boundWindow).start)).isNone) = true)
    (by decide +kernel) (by decide +kernel)
  obtain ⟨f, hf, haddr⟩ := Option.map_eq_some_iff.mp hpending
  obtain ⟨s', hn, hafter⟩ := (Option.any_eq_true _ _).mp hnext
  rw [Bool.and_eq_true, Option.isNone_iff_eq_none, Option.isNone_iff_eq_none] at hafter
  obtain ⟨evs, -, hturn⟩ := hall demoForwarded s run (.pageMap 1 ⟨1, 0x1000, 0x30000000⟩) s'
    trivial hn
  rcases hturn.pending 1 f hf with ⟨hkeep, -⟩ | hans
  · cases hafter.1.symm.trans hkeep
  · obtain ⟨_, slot, _, _, _, -, -, -, hlook, -⟩ := hans.events
    rw [haddr] at hlook
    cases hafter.2.symm.trans hlook

end Smos.RootServer
