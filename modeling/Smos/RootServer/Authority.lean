/-
Smos.RootServer.Authority — the capabilities the root server gives away.

A `System` is the root server with the list of all capabilities it has
given to processes: the endpoint that a new process finds in its cspace,
and what came with a reply. Every entry says why it was given, and what can
be given for a reason is known (`Given.Explained`).

Handle capabilities are recognised by their badge alone, and process and
connection badges are numbers of the same kind. So the badge identifies a
handle capability only where it was minted for one. And while handle
capabilities have no rights, a process's endpoint and a connection have
all, the right to receive among them.
-/
import Smos.Base.Run
import Smos.Ipc.HandleCaps
import Smos.RootServer.Boot
import Smos.RootServer.Bystander
import Smos.RootServer.Carried
import Smos.RootServer.StartSpecs

namespace Smos.RootServer

open Smos.Base
open Smos.Ipc (Word ServerConnection Accepts accepts_iff)

/-! ## The handle capability table -/

/-- The loop of `create_handle_cap_table`. -/
def createHandleCaps (ep : Slot) : List Nat → RProg Sel4Error (List Slot)
  | [] => pure []
  | i :: is => do
    let tmp ← allocSlot
    (mintCap tmp ep .none i).expect .mintCap
    let slots ← createHandleCaps ep is
    pure (tmp :: slots)

/-- `create_handle_cap_table`. -/
def createHandleCapTable (ep : Slot) : RProg Sel4Error (List Slot) :=
  createHandleCaps ep (List.range maxHandleCaps)

theorem createHandleCaps_keeps {c : Slot} {Q : Cap → Prop} (ep : Slot) : ∀ is : List Nat,
    KernelProg (Holds c Q) (createHandleCaps ep is)
  | [] => .pure _
  | _ :: is => .bind allocSlot_keeps fun _ => .bind (mintCap_keeps _ _ _ _).expect fun _ =>
      .bind (createHandleCaps_keeps ep is) fun _ => .pure _

/-- Entry `i` of the table has the endpoint with the badge `i` and no rights. -/
theorem createHandleCaps_gives {e : Nat} (ep : Slot) : ∀ is : List Nat,
    (createHandleCaps ep is).Gives (fun r => Holds ep (· = .object e .endpoint) r.kernel)
      fun slots r => List.Forall₂ (fun i slot =>
        Holds slot (· = .badged e .endpoint i .none) r.kernel) is slots
  | [] => .pure fun _ _ => .nil
  | i :: is => by
    have hmint : ∀ tmp, (mintCap tmp ep .none i).Gives
        (fun r => Holds ep (· = .object e .endpoint) r.kernel) fun _ r =>
          Holds ep (· = .object e .endpoint) r.kernel ∧
            Holds tmp (· = .badged e .endpoint i .none) r.kernel := by
      intro tmp r u r' hep hr
      refine ⟨(mintCap_keeps tmp ep .none i).ok hep hr |>.2, ?_⟩
      have hsource := kcall_gives (P := Holds ep (· = .object e .endpoint))
        (Q := Holds tmp (· = .badged e .endpoint i .none))
        (f := fun k => k.mint tmp ep .none i) ?_
      · exact hsource r u r' hep hr
      · intro k k' ⟨cap, hcap, hobj⟩ hk
        obtain ⟨obj, kind, hsrc, -, rfl⟩ := Kernel.mint_ok hk
        rw [hsrc] at hcap
        cases hcap
        cases hobj
        exact ⟨_, Kernel.setCap_caps_self _, rfl⟩
    have hslot : KernelProg (Holds ep (· = .object e .endpoint)) allocSlot := allocSlot_keeps
    refine .next hslot fun tmp _ => ?_
    refine .bind (hmint tmp).expect fun _ r slots r' ⟨hep, htmp⟩ hr => ?_
    obtain ⟨rest, r₁, hrest, heq⟩ := Prog.bind_ok hr
    cases heq
    exact .cons ((createHandleCaps_keeps ep is).ok htmp hrest).2
      (createHandleCaps_gives ep is r rest _ hep hrest)

/-! ## What processes are given -/

/-- Why a process was given a capability. -/
inductive Cause where
  /-- It was there when the process was started. -/
  | start
  | reply (inv : Invocation) (r : SMOSReply)

structure Given where
  pid : Pid
  cause : Cause
  cap : Cap
  /-- The objects below this number existed before. -/
  since : Nat
  /-- What the root server's slots had before. -/
  slots : Slot → Option Cap

structure System where
  state : State
  given : List Given

inductive SystemOp where
  | boot (elf : Option Elf) (loaderArgs execArgs : Option (List String)) (answers : StartAnswers)
  | invoke (pid : Pid) (inv : Invocation)
  | vmFault (pid : Pid) (addr : Nat)

/-- The capabilities minted into the cspaces of new processes. -/
def granted (k k' : Kernel) : List Given :=
  (k'.log.drop k.log.length).filterMap fun
    | .grant pid cap => some ⟨pid, .start, cap, k.nextObj, k.caps⟩
    | _ => none

def Invocation.starts : Invocation → Bool
  | .processSpawn _ _ => true
  | _ => false

/-- What a process that was started and the caller get from a turn. -/
def givenBy (setup : Setup) (pid : Pid) (inv : Invocation) (k k' : Kernel) :
    Option SMOSReply → List Given
  | none => []
  | some r => (if inv.starts then granted k k' else []) ++
      (replyCap setup k' r).toList.map fun cap => ⟨pid, .reply inv r, cap, k.nextObj, k.caps⟩

/-- One turn; a thread that waits takes none, and there is nothing after a panic. -/
def System.step (setup : Setup) (sys : System) : SystemOp → Option System
  | .boot elf loaderArgs execArgs answers =>
    match startProcess setup.ep elf loaderArgs execArgs answers sys.state with
    | .ok _ s => some ⟨s, sys.given ++ granted sys.state.res.kernel s.res.kernel⟩
    | _ => none
  | .invoke pid inv =>
    if sys.state.res.kernel.blocked pid then none
    else
      match syscallTurn setup pid inv sys.state with
      | .ok r s =>
        some ⟨s, sys.given ++ givenBy setup pid inv sys.state.res.kernel s.res.kernel r⟩
      | .err _ s => some { sys with state := s }
      | .panic _ => none
  | .vmFault pid addr =>
    if sys.state.res.kernel.blocked pid then none
    else
      match (faultTurn pid addr : Handler Unit) sys.state with
      | .ok _ s => some { sys with state := s }
      | .err _ s => some { sys with state := s }
      | .panic _ => none

/-- The root server with its endpoint `e`, the handle capability table made and no process. -/
structure Initial (setup : Setup) (e : Nat) (sys : System) : Prop where
  table : ∃ r slots, r.kernel.caps setup.ep = some (.object e .endpoint) ∧
    createHandleCapTable setup.ep r = .ok slots sys.state.res ∧
    ∀ idx, setup.rootCap idx = slots[idx]?.bind sys.state.res.kernel.caps
  noProcess : ∀ pid, sys.state.procs pid = none
  nothingGiven : sys.given = []

theorem Initial.rootCap {setup : Setup} {e : Nat} {sys : System} (h : Initial setup e sys)
    {idx : Nat} {cap : Cap} (hcap : setup.rootCap idx = some cap) :
    cap = .badged e .endpoint idx .none := by
  obtain ⟨r, slots, hep, htable, hroot⟩ := h.table
  rw [hroot idx] at hcap
  obtain ⟨slot, hslot, hslotCap⟩ := Option.bind_eq_some_iff.mp hcap
  have hall := createHandleCaps_gives setup.ep (List.range maxHandleCaps) r slots _
    ⟨_, hep, rfl⟩ htable
  obtain ⟨hlen, hget⟩ := List.forall₂_iff_get.mp hall
  obtain ⟨hlt, hidx⟩ := List.getElem?_eq_some_iff.mp hslot
  obtain ⟨cap', hcap', hbadge⟩ := hget idx (by rw [hlen]; exact hlt) hlt
  rw [List.get_eq_getElem, hidx, hslotCap] at hcap'
  cases hcap'
  simpa using hbadge

/-! ## Why each was given -/

section Explained

variable {setup : Setup} {e : Nat} {sys sys' : System} {s s' : State} {pid : Pid} {g : Given}

/-- The reason that is recorded accounts for the capability. -/
def Given.Explained (setup : Setup) (g : Given) : Prop :=
  match g.cause with
  | .start => ∃ obj kind badge, g.cap = .badged obj kind badge .all
  | .reply inv r => Answers inv r ∧ Carries setup g.since inv g.cap ∧
      (∀ idx, r.handleCapIndex = some idx → setup.rootCap idx = some g.cap) ∧
      ∀ idx, inv = .channelOpen idx → ∀ slot, r.capSlot = some slot → g.slots slot = some g.cap

/-- Starting a process gives it its endpoint, with all rights. -/
theorem granted_explained {k k' : Kernel} {pos : Pid} (h : Calm (Endowed pos) k k')
    (hg : g ∈ granted k k') : g.Explained setup := by
  obtain ⟨-, evs, hlog, hevs⟩ := h
  obtain ⟨ev, hev, heq⟩ := List.mem_filterMap.mp hg
  rw [hlog, List.drop_left] at hev
  rcases hevs ev hev with ⟨_, _, _, _, rfl⟩ | ⟨obj, kind, rfl⟩
  · cases heq
  · cases heq
    exact ⟨obj, kind, _, rfl⟩

theorem procCell_ok {p : Nat} (h : (procCell pid : Handler Nat) s = .ok p s') : s' = s := by
  have hwp : (procCell pid : Handler Nat).wp (fun _ t => t = s) (fun _ _ => True)
      (fun _ => True) s := by
    simp only [procCell, Prog.wp_bind, Prog.wp_assert, Prog.wp_gets, Prog.wp_unwrap, getProc,
      Prog.wp_pure]
    refine ⟨fun _ => ⟨fun p _ => ?_, fun _ => trivial⟩, fun _ => trivial⟩
    cases s.procCells p with
    | activeProcess u => exact rfl
    | zombieProcess pid => exact trivial
  have hs := Prog.wp_ok hwp h
  exact hs

theorem handleReply_ok {r : SMOSReply} {u : Unit} (h : (handleReply r : Handler Unit) s = .ok u s') :
    s' = s := by
  cases r <;> cases h <;> rfl

/-- A turn with a reply is a run of the handler. -/
theorem syscallTurn_reply {inv : Invocation} {r : SMOSReply}
    (h : syscallTurn setup pid inv s = .ok (some r) s') :
    ∃ p, handleSyscall setup p inv s = .ok (some r) s' := by
  obtain ⟨p, s₁, hp, h⟩ := Prog.bind_ok h
  cases procCell_ok hp
  obtain ⟨reply, s₂, hreply, h⟩ := Prog.bind_ok h
  cases hreply
  obtain ⟨o, s₃, ho, h⟩ := Prog.bind_ok h
  cases o with
  | none =>
    obtain ⟨_, s₄, -, h⟩ := Prog.bind_ok h
    obtain ⟨_, s₅, -, h⟩ := Prog.bind_ok h
    cases h
  | some r' =>
    obtain ⟨_, s₄, hr, h⟩ := Prog.bind_ok h
    cases handleReply_ok hr
    cases h
    exact ⟨p, ho⟩

theorem handleProcessSpawn_calm {ep : Slot} {loader : Option Elf} {p : Nat}
    {args : ProcessSpawnArgs} {answers : StartAnswers} {r : SMOSReply}
    (h : handleProcessSpawn ep loader p args answers s = .ok r s') :
    ∃ pos, Calm (Endowed pos) s.res.kernel s'.res.kernel := by
  obtain ⟨idx, s₁, hidx, h⟩ := Prog.bind_ok h
  have hkernel : s₁.res.kernel = s.res.kernel :=
    (allocateHandle_keeps (I := (· = s.res.kernel)).ok rfl hidx).2
  obtain ⟨proc, s₂, hproc, h⟩ := Prog.bind_ok h
  obtain ⟨_, s₃, hset, h⟩ := Prog.bind_ok h
  cases hset
  cases h
  unfold Prog.catchErr at hproc
  split at hproc
  · next hok =>
    cases hproc
    obtain ⟨pos, u, hstarted⟩ := Prog.wp_ok (startProcess_spec _ _ _ _ _ _) hok
    exact ⟨pos, hkernel ▸ hstarted.calm⟩
  · cases hproc
  · cases hproc

/-- Opening a channel answers with the slot of the channel as it is. -/
theorem handleChannelOpen_ok {idx : Nat} {r : SMOSReply} (h : handleChannelOpen idx s = .ok r s') :
    s' = s :=
  (handleChannelOpen_keeping (I := (· = s)) idx).ok rfl h |>.2

theorem givenBy_explained {inv : Invocation} {r : Option SMOSReply}
    (h : syscallTurn setup pid inv s = .ok r s')
    (hg : g ∈ givenBy setup pid inv s.res.kernel s'.res.kernel r) : g.Explained setup := by
  cases r with
  | none => cases hg
  | some r =>
    obtain ⟨p, hrun⟩ := syscallTurn_reply h
    rcases List.mem_append.mp hg with hg | hg
    · cases inv
      case processSpawn args answers =>
        obtain ⟨r', s₁, hspawn, heq⟩ := Prog.bind_ok (f := fun r => Pure.pure (some r)) hrun
        cases heq
        obtain ⟨pos, hcalm⟩ := handleProcessSpawn_calm hspawn
        exact granted_explained hcalm hg
      all_goals cases hg
    · obtain ⟨cap, hcap, rfl⟩ := List.mem_map.mp hg
      have hcap : replyCap setup s'.res.kernel r = some cap := by simpa using hcap
      refine ⟨handleSyscall_answers inv s _ s' hrun r rfl, handleSyscall_carries hrun hcap, ?_, ?_⟩
      · intro idx hidx
        simpa [replyCap, hidx] using hcap
      · rintro idx rfl slot hslot
        obtain ⟨r', s₁, hopen, heq⟩ := Prog.bind_ok (f := fun r => Pure.pure (some r)) hrun
        cases heq
        cases handleChannelOpen_ok hopen
        have hindex : r.handleCapIndex = none := by
          cases r <;> first | rfl | cases hslot
        simpa [replyCap, hindex, hslot] using hcap

theorem step_explained {op : SystemOp} (h : sys.step setup op = some sys') (hg : g ∈ sys'.given) :
    g ∈ sys.given ∨ g.Explained setup := by
  cases op with
  | boot elf loaderArgs execArgs answers =>
    simp only [System.step] at h
    split at h
    · next hok =>
      cases h
      refine (List.mem_append.mp hg).imp id fun hg => ?_
      obtain ⟨pos, u, hstarted⟩ := Prog.wp_ok (startProcess_spec _ _ _ _ _ _) hok
      exact granted_explained hstarted.calm hg
    · cases h
  | invoke pid inv =>
    simp only [System.step] at h
    split at h
    · cases h
    · split at h
      · next hok =>
        cases h
        exact (List.mem_append.mp hg).imp id fun hg => givenBy_explained hok hg
      · cases h
        exact .inl hg
      · cases h
  | vmFault pid addr =>
    simp only [System.step] at h
    split at h
    · cases h
    · split at h <;> cases h <;> exact .inl hg

/-- The runs of the root server from its initial state. -/
abbrev SystemRun (setup : Setup) (e : Nat) : List SystemOp → System → Prop :=
  Run (Initial setup e) (fun sys op => sys.step setup op) fun _ _ => True

/-- In every run, every capability that was given away is accounted for. -/
theorem run_explained {ops : List SystemOp} (run : SystemRun setup e ops sys) :
    (∀ idx cap, setup.rootCap idx = some cap → cap = .badged e .endpoint idx .none) ∧
      ∀ g ∈ sys.given, g.Explained setup := by
  refine run.invariant (I := fun sys =>
    (∀ idx cap, setup.rootCap idx = some cap → cap = .badged e .endpoint idx .none) ∧
      ∀ g ∈ sys.given, g.Explained setup) (fun sys h => ?_) fun sys op sys' h _ hstep => ?_
  · refine ⟨fun idx cap => h.rootCap, fun g hg => ?_⟩
    rw [h.nothingGiven] at hg
    cases hg
  · exact ⟨h.1, fun g hg => (step_explained hstep hg).elim (h.2 g) id⟩

/-! ## A root server that starts one process -/

/-- No process runs. -/
def bareState (r : Res) : State :=
  { demo with res := r, procCells := ⟨0, fun p => .zombieProcess p⟩, procs := fun _ => none }

/-- An image without segments, and a kernel that refuses nothing. -/
def bareBoot : SystemOp := .boot (some ⟨0, some []⟩) none none ⟨.ok (), .ok (), .ok (), .ok (), .ok ()⟩

/-- What the process that `bareBoot` starts is given. -/
def bareGiven : Option (List Cap) :=
  match createHandleCapTable 2 bareRes with
  | .ok _ r =>
    match startProcess 2 (some ⟨0, some []⟩) none none ⟨.ok (), .ok (), .ok (), .ok (), .ok ()⟩
      (bareState r) with
    | .ok _ s => some ((granted r.kernel s.res.kernel).map fun g : Given => g.cap)
    | _ => none
  | _ => none

theorem bare_run : ∃ setup sys, SystemRun setup 9 [bareBoot] sys ∧
    ∃ g ∈ sys.given, g.cause = .start ∧ g.cap = .badged 9 .endpoint 0 .all := by
  have hgiven : bareGiven = some [.badged 9 .endpoint 0 .all] := by decide +kernel
  unfold bareGiven at hgiven
  split at hgiven
  · next slots r htable =>
    split at hgiven
    · next p s hstart =>
      let setup : Setup := ⟨2, none, fun idx => slots[idx]?.bind r.kernel.caps⟩
      have hinit : Initial setup 9 ⟨bareState r, []⟩ :=
        ⟨⟨bareRes, slots, rfl, htable, fun _ => rfl⟩, fun _ => rfl, rfl⟩
      have hrun : SystemRun setup 9 [] ⟨bareState r, []⟩ := .init hinit
      have hstep : System.step setup ⟨bareState r, []⟩ bareBoot =
          some ⟨s, [] ++ granted r.kernel s.res.kernel⟩ := by
        simp only [System.step, bareBoot, setup, hstart]
        rfl
      refine ⟨setup, _, hrun.step trivial hstep, ?_⟩
      have hmem : Cap.badged 9 .endpoint 0 .all ∈
          (granted r.kernel s.res.kernel).map fun g : Given => g.cap := by
        rw [Option.some.inj hgiven]
        exact List.mem_singleton_self _
      obtain ⟨g, hg, hcap⟩ := List.mem_map.mp hmem
      refine ⟨g, by simpa using hg, ?_, hcap⟩
      obtain ⟨ev, -, hev⟩ := List.mem_filterMap.mp hg
      cases ev <;> cases hev
      rfl
    · cases hgiven
  · cases hgiven

/-! ## Handle capabilities -/

/-- The entry a capability was minted for, as a handle capability. -/
def Cause.mintedFor : Cause → Option Word
  | .start => none
  | .reply (.serverHandleCapCreate args) _ => some (UInt64.ofNat args.ident)
  | .reply _ r => r.handleCapIndex.map UInt64.ofNat

/-- The invocation asked for a handle capability. -/
def Cause.ForHandleCap : Cause → Prop
  | .reply (.windowCreate args) _ => args.returnCap = true
  | .reply (.objCreate args _) _ => args.returnCap = true
  | .reply (.serverCreateChannel _) _ => True
  | .reply (.serverHandleCapCreate _) _ => True
  | _ => False

/-- What was minted for an entry was asked for as a handle capability. -/
theorem forHandleCap_of_mintedFor {inv : Invocation} {r : SMOSReply} {i : Word}
    (hans : Answers inv r) (h : (Cause.reply inv r).mintedFor = some i) :
    (Cause.reply inv r).ForHandleCap := by
  cases inv
  case windowCreate args =>
    obtain ⟨idx, rfl⟩ := hans
    cases hret : args.returnCap with
    | true => exact hret
    | false => simp [Cause.mintedFor, SMOSReply.handleCapIndex, newHandle, hret] at h
  case objCreate args dmaAnswer =>
    obtain ⟨idx, rfl⟩ := hans
    cases hret : args.returnCap with
    | true => exact hret
    | false => simp [Cause.mintedFor, SMOSReply.handleCapIndex, newHandle, hret] at h
  case serverCreateChannel | serverHandleCapCreate => trivial
  case connCreate | connPublish | replyCreate =>
    obtain ⟨hndl, slot, rfl⟩ := hans
    cases h
  case irqRegister =>
    obtain ⟨hndl, slot, bit, rfl⟩ := hans
    cases h
  case channelOpen =>
    obtain ⟨slot, rfl⟩ := hans
    cases h
  all_goals
    have hnone := hans.1
    simp [Cause.mintedFor, hnone] at h

/-- The badge of a handle capability is the number of its entry. -/
theorem Given.Explained.mintedFor {obj badge : Nat} {rights : CapRights}
    (hroot : ∀ idx cap, setup.rootCap idx = some cap → cap = .badged e .endpoint idx .none)
    (h : g.Explained setup) (hcap : g.cap = .badged obj .endpoint badge rights)
    (hfor : g.cause.ForHandleCap) : g.cause.mintedFor = some (UInt64.ofNat badge) := by
  obtain ⟨pid, cause, cap, since, slots⟩ := g
  cases cause with
  | start => exact hfor.elim
  | reply inv r =>
    obtain ⟨hans, hcarries, hindex, -⟩ := h
    have htable : ∀ idx, r.handleCapIndex = some idx → badge = idx := by
      intro idx hidx
      have heq := (hroot idx cap (hindex idx hidx)).symm.trans hcap
      cases heq
      rfl
    cases inv
    case windowCreate args =>
      obtain ⟨idx, rfl⟩ := hans
      have hret : args.returnCap = true := hfor
      have hidx : (SMOSReply.windowCreate (newHandle args.returnCap idx)).handleCapIndex = some idx := by
        simp [SMOSReply.handleCapIndex, newHandle, hret]
      simp [Cause.mintedFor, hidx, htable idx hidx]
    case objCreate args dmaAnswer =>
      obtain ⟨idx, rfl⟩ := hans
      have hret : args.returnCap = true := hfor
      have hidx : (SMOSReply.objCreate (newHandle args.returnCap idx)).handleCapIndex = some idx := by
        simp [SMOSReply.handleCapIndex, newHandle, hret]
      simp [Cause.mintedFor, hidx, htable idx hidx]
    case serverCreateChannel publishHndl =>
      obtain ⟨bit, idx, rfl⟩ := hans
      rw [htable idx rfl]
      rfl
    case serverHandleCapCreate args =>
      obtain ⟨obj', kind, hobj⟩ := hcarries
      cases hobj.symm.trans hcap
      rfl
    all_goals exact hfor.elim

/-- **Handle capabilities.** Of the endpoint capabilities that processes were given in a run, a
decoder takes the badge for a handle capability that was not minted for that entry, exactly when
the capability was not asked for as a handle capability. -/
theorem badge_identifies_iff {ops : List SystemOp} (run : SystemRun setup e ops sys)
    (hg : g ∈ sys.given) {obj badge : Nat} {rights : CapRights}
    (hcap : g.cap = .badged obj .endpoint badge rights) :
    (∀ server i, (server = ServerConnection.rootServer ↔ obj = e) →
      Accepts server (UInt64.ofNat badge) i → g.cause.mintedFor = some i) ↔
    g.cause.ForHandleCap := by
  obtain ⟨hroot, hexp⟩ := run_explained run
  have hexp := hexp g hg
  constructor
  · intro h
    have hminted : g.cause.mintedFor = some (UInt64.ofNat badge) := by
      by_cases hobj : obj = e
      · exact h .rootServer _ (iff_of_true rfl hobj) (accepts_iff.mpr rfl)
      · exact h .objectServer _ (iff_of_false (by decide) hobj) (accepts_iff.mpr rfl)
    cases hcause : g.cause with
    | start =>
      rw [hcause] at hminted
      cases hminted
    | reply inv r =>
      rw [hcause] at hminted
      simp only [Given.Explained, hcause] at hexp
      exact forHandleCap_of_mintedFor hexp.1 hminted
  · intro hfor server i _ haccepts
    rw [accepts_iff.mp haccepts]
    exact hexp.mintedFor hroot hcap hfor

/-- The endpoint of the first process is accepted as the first handle capability. -/
theorem process_endpoint_accepted : ∃ setup sys, SystemRun setup 9 [bareBoot] sys ∧
    ∃ g ∈ sys.given, g.cap = .badged 9 .endpoint 0 .all ∧ Accepts .rootServer (UInt64.ofNat 0) 0 ∧
      g.cause.mintedFor ≠ some 0 := by
  obtain ⟨setup, sys, run, g, hg, hcause, hcap⟩ := bare_run
  refine ⟨setup, sys, run, g, hg, hcap, accepts_iff.mpr rfl, ?_⟩
  rw [hcause]
  exact nofun

theorem process_endpoint_not_identified : ∃ setup sys, SystemRun setup 9 [bareBoot] sys ∧
    ∃ g ∈ sys.given, ¬ ∀ server i, (server = ServerConnection.rootServer ↔ 9 = 9) →
      Accepts server (UInt64.ofNat 0) i → g.cause.mintedFor = some i := by
  obtain ⟨setup, sys, run, g, hg, hcause, hcap⟩ := bare_run
  refine ⟨setup, sys, run, g, hg, fun h => ?_⟩
  have hfor := (badge_identifies_iff run hg hcap).mp h
  rw [hcause] at hfor
  exact hfor

/-! ## Receiving -/

/-- The capability lets its holder receive what is sent to its endpoint. -/
def Cap.canReceive : Cap → Bool
  | .object _ .endpoint => true
  | .badged _ .endpoint _ rights => rights.read
  | _ => false

/-- The process published the endpoint: its own invocation made it. -/
def Given.Owns (g : Given) (e : Nat) : Prop :=
  (∃ args r, g.cause = .reply (.connPublish args) r) ∧ g.since ≤ e

/-- **Receive authority.** In every run, only the process that published an endpoint was given a
capability to receive from it, exactly when no process was started with this endpoint, nobody
connected to it, and no channel was opened from a slot that receives from it. -/
theorem only_owner_receives_iff {ops : List SystemOp} (run : SystemRun setup e ops sys) (ep : Nat) :
    (∀ g ∈ sys.given, g.cap.endpoint = some ep → g.cap.canReceive = true → g.Owns ep) ↔
    ∀ g ∈ sys.given, g.cap.endpoint = some ep → g.cause ≠ .start ∧
      (∀ name r, g.cause ≠ .reply (.connCreate name) r) ∧
      ∀ idx slot, g.cause = .reply (.channelOpen idx) (.channelOpen slot) →
        (g.slots slot).any Cap.canReceive = false := by
  obtain ⟨hroot, hexp⟩ := run_explained run
  have hall : ∀ {cap : Cap} {obj kind badge}, cap = .badged obj kind badge .all →
      cap.endpoint = some ep → cap.canReceive = true := by
    intro cap obj kind badge hcap hend
    subst hcap
    cases kind <;> first | rfl | cases hend
  constructor
  · intro h g hg hend
    have howner := h g hg hend
    have hexp := hexp g hg
    refine ⟨fun hcause => ?_, fun name r hcause => ?_, fun idx slot hcause => ?_⟩
    · simp only [Given.Explained, hcause] at hexp
      obtain ⟨obj, kind, badge, hcap⟩ := hexp
      obtain ⟨⟨_, _, hpublish⟩, -⟩ := howner (hall hcap hend)
      rw [hcause] at hpublish
      cases hpublish
    · simp only [Given.Explained, hcause] at hexp
      obtain ⟨-, ⟨obj, kind, badge, hcap⟩, -⟩ := hexp
      obtain ⟨⟨_, _, hpublish⟩, -⟩ := howner (hall hcap hend)
      rw [hcause] at hpublish
      cases hpublish
    · simp only [Given.Explained, hcause] at hexp
      rw [hexp.2.2.2 idx rfl slot rfl, Option.any_some]
      cases hrecv : g.cap.canReceive with
      | false => rfl
      | true =>
        obtain ⟨⟨_, _, hpublish⟩, -⟩ := howner hrecv
        rw [hcause] at hpublish
        cases hpublish
  · intro h g hg hend hrecv
    obtain ⟨hstart, hconn, hchan⟩ := h g hg hend
    have hexp := hexp g hg
    obtain ⟨pid, cause, cap, since, slots⟩ := g
    cases cause with
    | start => exact absurd rfl hstart
    | reply inv r =>
      obtain ⟨hans, hcarries, -, hopened⟩ := hexp
      -- a capability without rights receives nothing
      have hnone : ∀ {obj kind badge}, cap = .badged obj kind badge .none → False := by
        intro obj kind badge hcap
        subst hcap
        cases kind <;> cases hrecv
      cases inv
      case connPublish args => exact ⟨⟨args, r, rfl⟩, hcarries ep hend⟩
      case connCreate name => exact absurd rfl (hconn name r)
      case channelOpen idx =>
        obtain ⟨slot, rfl⟩ := hans
        have hno := hchan idx slot rfl
        rw [hopened idx rfl slot rfl, Option.any_some] at hno
        rw [hno] at hrecv
        cases hrecv
      case windowCreate | objCreate | serverCreateChannel =>
        obtain ⟨idx, hidx⟩ := hcarries
        exact (hnone (hroot idx cap hidx)).elim
      case serverHandleCapCreate args =>
        obtain ⟨obj, kind, hcap⟩ := hcarries
        exact (hnone hcap).elim
      case replyCreate | irqRegister =>
        rw [hcarries] at hend
        cases hend
      all_goals exact hcarries.elim

/-- The first process may receive from the root server's endpoint. -/
theorem process_receives : ∃ setup sys, SystemRun setup 9 [bareBoot] sys ∧
    ∃ g ∈ sys.given, g.cap.endpoint = some 9 ∧ g.cap.canReceive = true ∧ ¬ g.Owns 9 := by
  obtain ⟨setup, sys, run, g, hg, hcause, hcap⟩ := bare_run
  refine ⟨setup, sys, run, g, hg, by rw [hcap]; rfl, by rw [hcap]; rfl, ?_⟩
  intro ⟨⟨_, _, hpublish⟩, _⟩
  rw [hcause] at hpublish
  cases hpublish

theorem process_start_breaks_authority : ∃ setup sys, SystemRun setup 9 [bareBoot] sys ∧
    ¬ ∀ g ∈ sys.given, g.cap.endpoint = some 9 → g.cap.canReceive = true → g.Owns 9 := by
  obtain ⟨setup, sys, run, g, hg, hcause, hcap⟩ := bare_run
  refine ⟨setup, sys, run, fun h => ?_⟩
  have hstart := ((only_owner_receives_iff run 9).mp h g hg (by rw [hcap]; rfl)).1
  exact hstart hcause

end Explained

end Smos.RootServer
