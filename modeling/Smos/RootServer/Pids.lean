/-
Smos.RootServer.Pids — where a process gets its pid, and that it keeps it for good.

A pid is free, of a running process, or of one that has exited (`Stage`).
`start_process` takes the least free pid. Three places in the source would
change what the table has for a pid after that, and none of them is ever got
through: `handle_process_exit` ends in the panic of `UserCSpace::destroy`
before it touches the table, and what frees a pid again goes with a reply to
`ProcessWait`, which `handle_reply` does not know.

So a pid, and with it the badge of a process, never names a second process,
and the table runs full: every cell that is made is paid for with one of the
pids that were free (`State.freePids`).

All handlers but those of processes leave the table as it was (`SameProcs`).
-/
import Mathlib.Data.Finset.Card
import Smos.RootServer.Lifecycle

namespace Smos.RootServer

open Smos.Base

/-! ## Stages -/

/-- Whether a cell is of an active process, and whose it is. -/
def ProcessType.standing : ProcessType → Bool × Pid
  | .activeProcess u => (true, u.pid)
  | .zombieProcess pid => (false, pid)

theorem ProcessType.standing_active {x : ProcessType} :
    x.standing.1 = true ↔ ∃ u, x = .activeProcess u := by
  cases x <;> simp [standing]

inductive Stage where
  | free
  | running (cell : Nat)
  | exited
  deriving DecidableEq

namespace Stage

/-- The second stage may follow on the first: one that is not free is the last. -/
def Leads (x y : Stage) : Prop :=
  y = x ∨ x = .free ∧ ∃ p, y = .running p

theorem leads_refl (x : Stage) : x.Leads x := .inl rfl

theorem Leads.eq {x y : Stage} (h : x.Leads y) (hx : x ≠ .free) : y = x :=
  h.resolve_right fun hfree => hx hfree.1

theorem Leads.trans {x y z : Stage} (h : x.Leads y) (h' : y.Leads z) : x.Leads z := by
  rcases h with rfl | ⟨rfl, p, rfl⟩
  · exact h'
  · rw [h'.eq nofun]
    exact .inr ⟨rfl, p, rfl⟩

end Stage

namespace State

variable (s : State)

/-- The stage of what the table has for a pid. -/
def stage (pid : Pid) : Stage :=
  match s.procs pid with
  | none => .free
  | some p => if (s.procCells p).standing.1 then .running p else .exited

theorem stage_eq_free {s : State} {pid : Pid} :
    (s.procs pid).isNone = true ↔ s.stage pid = .free := by
  unfold stage
  cases s.procs pid with
  | none => simp
  | some p =>
    simp only [Option.isNone_some, Bool.false_eq_true, false_iff]
    split <;> simp

theorem stage_eq_running {s : State} {pid : Pid} {p : Nat} :
    s.stage pid = .running p ↔
      ∃ u, s.procs pid = some p ∧ s.procCells p = .activeProcess u := by
  unfold stage
  cases s.procs pid with
  | none => simp
  | some q =>
    by_cases hq : (s.procCells q).standing.1 = true
    · simp only [hq, if_true, Stage.running.injEq, Option.some.injEq]
      constructor
      · intro heq
        obtain ⟨u, hu⟩ := ProcessType.standing_active.mp hq
        exact ⟨u, heq, heq ▸ hu⟩
      · intro h
        exact h.choose_spec.1
    · simp only [hq, Option.some.injEq]
      constructor
      · intro heq
        cases heq
      · intro h
        obtain ⟨u, heq, hu⟩ := h
        subst heq
        exact absurd (ProcessType.standing_active.mpr ⟨u, hu⟩) hq

/-- The pids that are left. -/
def freePids : Finset Pid := (Finset.range maxProcs).filter fun pid => s.stage pid = .free

@[simp] theorem mem_freePids {s : State} {pid : Pid} :
    pid ∈ s.freePids ↔ pid < maxProcs ∧ s.stage pid = .free := by
  simp [freePids]

end State

/-- The process table is as it was, and so is whose each cell is. -/
structure SameProcs (s s' : State) : Prop where
  procs : s'.procs = s.procs
  next : s'.procCells.next = s.procCells.next
  cells : ∀ p, (s'.procCells p).standing = (s.procCells p).standing

/-- One more cell, of a running process, under the pid that it is of. -/
structure CellMade (pid : Pid) (s s' : State) : Prop where
  procs : s'.procs = Function.update s.procs pid (some s.procCells.next)
  next : s'.procCells.next = s.procCells.next + 1
  made : (s'.procCells s.procCells.next).standing = (true, pid)
  cells : ∀ p, p ≠ s.procCells.next →
    (s'.procCells p).standing = (s.procCells p).standing

/-! ## What the steps make of the stages -/

/-- The table finds every cell under the pid that it is of, when it is of an active process. -/
theorem pidsMatch_iff {s : State} : s.PidsMatch ↔ ∀ pid p, s.procs pid = some p →
    p < s.procCells.next ∧ ((s.procCells p).standing.1 = true →
      (s.procCells p).standing.2 = pid) := by
  have hcell : ∀ pid p, (∀ u, s.procCells p = .activeProcess u → u.pid = pid) ↔
      ((s.procCells p).standing.1 = true → (s.procCells p).standing.2 = pid) := by
    intro pid p
    cases hp : s.procCells p with
    | activeProcess u => simp [ProcessType.standing]
    | zombieProcess z => simp [ProcessType.standing]
  simp only [State.PidsMatch, hcell]

theorem Acting.stage {s : State} {pid : Pid} {p : Nat} {u : UserProcess} (h : Acting s pid p u) :
    s.stage pid = .running p := by
  simp [State.stage, h.cell, h.proc, ProcessType.standing]

theorem Acting.unique {s : State} {pid : Pid} {p p' : Nat} {u u' : UserProcess}
    (h : Acting s pid p u) (h' : Acting s pid p' u') : p = p' ∧ u = u' := by
  have hp : p = p' := Option.some.inj (h.cell.symm.trans h'.cell)
  subst hp
  exact ⟨rfl, ProcessType.activeProcess.inj (h.proc.symm.trans h'.proc)⟩

namespace SameProcs

variable {s₀ s s' : State}

protected theorem refl (s : State) : SameProcs s s := ⟨rfl, rfl, fun _ => rfl⟩

protected theorem trans {s₁ s₂ : State} (h : SameProcs s s₁) (h' : SameProcs s₁ s₂) :
    SameProcs s s₂ where
  procs := h'.procs.trans h.procs
  next := h'.next.trans h.next
  cells p := (h'.cells p).trans (h.cells p)

/-- A step that touches no process. -/
theorem same (h : SameProcs s₀ s) (hprocs : s'.procs = s.procs)
    (hcells : s'.procCells = s.procCells) : SameProcs s₀ s' :=
  h.trans ⟨hprocs, by rw [hcells], fun p => by rw [hcells]⟩

/-- A process changes, but not its pid. -/
theorem updProc (h : SameProcs s₀ s) (p : Nat) {f : UserProcess → UserProcess}
    (hpid : ∀ u, (f u).pid = u.pid) : SameProcs s₀ (s.updProc p f) := by
  refine h.trans ⟨rfl, rfl, fun c => ?_⟩
  refine s.procCells.update_preserves ProcessType.standing ?_ c
  cases s.procCells p with
  | activeProcess u => simp [ProcessType.map, ProcessType.standing, hpid]
  | zombieProcess z => rfl

theorem setHandleAt (h : SameProcs s₀ s) (loc : HandleLoc) (x : Option RootServerResource) :
    SameProcs s₀ (s.setHandleAt loc x) := by
  cases loc with
  | table p idx => exact h.updProc p fun _ => rfl
  | cap idx => exact h.same rfl rfl

theorem stage (h : SameProcs s s') : s'.stage = s.stage := by
  funext pid
  simp only [State.stage, h.procs, h.cells]

theorem pidsMatch (h : SameProcs s s') (hm : s.PidsMatch) : s'.PidsMatch := by
  rw [pidsMatch_iff] at hm ⊢
  simpa only [h.procs, h.next, h.cells] using hm

theorem freePids (h : SameProcs s s') : s'.freePids = s.freePids := by
  simp only [State.freePids, h.stage]

end SameProcs

namespace CellMade

variable {pid : Pid} {s s₁ s' : State}

/-- The rest of a turn. -/
theorem trans (h : CellMade pid s s₁) (h' : SameProcs s₁ s') :
    CellMade pid s s' where
  procs := h'.procs.trans h.procs
  next := h'.next.trans h.next
  made := (h'.cells _).trans h.made
  cells p hp := (h'.cells p).trans (h.cells p hp)

/-- The turn up to there. -/
theorem after (h : SameProcs s s₁) (h' : CellMade pid s₁ s') :
    CellMade pid s s' where
  procs := by rw [h'.procs, h.procs, h.next]
  next := by rw [h'.next, h.next]
  made := by
    rw [← h.next]
    exact h'.made
  cells p hp := by
    rw [h'.cells p (by rwa [h.next]), h.cells]

theorem stage (h : CellMade pid s s') (hm : s.PidsMatch) :
    s'.stage = Function.update s.stage pid (.running s.procCells.next) := by
  funext pid'
  by_cases heq : pid' = pid
  · subst heq
    simp [State.stage, h.procs, h.made]
  · rw [Function.update_of_ne heq]
    simp only [State.stage, h.procs, Function.update_of_ne heq]
    cases hp : s.procs pid' with
    | none => rfl
    | some p =>
      -- the cells in the table are older than the new one
      have hlt := (hm pid' p hp).1
      simp only [h.cells p (Nat.ne_of_lt hlt)]

theorem pidsMatch (h : CellMade pid s s') (hm : s.PidsMatch) : s'.PidsMatch := by
  rw [pidsMatch_iff] at hm ⊢
  intro pid' p hp
  rw [h.next]
  by_cases heq : pid' = pid
  · subst heq
    rw [h.procs, Function.update_self] at hp
    cases hp
    rw [h.made]
    exact ⟨Nat.lt_succ_self _, fun _ => rfl⟩
  · rw [h.procs, Function.update_of_ne heq] at hp
    obtain ⟨hlt, hpid⟩ := hm pid' p hp
    rw [h.cells p (Nat.ne_of_lt hlt)]
    exact ⟨Nat.lt_succ_of_lt hlt, hpid⟩

/-- The new cell is paid for with the pid that it is of. -/
theorem freePids (h : CellMade pid s s') (hm : s.PidsMatch) :
    s'.freePids = s.freePids.erase pid := by
  ext pid'
  rw [Finset.mem_erase, State.mem_freePids, State.mem_freePids, h.stage hm]
  by_cases heq : pid' = pid
  · subst heq
    simp
  · rw [Function.update_of_ne heq]
    tauto

end CellMade

/-! ## Handlers -/

section Handlers

variable {s₀ : State} {p : Nat}

instance aside_sameProcs : Aside (SameProcs s₀) where
  heaps _ _ _ h := h.same rfl rfl
  res _ h := h.same rfl rfl
  rest _ _ _ h := h.same rfl rfl
  server _ _ _ _ h := h.same rfl rfl
  proc p _ hpid _ h := h.updProc p hpid

instance connecting_sameProcs : Connecting p (SameProcs s₀) where
  handle idx x _ h := h.setHandleAt (.table p idx) x
  handleCap idx x _ h := h.setHandleAt (.cap idx) x
  publish _ idx _ _ _ h := by
    refine SameProcs.setHandleAt ?_ (.table p idx) _
    exact h.same rfl rfl
  connections _ h := h.same rfl rfl
  servers _ h := h.same rfl rfl
  anyHandle idx x h := h.setHandleAt (.table p idx) x

theorem handleSyscall_sameProcs (setup : Setup) {inv : Invocation} (h : inv.ofProcess = false) :
    Keeping (SameProcs s₀) (handleSyscall setup p inv) :=
  handleSyscall_keeping setup inv (fun _ => inferInstance) fun hp => absurd hp (by simp [h])

end Handlers

/-! ## Spawning and waiting -/

section Processes

variable {s : State} {p : Nat}

/-- What is left of a state by a turn: its answer cannot be sent, or the state is as `T` says. -/
def Answerable (T : State → Prop) (r : Option SMOSReply) (s' : State) : Prop :=
  r = some .processWait ∨ T s'

/-- A process more, under the least free pid, or none. -/
theorem handleProcessSpawn_made (ep : Slot) (loader : Option Elf) (args : ProcessSpawnArgs)
    (answers : StartAnswers) : (handleProcessSpawn ep loader p args answers).wp
      (fun _ s' => ∃ new, findFreeProc s = some new ∧ CellMade new s s')
      (fun _ s' => SameProcs s s') (fun _ => True) s := by
  simp only [handleProcessSpawn, Prog.wp_bind]
  refine Prog.wp_mono (allocateHandle_keeping s (.refl s)) ?_ (fun _ _ h => h) fun _ _ => trivial
  intro idx t hpost
  obtain ⟨-, ht⟩ : True ∧ SameProcs s t := hpost
  rw [Prog.wp_catchErr]
  refine Prog.wp_mono (startProcess_spec t ep loader _ _ answers) ?_ ?_ fun _ _ => trivial
  · intro proc s₁ hstarted
    obtain ⟨new, u, hs⟩ := hstarted
    have hmade : CellMade new t s₁ := {
      procs := by rw [hs.procs, hs.cell]
      next := by rw [hs.procCells]; rfl
      made := by
        rw [hs.procCells, Heap.alloc_self]
        simp [ProcessType.standing, hs.pid]
      cells := fun c hc => by rw [hs.procCells, Heap.alloc_of_ne _ hc] }
    have hfree : findFreeProc s = some new := by
      rw [← hs.free]
      simp only [findFreeProc, ht.procs]
    rw [wp_setHandle, Prog.wp_pure]
    have hset : SameProcs s₁ (s₁.setHandleAt (.table p idx) (some (.process proc))) :=
      (SameProcs.refl s₁).setHandleAt _ _
    exact ⟨new, hfree, (hmade.after ht).trans hset⟩
  · intro _ s₁ hleft
    obtain ⟨pos, hsteady⟩ := hleft
    exact ht.same hsteady.procs hsteady.procCells

/-- Whoever waits is left waiting: the answer for one that has exited cannot be sent. -/
theorem handleProcessWait_left (hndl : Nat) : (handleProcessWait p hndl).wp
    (Answerable (SameProcs s)) (fun _ s' => SameProcs s s') (fun _ => True) s := by
  simp only [handleProcessWait, Prog.wp_bind]
  have hget : Keeping (SameProcs s)
      ((getHandle p hndl).catchErr fun _ => Prog.fail (.invalidHandle 0) : Handler _) :=
    .catchErr (getHandle_keeping _) fun _ => .fail _
  refine Prog.wp_mono (hget s (.refl s)) ?_ (fun _ _ h => h) fun _ _ => trivial
  intro x t hpost
  obtain ⟨-, ht⟩ : True ∧ SameProcs s t := hpost
  rw [Prog.wp_unwrap]
  refine ⟨fun y _ => ?_, fun _ => trivial⟩
  cases y with
  | process proc =>
    simp only [Prog.wp_ite, Prog.wp_panic, Prog.wp_bind, Prog.wp_gets]
    refine ⟨fun _ => trivial, fun _ => ?_⟩
    cases t.procCells proc with
    | activeProcess u =>
      simp only [Prog.wp_bind, Prog.wp_gets, wp_modifyProc, Prog.wp_pure]
      exact .inr (ht.updProc proc fun _ => rfl)
    | zombieProcess pid =>
      simp only [Prog.wp_bind, procsSet, Prog.wp_ite, Prog.wp_modify, Prog.wp_panic, Prog.wp_pure]
      exact ⟨fun _ => .inl rfl, fun _ => trivial⟩
  | _ => exact ht

end Processes

/-! ## Turns -/

/-- What a turn makes of the process table. -/
inductive Aged (s : State) : Lifecycle.Op → State → Prop
  | kept {op s'} (h : SameProcs s s') : Aged s op s'
  | spawned {pid args answers s'} (new : Pid) (free : findFreeProc s = some new)
    (h : CellMade new s s') : Aged s (.turn pid (.processSpawn args answers)) s'

section Turns

variable {setup : Setup} {pid : Pid} {inv : Invocation} {s : State}

/-- Getting a new reply object does not fail short of a panic. -/
theorem renewReply_same {ε : Type} : (renewReply : SProg ε Unit).wp (fun _ s' => SameProcs s s')
    (fun _ _ => False) (fun _ => True) s := by
  simp only [renewReply, Prog.wp_bind, wp_onRes, Prog.wp_expect, Prog.wp_modify]
  exact Prog.wp_mono Prog.wp_trivial (fun _ _ _ => ⟨rfl, rfl, fun _ => rfl⟩)
    (fun _ _ _ => trivial) fun _ h => h

/-- What a turn leaves, and that it was a running process's. -/
def TurnTaken (s : State) (pid : Pid) (T : State → Prop) (r : Option SMOSReply) (s' : State) :
    Prop :=
  r ≠ some .processWait ∧ (∃ p u, Acting s pid p u) ∧ T s'

theorem TurnTaken.imp {T T' : State → Prop} {r : Option SMOSReply} {s' : State}
    (h : TurnTaken s pid T r s') (himp : T s' → T' s') : TurnTaken s pid T' r s' :=
  ⟨h.1, h.2.1, himp h.2.2⟩

/-- A turn is its handler's, as long as the answer can be sent. -/
theorem syscallTurn_wp {T E : State → Prop} (hT : ∀ t t', T t → SameProcs t t' → T t')
    (h : ∀ p u, Acting s pid p u → (handleSyscall setup p inv).wp (Answerable T)
      (fun _ s' => E s') (fun _ => True) s) :
    (syscallTurn setup pid inv).wp (TurnTaken s pid T)
      (fun _ s' => (∃ p u, Acting s pid p u) ∧ E s') (fun _ => True) s := by
  unfold syscallTurn
  rw [Prog.wp_bind]
  refine Prog.wp_mono (procCell_spec s pid) ?_ (fun _ _ => False.elim) fun _ _ => trivial
  intro p s₁ hpost
  obtain ⟨heq, u, hact⟩ := hpost
  subst heq
  simp only [Prog.wp_bind, Prog.wp_gets]
  refine Prog.wp_mono (h p u hact) ?_ (fun _ _ he => ⟨⟨p, u, hact⟩, he⟩) fun _ _ => trivial
  intro r s' hr
  cases r with
  | none =>
    obtain hsent | ht := hr
    · cases hsent
    simp only [Prog.wp_bind, wp_onRes, kmodify, Prog.wp_modify]
    refine Prog.wp_mono renewReply_same ?_ (fun _ _ => False.elim) fun _ _ => trivial
    intro _ t hsame
    rw [Prog.wp_pure]
    have hall : SameProcs s' t := ⟨hsame.procs, hsame.next, hsame.cells⟩
    exact ⟨by simp, ⟨p, u, hact⟩, hT s' t ht hall⟩
  | some r =>
    rw [Prog.wp_bind]
    cases r with
    | processWait => trivial
    | _ =>
      obtain hsent | ht := hr
      · cases hsent
      · exact ⟨by simp, ⟨p, u, hact⟩, ht⟩

theorem quietTurn_aged (hinv : inv.ofProcess = false) : (syscallTurn setup pid inv).wp
    (TurnTaken s pid (SameProcs s))
    (fun _ s' => (∃ p u, Acting s pid p u) ∧ SameProcs s s') (fun _ => True) s :=
  syscallTurn_wp (fun _ _ h h' => h.trans h') fun _ _ _ =>
    Prog.wp_mono (handleSyscall_sameProcs setup hinv s (.refl s)) (fun _ _ h => .inr h.2)
      (fun _ _ h => h) fun _ _ => trivial

theorem spawnTurn_aged (args : ProcessSpawnArgs) (answers : StartAnswers) :
    (syscallTurn setup pid (.processSpawn args answers)).wp
      (TurnTaken s pid fun s' => ∃ new, findFreeProc s = some new ∧ CellMade new s s')
      (fun _ s' => (∃ p u, Acting s pid p u) ∧ SameProcs s s') (fun _ => True) s := by
  refine syscallTurn_wp ?_ fun p u hact => ?_
  · intro t t' ht hsame
    obtain ⟨new, hfree, hcell⟩ := ht
    exact ⟨new, hfree, hcell.trans hsame⟩
  · show (handleProcessSpawn setup.ep setup.loader p args answers >>=
      fun a => pure (some a)).wp _ _ _ s
    rw [Prog.wp_bind]
    exact Prog.wp_mono (handleProcessSpawn_made _ _ args answers) (fun _ _ h => .inr h)
      (fun _ _ h => h) fun _ h => h

/-- An exit ends the root server before the process table is touched. -/
theorem exitTurn_ends {caps : Nat → Option Cap} :
    (syscallTurn setup pid (.processExit caps)).wp (fun _ _ => False) (fun _ _ => False)
      (fun _ => True) s := by
  unfold syscallTurn
  rw [Prog.wp_bind]
  refine Prog.wp_mono (procCell_spec s pid) ?_ (fun _ _ => False.elim) fun _ _ => trivial
  intro p s₁ _
  simp only [Prog.wp_bind, Prog.wp_gets]
  refine Prog.wp_mono (?_ : (handleSyscall setup p (.processExit caps)).wp (fun _ _ => False)
    (fun _ _ => False) (fun _ => True) s₁) (fun _ _ => False.elim) (fun _ _ => False.elim)
      fun _ _ => trivial
  show (handleProcessExit p caps >>= fun _ => pure none).wp _ _ _ s₁
  rw [Prog.wp_bind]
  exact Prog.wp_mono (handleProcessExit_spec s₁ p caps) (fun _ _ => False.elim)
    (fun _ _ => False.elim) fun _ _ => trivial

/-- A turn is one of two kinds, and an error leaves the table as it was. -/
theorem syscallTurn_aged : (syscallTurn setup pid inv).wp
    (TurnTaken s pid (Aged s (.turn pid inv)))
    (fun _ s' => (∃ p u, Acting s pid p u) ∧ SameProcs s s') (fun _ => True) s := by
  cases hinv : inv.ofProcess with
  | false =>
    exact Prog.wp_mono (quietTurn_aged hinv) (fun _ _ h => h.imp .kept) (fun _ _ h => h)
      fun _ h => h
  | true =>
    cases inv with
    | processSpawn args answers =>
      refine Prog.wp_mono (spawnTurn_aged args answers) (fun _ _ h => h.imp ?_) (fun _ _ h => h)
        fun _ h => h
      intro hmade
      obtain ⟨new, hfree, hcell⟩ := hmade
      exact .spawned new hfree hcell
    | processWait hndl =>
      have hleft : (syscallTurn setup pid (.processWait hndl)).wp (TurnTaken s pid (SameProcs s))
          (fun _ s' => (∃ p u, Acting s pid p u) ∧ SameProcs s s') (fun _ => True) s :=
        syscallTurn_wp (fun _ _ h h' => h.trans h') fun p u _ => handleProcessWait_left hndl
      exact Prog.wp_mono hleft (fun _ _ h => h.imp .kept) (fun _ _ h => h) fun _ h => h
    | _ => cases hinv

/-- A fault is a running process's, and leaves the table as it was. -/
theorem faultTurn_sameProcs (pid : Pid) (addr : Nat) : (faultTurn pid addr : SProg Unit Unit).wp
    (fun _ s' => (∃ p u, Acting s pid p u) ∧ SameProcs s s')
    (fun _ s' => (∃ p u, Acting s pid p u) ∧ SameProcs s s') (fun _ => True) s := by
  have hacting : (faultTurn pid addr : SProg Unit Unit).wp (fun _ _ => ∃ p u, Acting s pid p u)
      (fun _ _ => ∃ p u, Acting s pid p u) (fun _ => True) s := by
    unfold faultTurn
    rw [Prog.wp_bind]
    refine Prog.wp_mono (procCell_spec s pid) ?_ (fun _ _ => False.elim) fun _ _ => trivial
    intro p s₁ hpost
    obtain ⟨-, u, hact⟩ := hpost
    exact Prog.wp_mono Prog.wp_trivial (fun _ _ _ => ⟨p, u, hact⟩) (fun _ _ _ => ⟨p, u, hact⟩)
      fun _ h => h
  have hkept : Keeping (SameProcs s) (faultTurn pid addr : SProg Unit Unit) :=
    faultTurn_keeping pid addr
  refine Prog.wp_mono (Prog.wp_and hacting (hkept s (.refl s))) ?_ (fun _ _ h => h) fun _ h => h.1
  exact fun _ _ h => ⟨h.1, h.2.2⟩

end Turns

/-! ## One step -/

/-- No pid is free. -/
theorem findFreeProc_eq_none {s : State} :
    findFreeProc s = none ↔ ∀ pid < maxProcs, s.stage pid ≠ .free := by
  unfold findFreeProc
  rw [List.find?_range_eq_none]
  refine forall₂_congr fun pid _ => ?_
  rw [Ne, ← State.stage_eq_free]
  simp [Option.isSome_iff_ne_none]

/-- `find_free_proc` finds the least pid that is free. -/
theorem findFreeProc_eq_some {s : State} {new : Pid} (h : findFreeProc s = some new) :
    IsLeast {pid | pid < maxProcs ∧ s.stage pid = .free} new := by
  unfold findFreeProc at h
  rw [List.find?_range_eq_some] at h
  obtain ⟨hfree, hmem, hleast⟩ := h
  refine ⟨⟨List.mem_range.mp hmem, State.stage_eq_free.mp hfree⟩, fun pid hpid => ?_⟩
  obtain ⟨_, hpid⟩ := hpid
  refine Nat.le_of_not_lt fun hlt => ?_
  have hused := hleast pid hlt
  rw [State.stage_eq_free.mpr hpid] at hused
  cases hused

namespace Aged

variable {s s' : State} {op : Lifecycle.Op}

theorem pidsMatch (h : Aged s op s') (hm : s.PidsMatch) : s'.PidsMatch := by
  cases h with
  | kept h => exact h.pidsMatch hm
  | spawned new free h => exact h.pidsMatch hm

/-- A pid that is not free stays what it is. -/
theorem leads (h : Aged s op s') (hm : s.PidsMatch) (pid : Pid) :
    (s.stage pid).Leads (s'.stage pid) := by
  cases h with
  | kept h =>
    rw [h.stage]
    exact Stage.leads_refl _
  | spawned new free h =>
    rw [h.stage hm]
    by_cases heq : pid = new
    · rw [heq, (findFreeProc_eq_some free).1.2, Function.update_self]
      exact .inr ⟨rfl, _, rfl⟩
    · rw [Function.update_of_ne heq]
      exact Stage.leads_refl _

/-- The cells that were made and the pids that are left are as many as before. -/
theorem paid (h : Aged s op s') (hm : s.PidsMatch) :
    s'.procCells.next + s'.freePids.card = s.procCells.next + s.freePids.card := by
  cases h with
  | kept h => rw [h.next, h.freePids]
  | spawned new free h =>
    have hmem : new ∈ s.freePids := State.mem_freePids.mpr (findFreeProc_eq_some free).1
    have hcard := Finset.card_erase_add_one hmem
    rw [h.next, h.freePids hm]
    omega

end Aged

namespace Lifecycle

section Steps

variable {setup : Setup} {sys sys' : System} {op : Op}

/-- The process that an operation is of. -/
def Op.pid : Op → Option Pid
  | .turn pid _ | .fault pid _ => some pid
  | .take _ => none

theorem step_aged (hstep : sys.step setup op = some sys') :
    Aged sys.state op sys'.state ∧
      ∀ pid, op.pid = some pid → ∃ p u, Acting sys.state pid p u := by
  cases op with
  | turn pid inv =>
    have hturn := step_turn (syscallTurn_aged) hstep
    obtain ⟨r, s', htaken, rfl⟩ | ⟨e, s', hleft, rfl⟩ := hturn
    · rw [after_state]
      refine ⟨htaken.2.2, fun pid' heq => ?_⟩
      cases heq
      exact htaken.2.1
    · rw [after_state]
      refine ⟨.kept hleft.2, fun pid' heq => ?_⟩
      cases heq
      exact hleft.1
  | fault pid addr =>
    have hfault := faultTurn_sameProcs (s := sys.state) pid addr
    simp only [System.step] at hstep
    split at hstep
    · next hok =>
      cases hstep
      have hpost := Prog.wp_ok hfault hok
      refine ⟨.kept hpost.2, fun pid' heq => ?_⟩
      cases heq
      exact hpost.1
    · next herr =>
      cases hstep
      have hpost := Prog.wp_err hfault herr
      refine ⟨.kept hpost.2, fun pid' heq => ?_⟩
      cases heq
      exact hpost.1
    · cases hstep
  | take srv =>
    cases hstep
    exact ⟨.kept ⟨rfl, rfl, fun _ => rfl⟩, fun pid heq => by cases heq⟩

end Steps

/-! ## Runs -/

/-- Any run, from a state whose table finds every process under its pid. -/
abbrev AnyRun (setup : Setup) : List Op → System → Prop :=
  Run (fun sys => sys.state.PidsMatch) (fun sys => sys.step setup) fun _ _ => True

/-- How a run goes on from `sys`. -/
abbrev Onward (setup : Setup) (sys : System) : List Op → System → Prop :=
  Run (fun start => start = sys) (fun sys => sys.step setup) fun _ _ => True

/-- What a pid is and becomes, at one point of a run. -/
structure PidsAge (setup : Setup) (sys : System) : Prop where
  /-- Only running processes take turns, and every one has a cell of its own. -/
  acts : ∀ op pid sys', op.pid = some pid → sys.step setup op = some sys' →
    ∃ p, sys.state.stage pid = .running p
  lone : ∀ pid pid' p, sys.state.stage pid = .running p → sys.state.stage pid' = .running p →
    pid' = pid
  /-- A step takes the least free pid for a new process, or leaves all the pids as they are. -/
  moves : ∀ op sys', sys.step setup op = some sys' →
    sys'.state.stage = sys.state.stage ∨
    ∃ pid args answers new, op = .turn pid (.processSpawn args answers) ∧
      IsLeast {pid | pid < maxProcs ∧ sys.state.stage pid = .free} new ∧
        sys'.state.stage = Function.update sys.state.stage new (.running sys.state.procCells.next)
  /-- No process gets to the end of its exit, and nobody is told that one has. -/
  exits : ∀ pid caps, sys.step setup (.turn pid (.processExit caps)) = none
  untold : ∀ pid inv r s', syscallTurn setup pid inv sys.state = .ok r s' →
    r ≠ some .processWait

section Runs

variable {setup : Setup} {sys : System}

theorem pidsAge_of_pidsMatch (hm : sys.state.PidsMatch) : PidsAge setup sys where
  acts op pid sys' hpid hstep := by
    obtain ⟨p, u, hact⟩ := (step_aged hstep).2 pid hpid
    exact ⟨p, hact.stage⟩
  lone pid pid' p h h' := by
    obtain ⟨u, hp, hu⟩ := State.stage_eq_running.mp h
    obtain ⟨u', hp', hu'⟩ := State.stage_eq_running.mp h'
    exact ((hm pid' p hp').2 u hu).symm.trans ((hm pid p hp).2 u hu)
  moves op sys' hstep := by
    have haged := (step_aged hstep).1
    cases haged with
    | kept h => exact .inl h.stage
    | spawned new free h =>
      exact .inr ⟨_, _, _, new, rfl, findFreeProc_eq_some free, h.stage hm⟩
  exits pid caps := by
    cases hstep : sys.step setup (.turn pid (.processExit caps)) with
    | none => rfl
    | some sys' =>
      obtain ⟨r, s', hnever, -⟩ | ⟨e, s', hnever, -⟩ := step_turn exitTurn_ends hstep
      · exact hnever.elim
      · exact hnever.elim
  untold pid inv r s' hok := (Prog.wp_ok (syscallTurn_aged) hok).1

/-- The pids are in order in every run. -/
theorem AnyRun.pidsMatch {ops : List Op} (run : AnyRun setup ops sys) : sys.state.PidsMatch := by
  refine run.invariant (I := fun t : System => t.state.PidsMatch) (fun _ h => h) ?_
  intro sys op sys' hm _ hstep
  exact (step_aged hstep).1.pidsMatch hm

/-- From one point of a run to a later one. -/
theorem Onward.leads {more : List Op} {sys' : System} (hm : sys.state.PidsMatch)
    (rest : Onward setup sys more sys') :
    sys'.state.PidsMatch ∧ (∀ pid, (sys.state.stage pid).Leads (sys'.state.stage pid)) ∧
      sys'.state.procCells.next + sys'.state.freePids.card =
        sys.state.procCells.next + sys.state.freePids.card := by
  induction rest with
  | init h =>
    subst h
    exact ⟨hm, fun pid => Stage.leads_refl _, rfl⟩
  | step rest _ hstep ih =>
    obtain ⟨hm', hleads, hpaid⟩ := ih
    have haged := (step_aged hstep).1
    refine ⟨haged.pidsMatch hm', fun pid => ?_, (haged.paid hm').trans hpaid⟩
    exact (hleads pid).trans (haged.leads hm' pid)

/-- **Pids are for life.** In every run of invocations, faults and messages, from any point on to
any later one: a pid that is not free stays with its process; every cell made for a process is
paid for with one of the pids that were left; and once none is free no spawn succeeds. -/
theorem pids_for_life {ops more : List Op} {sys' : System} (run : AnyRun setup ops sys)
    (rest : Onward setup sys more sys') :
    PidsAge setup sys' ∧ (∀ pid, (sys.state.stage pid).Leads (sys'.state.stage pid)) ∧
      sys'.state.procCells.next + sys'.state.freePids.card =
        sys.state.procCells.next + sys.state.freePids.card ∧
      (findFreeProc sys.state = none → ∀ pid args answers r s',
        syscallTurn setup pid (.processSpawn args answers) sys'.state ≠ .ok r s') := by
  obtain ⟨hm, hleads, hpaid⟩ := rest.leads run.pidsMatch
  refine ⟨pidsAge_of_pidsMatch hm, hleads, hpaid, fun hfull pid args answers r s' hok => ?_⟩
  obtain ⟨new, hfree, -⟩ := (Prog.wp_ok (spawnTurn_aged args answers) hok).2.2
  obtain ⟨hlt, hstage⟩ := (findFreeProc_eq_some hfree).1
  have hused := findFreeProc_eq_none.mp hfull new hlt
  exact hused (((hleads new).eq hused).symm.trans hstage)

end Runs

/-! ## A process more -/

/-- One process, and room for another. -/
def roomy : State :=
  { demo with
    res := bareRes
    procCells := ⟨1, fun p => if p = 0 then .activeProcess (demoProcess 0 4 2) else .zombieProcess p⟩
    procs := fun pid => if pid = 0 then some 0 else none }

theorem roomy_pidsMatch : roomy.PidsMatch := by
  intro pid p hp
  simp only [roomy] at hp ⊢
  split at hp
  · next hpid =>
    cases hp
    subst hpid
    exact ⟨Nat.one_pos, fun u hu => by cases hu; rfl⟩
  · cases hp

/-- The loader has no segments, and the kernel refuses nothing. -/
def roomySetup : Setup := ⟨2, some ⟨0, some []⟩, fun _ => none⟩

def demoSpawn : Op := .turn 0 (.processSpawn ⟨"shell", "fs", none⟩ ⟨.ok (), .ok (), .ok (), .ok (), .ok ()⟩)

/-- The new process gets pid 1, and keeps it when it makes a window. -/
theorem pids_for_life_demo : ∃ sys sys', AnyRun roomySetup [demoSpawn] sys ∧
    Onward roomySetup sys [.turn 1 (.windowCreate ⟨0x10000000, 0x1000, false⟩)] sys' ∧
      sys'.state.stage 1 = .running 1 := by
  have hreach : ∃ sys, AnyRun roomySetup [demoSpawn] sys ∧ sys.state.stage 1 = .running 1 ∧
      (sys.step roomySetup (.turn 1 (.windowCreate ⟨0x10000000, 0x1000, false⟩))).isSome = true :=
    Run.exists_of_steps (s := ⟨roomy, [], [], [], []⟩) roomy_pidsMatch (Run.guarded_true _ _)
      (by decide +kernel)
  obtain ⟨sys, hrun, hstage, hsome⟩ := hreach
  obtain ⟨sys', hstep⟩ := Option.isSome_iff_exists.mp hsome
  have start : Onward roomySetup sys [] sys := .init rfl
  have rest := start.step trivial hstep
  obtain ⟨-, hleads, -⟩ := pids_for_life hrun rest
  have hkept := (hleads 1).eq (by rw [hstage]; exact nofun)
  exact ⟨sys, sys', hrun, rest, hkept.trans hstage⟩

end Lifecycle

end Smos.RootServer
