/-
Smos.RootServer.Answers — which reply an invocation gets, and what capability is in it.

Every handler answers with one kind of reply. Of those that carry a
capability, the slot has been filled in the same turn, and what is in it
does not depend on what was in the state before: a connection is the
server's endpoint with all rights, a server's handle capability is the
endpoint with the number the server chose and no rights.
-/
import Smos.Base.Keeps
import Smos.RootServer.KernelSpecs
import Smos.RootServer.Syscall

namespace Smos.RootServer

open Smos.Base

/-- The replies a handler answers its invocation with. -/
def Answers : Invocation → SMOSReply → Prop
  | .windowCreate args, r => ∃ idx, r = .windowCreate (newHandle args.returnCap idx)
  | .objCreate args _, r => ∃ idx, r = .objCreate (newHandle args.returnCap idx)
  | .serverCreateChannel _, r => ∃ bit idx, r = .serverCreateChannel bit idx
  | .connCreate _, r => ∃ hndl slot, r = .connCreate hndl slot
  | .connPublish _, r => ∃ hndl slot, r = .connPublish hndl slot
  | .serverHandleCapCreate _, r => ∃ hndl slot, r = .serverHandleCapCreate hndl slot
  | .channelOpen _, r => ∃ slot, r = .channelOpen slot
  | .irqRegister _, r => ∃ hndl slot bit, r = .irqRegister hndl slot bit
  | .replyCreate, r => ∃ hndl slot, r = .replyCreate hndl slot
  | _, r => r.handleCapIndex = none ∧ r.capSlot = none

section Replies

variable {setup : Setup} {p : Nat}

theorem returns_some {Q : SMOSReply → Prop} {m : Handler SMOSReply} (h : m.Returns Q) :
    (some <$> m : Handler (Option SMOSReply)).Returns fun o => ∀ r, o = some r → Q r := by
  refine Prog.Returns.map fun s r s' hm r' hr => ?_
  cases hr
  exact h s r s' hm

theorem genericInvalidHandleError_returns {α : Type} {Q : α → Prop} (hndl : HandleArg)
    (whichArg : Nat) : (genericInvalidHandleError hndl whichArg : Handler α).Returns Q := by
  cases hndl with
  | handle idx => exact .fail _
  | unwrappedHandleCap idx => exact .fail _
  | wrappedHandleCap => exact .panic _

theorem handleProcessWait_returns (hndl : Nat) :
    (handleProcessWait p hndl).Returns fun o => ∀ r, o = some r → r = .processWait := by
  unfold handleProcessWait
  refine .bind fun waitProc => .bind fun resource => ?_
  split
  · split
    · exact .panic _
    · refine .bind fun cells => ?_
      split
      · exact .bind fun _ => .bind fun _ => .pure fun r h => nomatch h
      · exact .bind fun _ => .pure fun r h => (Option.some.inj h).symm
  · exact .fail _

/-- Whoever gets a reply gets one of its invocation, and `handle_reply` leaves it alone unless the
caller could have been kept waiting. -/
theorem handleSyscall_returns (inv : Invocation) :
    (handleSyscall setup p inv).Returns fun o => ∀ r, o = some r →
      Answers inv r ∧ (inv.waits = false → handleReply r = (pure () : Handler Unit)) := by
  cases inv
  case processWait hndl =>
    intro s o s' hm r hr
    rw [handleProcessWait_returns hndl s o s' hm r hr]
    exact ⟨⟨rfl, rfl⟩, nofun⟩
  case processExit caps => exact .bind fun _ => .pure fun r h => nomatch h
  all_goals
    refine returns_some ?_
    delta handleWindowCreate handleWindowDestroy handleWindowRegister handleWindowDeregister
      handleIrqRegister handleConnCreate handleConnDestroy handleConnPublish handleConnRegister
      handleConnDeregister handleObjCreate handleObjStat handleObjDestroy handleView handleUnview
      handleReplyCreate handleServerHandleCapCreate handleServerCreateChannel handleChannelOpen
      handlePageMap handleLoadComplete handleProcessSpawn
    repeat' first
      | exact .pure ⟨⟨_, rfl⟩, fun _ => rfl⟩
      | exact .pure ⟨⟨_, _, rfl⟩, fun _ => rfl⟩
      | exact .pure ⟨⟨_, _, _, rfl⟩, fun _ => rfl⟩
      | exact .pure ⟨⟨rfl, rfl⟩, fun _ => rfl⟩
      | exact .fail _
      | exact .panic _
      | exact genericInvalidHandleError_returns _ _
      | refine .bind fun _ => ?_
      | split

theorem handleSyscall_answers (inv : Invocation) :
    (handleSyscall setup p inv).Returns fun o => ∀ r, o = some r → Answers inv r :=
  fun s o s' hm r hr => (handleSyscall_returns inv s o s' hm r hr).1

end Replies

/-! ## The turns of `exec` -/

/-- The turn of `exec` that an invocation is. Starting a process is none. -/
def Invocation.op (pid : Pid) : Invocation → Option Op
  | .windowCreate args => some (.windowCreate pid args)
  | .windowDestroy hndl => some (.windowDestroy pid hndl)
  | .windowRegister args => some (.windowRegister pid args)
  | .windowDeregister hndl => some (.windowDeregister pid hndl)
  | .irqRegister args => some (.registry pid (.irqRegister args))
  | .connCreate name => some (.registry pid (.connCreate name))
  | .connDestroy hndl => some (.connDestroy pid hndl)
  | .connPublish args => some (.connPublish pid args)
  | .connRegister args => some (.registry pid (.connRegister args))
  | .connDeregister hndl => some (.registry pid (.connDeregister hndl))
  | .objCreate args dmaAnswer => some (.objCreate pid args dmaAnswer)
  | .objStat hndl => some (.registry pid (.objStat hndl))
  | .objDestroy hndl => some (.objDestroy pid hndl)
  | .view args => some (.view pid args)
  | .unview hndl => some (.unview pid hndl)
  | .replyCreate => some (.registry pid .replyCreate)
  | .serverHandleCapCreate args => some (.registry pid (.serverHandleCapCreate args))
  | .serverCreateChannel publishHndl => some (.registry pid (.serverCreateChannel publishHndl))
  | .channelOpen hndlCap => some (.registry pid (.channelOpen hndlCap))
  | .pageMap args => some (.pageMap pid args)
  | .loadComplete => some (.loadComplete pid)
  | .processSpawn _ _ => none
  | .processWait hndl => some (.processWait pid hndl)
  | .processExit caps => some (.processExit pid caps)

section Turns

variable {setup : Setup} {pid : Pid} {inv : Invocation}

/-- A turn in which a handler replies. -/
theorem syscallTurn_invoke {handler : Nat → Handler SMOSReply} (hw : inv.waits = false)
    (heq : ∀ p, handleSyscall setup p inv = some <$> handler p) :
    (syscallTurn setup pid inv >>= fun _ => pure ()) = invoke pid handler := by
  have hmap : ∀ p, handleSyscall setup p inv = handler p >>= fun r => pure (some r) := heq
  have hreply : ∀ p, (handler p).Returns fun r => handleReply r = (pure () : Handler Unit) := by
    intro p s r s' hm
    have hsome : handleSyscall setup p inv s = .ok (some r) s' := by
      rw [hmap, Prog.bind_of_ok hm]
      rfl
    exact (handleSyscall_returns inv s _ s' hsome r rfl).2 hw
  simp only [syscallTurn, invoke, hmap, Prog.bind_assoc]
  refine congrArg _ (funext fun p => funext fun s => ?_)
  rw [Prog.gets_bind]
  refine congrFun ((hreply p).bind_congr fun r hr => ?_) s
  show (handleReply r >>= fun _ => pure (some r)) >>= (fun _ => pure ()) = pure ()
  rw [hr]
  rfl

/-- The end of a turn without a reply. -/
theorem noReply (f : Kernel → Kernel) :
    ((do
      onRes (kmodify f)
      renewReply
      pure (none : Option SMOSReply) : Handler (Option SMOSReply)) >>= fun _ => pure ()) =
      (do
        onRes (kmodify f)
        renewReply : Handler Unit) := by
  simp only [Prog.bind_assoc]
  exact congrArg (Bind.bind _) (funext fun _ => Prog.bind_unit renewReply)

theorem syscallTurn_wait (hndl : Nat) :
    (syscallTurn setup pid (.processWait hndl) >>= fun _ => pure ()) = waitTurn pid hndl := by
  simp only [syscallTurn, waitTurn, Prog.bind_assoc]
  refine congrArg _ (funext fun p => funext fun s => ?_)
  rw [Prog.gets_bind, Prog.gets_bind]
  refine congrFun ((handleProcessWait_returns (p := p) hndl).bind_congr fun o ho => ?_) s
  cases o with
  | none => exact noReply _
  | some r =>
    rw [ho r rfl]
    rfl

theorem syscallTurn_exit (caps : Nat → Option Cap) :
    (syscallTurn setup pid (.processExit caps) >>= fun _ => pure ()) =
      exec (.processExit pid caps) := by
  simp only [syscallTurn, exec, handleSyscall, Prog.bind_assoc]
  refine congrArg _ (funext fun p => funext fun s => ?_)
  rw [Prog.gets_bind]
  refine congrFun (congrArg (Bind.bind (handleProcessExit p caps)) (funext fun _ => ?_)) s
  exact noReply fun k => k

/-- One turn of `syscall_loop` is a turn of `exec`. -/
theorem syscallTurn_exec {op : Op} (h : inv.op pid = some op) :
    (syscallTurn setup pid inv >>= fun _ => pure ()) = exec op := by
  cases inv with
  | processSpawn args answers => cases h
  | processWait hndl =>
    cases h
    exact syscallTurn_wait hndl
  | processExit caps =>
    cases h
    exact syscallTurn_exit caps
  | _ =>
    cases h
    exact syscallTurn_invoke rfl fun _ => rfl

end Turns

end Smos.RootServer
