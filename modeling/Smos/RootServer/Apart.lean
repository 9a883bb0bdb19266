/-
Smos.RootServer.Apart — what the other handlers do to connections: nothing.

Only four handlers make, register or end connections. `ConnApart s s'` says what
every other turn leaves as it was: the connections themselves, the lists the
servers keep of them, and the handles to them. Other turns may publish a
server, which starts without connections, and append messages to a server's
ring, but none that says a connection is gone.

So it is a bystander (`asideHandling_apart`), and only what makes processes is
looked at here.
-/
import Smos.RootServer.Bystander

namespace Smos.RootServer

open Smos.Base

/-- The process table finds a process under its own pid. -/
def State.PidsMatch (s : State) : Prop :=
  ∀ pid p, s.procs pid = some p →
    p < s.procCells.next ∧ ∀ u, s.procCells p = .activeProcess u → u.pid = pid

/-- A handle that has nothing to do with connections, or is of a server published since `s₀`. -/
def Unrelated (s₀ s : State) (x : RootServerResource) : Prop :=
  x.ofConnection = false ∧
    ∀ srv, x = .server srv → s₀.servers.next ≤ srv ∧ srv < s.servers.next

/-- Between `s` and `s'` no connection was made, registered or ended. -/
structure ConnApart (s s' : State) : Prop where
  connections : s'.connections = s.connections
  next : s.servers.next ≤ s'.servers.next
  lists : ∀ srv < s.servers.next, (s'.servers srv).connections = (s.servers srv).connections
  rings : ∀ srv < s.servers.next, ∃ msgs,
    (s'.servers srv).ntfnBuffer = (s.servers srv).ntfnBuffer ++ msgs ∧ NoneGone msgs
  fresh : ∀ srv, s.servers.next ≤ srv → srv < s'.servers.next →
    (s'.servers srv).connections = [] ∧ NoneGone (s'.servers srv).ntfnBuffer
  handles : ∀ loc x, s'.handleAt loc = some x → s.handleAt loc = some x ∨ Unrelated s s' x
  published : ∀ name srv, (name, srv) ∈ s'.published →
    (name, srv) ∈ s.published ∨ (s.servers.next ≤ srv ∧ srv < s'.servers.next)
  pids : s.PidsMatch → s'.PidsMatch

/-! ## Steps -/

namespace ConnApart

variable {s₀ s s' : State}

protected theorem refl (s : State) : ConnApart s s where
  connections := rfl
  next := Nat.le_refl _
  lists _ _ := rfl
  rings _ _ := ⟨[], by simp, by simp [NoneGone]⟩
  fresh srv h h' := by omega
  handles _ _ h := .inl h
  published _ _ h := .inl h
  pids h := h

/-- A step that only touches what `ConnApart` does not speak of. -/
theorem same (h : ConnApart s₀ s) (hconn : s'.connections = s.connections)
    (hsrv : s'.servers = s.servers) (hcells : s'.procCells = s.procCells)
    (hprocs : s'.procs = s.procs) (hcaps : s'.handleCaps = s.handleCaps)
    (hpub : s'.published = s.published) : ConnApart s₀ s' where
  connections := hconn.trans h.connections
  next := hsrv ▸ h.next
  lists srv hlt := by rw [hsrv]; exact h.lists srv hlt
  rings srv hlt := by rw [hsrv]; exact h.rings srv hlt
  fresh srv := by rw [hsrv]; exact h.fresh srv
  handles loc x hx := by
    rw [State.handleAt_congr hcells hcaps] at hx
    simpa only [Unrelated, hsrv] using h.handles loc x hx
  published name srv := by rw [hsrv, hpub]; exact h.published name srv
  pids h₀ := by
    have hmatch := h.pids h₀
    unfold State.PidsMatch
    rw [hcells, hprocs]
    exact hmatch

theorem pidsMatch_updProc (h : s.PidsMatch) (p : Nat) {f : UserProcess → UserProcess}
    (hpid : ∀ u, (f u).pid = u.pid) : (s.updProc p f).PidsMatch := by
  intro pid c hc
  obtain ⟨hlt, hpids⟩ := h pid c hc
  refine ⟨hlt, fun u hu => ?_⟩
  rw [State.procCells_updProc] at hu
  split at hu
  · next heq =>
    subst heq
    cases hcell : s.procCells c with
    | activeProcess u₀ =>
      rw [hcell] at hu
      cases hu
      exact (hpid u₀).trans (hpids u₀ hcell)
    | zombieProcess z =>
      rw [hcell] at hu
      cases hu
  · exact hpids u hu

theorem pidsMatch_setHandleAt (h : s.PidsMatch) (loc : HandleLoc)
    (x : Option RootServerResource) : (s.setHandleAt loc x).PidsMatch := by
  cases loc with
  | table p idx => exact pidsMatch_updProc h p fun _ => rfl
  | cap idx => exact h

/-- A process changes; the handles it has got have nothing to do with connections. -/
theorem updProc (h : ConnApart s₀ s) (p : Nat) {f : UserProcess → UserProcess}
    (hpid : ∀ u, (f u).pid = u.pid) (htable : ∀ u idx x, (f u).handleTable idx = some x →
      u.handleTable idx = some x ∨ Unrelated s₀ s x) : ConnApart s₀ (s.updProc p f) where
  connections := h.connections
  next := h.next
  lists := h.lists
  rings := h.rings
  fresh := h.fresh
  handles loc x hx := by
    have hcase : s.handleAt loc = some x ∨ Unrelated s₀ s x := by
      cases loc with
      | cap idx => exact .inl hx
      | table c idx =>
        simp only [State.handleAt, State.procCells_updProc] at hx ⊢
        by_cases hc : c = p
        · subst hc
          cases hcell : s.procCells c with
          | activeProcess u =>
            simp only [hcell, if_true, ProcessType.map] at hx ⊢
            by_cases hlt : idx < maxHandles
            · simp only [hlt, if_true] at hx ⊢
              exact htable u idx x hx
            · simp [hlt] at hx
          | zombieProcess z => simp [hcell, ProcessType.map] at hx
        · simp only [hc, if_false] at hx
          exact .inl hx
    obtain hold | hnew := hcase
    · exact h.handles loc x hold
    · exact .inr hnew
  published := h.published
  pids h₀ := pidsMatch_updProc (h.pids h₀) p hpid

theorem setHandleAt (h : ConnApart s₀ s) (loc : HandleLoc) {x : Option RootServerResource}
    (hx : ∀ y, x = some y → Unrelated s₀ s y) : ConnApart s₀ (s.setHandleAt loc x) := by
  cases loc with
  | table p idx =>
    refine h.updProc p (fun _ => rfl) fun u i y hy => ?_
    have hentry : Function.update u.handleTable idx x i = some y := hy
    by_cases hi : i = idx
    · subst hi
      rw [Function.update_self] at hentry
      exact .inr (hx y hentry)
    · rw [Function.update_of_ne hi] at hentry
      exact .inl hentry
  | cap idx =>
    refine { h with handles := fun loc y hy => ?_, pids := fun h₀ => h.pids h₀ }
    have hcase : s.handleAt loc = some y ∨ Unrelated s₀ s y := by
      cases loc with
      | table c i => exact .inl hy
      | cap i =>
        by_cases hi : i = idx
        · subst hi
          simp only [State.setHandleAt, State.handleAt, Function.update_self] at hy
          split at hy
          · exact .inr (hx y hy)
          · cases hy
        · simp only [State.setHandleAt, State.handleAt, Function.update_of_ne hi] at hy
          exact .inl hy
    obtain hold | hnew := hcase
    · exact h.handles loc y hold
    · exact .inr hnew

/-- A server's own data changes. -/
theorem updServer (h : ConnApart s₀ s) (srv : ServerRef) {f : Server → Server}
    (hlist : ∀ x, (f x).connections = x.connections)
    (hring : ∀ x, ∃ msgs, (f x).ntfnBuffer = x.ntfnBuffer ++ msgs ∧ NoneGone msgs) :
    ConnApart s₀ { s with servers := s.servers.update srv f } := by
  have hlists : ∀ srv', ((s.servers.update srv f) srv').connections =
      (s.servers srv').connections := fun srv' =>
    s.servers.update_preserves Server.connections (hlist _) srv'
  have hrings : ∀ srv', ∃ msgs, ((s.servers.update srv f) srv').ntfnBuffer =
      (s.servers srv').ntfnBuffer ++ msgs ∧ NoneGone msgs := by
    intro srv'
    rw [Heap.update_apply]
    split
    · next heq =>
      rw [heq]
      exact hring _
    · exact ⟨[], by simp, by simp [NoneGone]⟩
  refine { h with
    lists := fun srv' hlt => (hlists srv').trans (h.lists srv' hlt)
    rings := fun srv' hlt => ?_
    fresh := fun srv' hge hlt => ⟨(hlists srv').trans (h.fresh srv' hge hlt).1, ?_⟩
    handles := fun loc x hx => h.handles loc x hx
    pids := fun h₀ => h.pids h₀ }
  · obtain ⟨msgs, hmsgs, hnone⟩ := h.rings srv' hlt
    obtain ⟨more, hmore, hnone'⟩ := hrings srv'
    refine ⟨msgs ++ more, by rw [hmore, hmsgs, List.append_assoc], fun id hid => ?_⟩
    obtain hid | hid := List.mem_append.mp hid
    · exact hnone id hid
    · exact hnone' id hid
  · obtain ⟨more, hmore, hnone'⟩ := hrings srv'
    intro id hid
    rw [hmore] at hid
    obtain hid | hid := List.mem_append.mp hid
    · exact (h.fresh srv' hge hlt).2 id hid
    · exact hnone' id hid

/-- A server is published. -/
theorem publish (h : ConnApart s₀ s) (name : String) {x : Server} (hlist : x.connections = [])
    (hring : x.ntfnBuffer = []) :
    ConnApart s₀ { s with
      servers := s.servers.alloc x
      published := s.published ++ [(name, s.servers.next)] } := by
  have hnext := h.next
  have hold : ∀ srv < s.servers.next, (s.servers.alloc x) srv = s.servers srv := fun srv hlt =>
    s.servers.alloc_of_lt hlt x
  refine { h with
    next := Nat.le_succ_of_le h.next
    lists := fun srv hlt => ?_
    rings := fun srv hlt => ?_
    fresh := fun srv hge hlt => ?_
    handles := fun loc y hy => ?_
    published := fun name' srv hmem => ?_
    pids := fun h₀ => h.pids h₀ }
  · show ((s.servers.alloc x) srv).connections = _
    rw [hold srv (by omega)]
    exact h.lists srv hlt
  · show ∃ msgs, ((s.servers.alloc x) srv).ntfnBuffer = _ ∧ _
    rw [hold srv (by omega)]
    exact h.rings srv hlt
  · have hlt' : srv < s.servers.next + 1 := hlt
    show ((s.servers.alloc x) srv).connections = [] ∧
      NoneGone ((s.servers.alloc x) srv).ntfnBuffer
    by_cases heq : srv = s.servers.next
    · rw [heq, Heap.alloc_self, hlist, hring]
      exact ⟨rfl, by simp [NoneGone]⟩
    · rw [hold srv (by omega)]
      exact h.fresh srv hge (by omega)
  · obtain hkept | ⟨hconn, hsrv⟩ := h.handles loc y hy
    · exact .inl hkept
    · exact .inr ⟨hconn, fun srv heq => ⟨(hsrv srv heq).1, Nat.lt_succ_of_lt (hsrv srv heq).2⟩⟩
  · obtain hmem | hmem := List.mem_append.mp hmem
    · obtain hkept | ⟨hge, hlt⟩ := h.published name' srv hmem
      · exact .inl hkept
      · exact .inr ⟨hge, Nat.lt_succ_of_lt hlt⟩
    · cases List.mem_singleton.mp hmem
      exact .inr ⟨h.next, Nat.lt_succ_self _⟩

/-- A new cell, under a pid that is its own. -/
theorem newCell (h : ConnApart s₀ s) {x : ProcessType} {pid : Pid}
    (hx : ∀ u, x = .activeProcess u → u.pid = pid ∧ u.handleTable = fun _ => none) :
    ConnApart s₀ { s with
      procCells := s.procCells.alloc x
      procs := Function.update s.procs pid (some s.procCells.next) } := by
  refine { h with
    handles := fun loc y hy => ?_
    pids := fun h₀ pid' p hp => ?_ }
  · refine h.handles loc y ?_
    cases loc with
    | cap idx => exact hy
    | table c idx =>
      simp only [State.handleAt] at hy ⊢
      by_cases hc : c = s.procCells.next
      · subst hc
        rw [Heap.alloc_self] at hy
        cases x with
        | activeProcess u => simp [(hx u rfl).2] at hy
        | zombieProcess z => cases hy
      · rw [Heap.alloc_of_ne _ hc] at hy
        exact hy
  · have hmatch := h.pids h₀
    simp only [Heap.alloc_next] at hp ⊢
    by_cases heq : pid' = pid
    · subst heq
      rw [Function.update_self] at hp
      cases hp
      refine ⟨Nat.lt_succ_self _, fun u hu => ?_⟩
      rw [Heap.alloc_self] at hu
      exact (hx u hu).1
    · rw [Function.update_of_ne heq] at hp
      obtain ⟨hlt, hpid⟩ := hmatch pid' p hp
      refine ⟨Nat.lt_succ_of_lt hlt, fun u hu => hpid u ?_⟩
      rw [← Heap.alloc_of_lt _ hlt]
      exact hu

/-- A pid is free again. -/
theorem freePid (h : ConnApart s₀ s) (pid : Pid) :
    ConnApart s₀ { s with procs := Function.update s.procs pid none } := by
  refine { h with
    handles := fun loc y hy => h.handles loc y hy
    pids := fun h₀ pid' p hp => ?_ }
  refine h.pids h₀ pid' p ?_
  by_cases heq : pid' = pid
  · subst heq
    simp at hp
  · simpa [Function.update_of_ne heq] using hp

end ConnApart

/-! ## The handlers -/

section Handlers

variable {s₀ s : State} {p : Nat}

theorem Unrelated.of_ordinary {x : RootServerResource} (h : x.ordinary = true) :
    Unrelated s₀ s x := by
  cases x <;> simp_all [Unrelated, RootServerResource.ordinary, RootServerResource.ofConnection]

instance aside_apart : Aside (ConnApart s₀) where
  heaps _ _ _ h := h.same rfl rfl rfl rfl rfl rfl
  res _ h := h.same rfl rfl rfl rfl rfl rfl
  rest _ _ _ h := h.same rfl rfl rfl rfl rfl rfl
  server srv _ hlist hring h := h.updServer srv hlist hring
  proc p _ hpid htable h := h.updProc p hpid fun u _ _ hx => .inl (htable u ▸ hx)

instance asideHandling_apart : AsideHandling p (ConnApart s₀) where
  handle idx _ hx h := h.setHandleAt (.table p idx) fun y hy => .of_ordinary (hx y hy)
  handleCap idx _ hx h := h.setHandleAt (.cap idx) fun y hy => .of_ordinary (hx y hy)
  publish name idx _ hlist hring h := by
    refine (h.publish name hlist hring).setHandleAt (.table p idx) fun y hy => ?_
    cases hy
    refine ⟨rfl, fun srv heq => ?_⟩
    cases heq
    exact ⟨h.next, Nat.lt_succ_self _⟩

/-- A process that is started has no handles yet. -/
theorem startProcess_apart (ep : Slot) (elf : Option Elf)
    (loaderArgs execArgs : Option (List String)) (answers : StartAnswers) :
    Keeping (ConnApart s₀) (startProcess ep elf loaderArgs execArgs answers) := by
  intro s h
  refine startProcess_wp (J := fun _ => ConnApart s₀) ep elf loaderArgs execArgs answers
    (fun _ _ => h) (fun _ => h) (fun _ _ _ _ ht => ht) ?_
  intro pos u t _ ht hpid htable _
  refine ⟨trivial, ht.newCell fun u' hu => ?_⟩
  cases hu
  exact ⟨hpid, htable⟩

theorem handleProcessSpawn_apart (ep : Slot) (loader : Option Elf) (args : ProcessSpawnArgs)
    (answers : StartAnswers) : Keeping (ConnApart s₀) (handleProcessSpawn ep loader p args answers) :=
  .bind allocateHandle_keeping fun idx =>
    .bind (.catchErr (startProcess_apart _ _ _ _ _) fun _ => .fail _) fun _ =>
      .bind (setHandle_keeping idx (by simp [RootServerResource.ordinary])) fun _ => .pure _

theorem handleSyscall_apart (setup : Setup) {inv : Invocation} (h : inv.ofConnection = false) :
    Keeping (ConnApart s₀) (handleSyscall setup p inv) := by
  refine handleSyscall_keeping setup inv (fun hc => absurd hc (by simp [h])) fun hp => ?_
  cases inv with
  | processSpawn args answers => exact (handleProcessSpawn_apart _ _ args answers).map
  | processWait hndl => exact handleProcessWait_keeping hndl fun _ pid ht => ht.freePid pid
  | _ => cases hp

theorem syscallTurn_apart (setup : Setup) (pid : Pid) {inv : Invocation}
    (h : inv.ofConnection = false) : Keeping (ConnApart s₀) (syscallTurn setup pid inv) :=
  syscallTurn_keeping setup pid fun _ => handleSyscall_apart setup h

end Handlers

end Smos.RootServer
