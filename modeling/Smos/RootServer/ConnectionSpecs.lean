/-
Smos.RootServer.ConnectionSpecs — what the four connection handlers do.

Making a connection appends it to its server's list before the client is
given a handle, so a full handle table leaves a connection that nobody
holds. Registering takes the first connection of the list with the client's
id and marks it before there is a handle for the registration. Ending a
connection takes it out of no list; the server is told if the connection is
marked.
-/
import Smos.RootServer.Connections
import Smos.RootServer.HandlerSpecs

namespace Smos.RootServer

open Smos.Base

/-! ## Accessors -/

section Accessors

variable {ε : Type} {E : ε → State → Prop} {P : Panic → Prop} {s : State}

@[simp] theorem wp_getConnection {conn : ConnectionRef} {Q : Connection → State → Prop} :
    (getConnection conn : SProg ε Connection).wp Q E P s ↔ Q (s.connections conn) s := Iff.rfl

@[simp] theorem wp_modifyConnection {conn : ConnectionRef} {f : Connection → Connection}
    {Q : Unit → State → Prop} : (modifyConnection conn f : SProg ε Unit).wp Q E P s ↔
      Q () { s with connections := s.connections.update conn f } := Iff.rfl

@[simp] theorem wp_newConnection {x : Connection} {Q : ConnectionRef → State → Prop} :
    (newConnection x : SProg ε ConnectionRef).wp Q E P s ↔
      Q s.connections.next { s with connections := s.connections.alloc x } := Iff.rfl

@[simp] theorem State.setHandleAt_connections (loc : HandleLoc) (x : Option RootServerResource) :
    (s.setHandleAt loc x).connections = s.connections := by
  cases loc <;> rfl

end Accessors

/-! ## Specifications -/

variable {s s' : State} {p : Nat}

/-- The first connection of a list that is of a client. -/
def State.firstOf (s : State) (clientId : Pid) (conns : List ConnectionRef) :
    Option ConnectionRef :=
  conns.find? fun conn => (s.connections conn).id == clientId

theorem findConnection_spec (ε : Type) (s : State) (clientId : Pid) :
    ∀ conns : List ConnectionRef, (findConnection clientId conns : SProg ε _).wp
      (fun found s' => s' = s ∧ found = s.firstOf clientId conns) (fun _ _ => False)
      (fun _ => False) s
  | [] => ⟨rfl, rfl⟩
  | conn :: conns => by
      simp only [findConnection, Prog.wp_bind, wp_getConnection, Prog.wp_ite, Prog.wp_pure]
      refine ⟨fun hid => ⟨trivial, ?_⟩, fun hid => ?_⟩
      · simp [State.firstOf, hid]
      · have hrest := findConnection_spec ε s clientId conns
        have hskip : s.firstOf clientId (conn :: conns) = s.firstOf clientId conns := by
          simp [State.firstOf, hid]
        rw [hskip]
        exact hrest

/-- A new connection, in its server's list. -/
def State.connect (s : State) (srv : ServerRef) (x : Connection) : State :=
  { s with
    connections := s.connections.alloc x
    servers := s.servers.update srv fun server =>
      { server with connections := server.connections ++ [s.connections.next] } }

theorem connect_list (s : State) (srv srv' : ServerRef) (x : Connection) :
    ((s.connect srv x).servers srv').connections = (s.servers srv').connections ++
      if srv' = srv then [s.connections.next] else [] := by
  simp only [State.connect, Heap.update_apply]
  by_cases h : srv' = srv
  · simp [h]
  · simp [h]

theorem connect_ring (s : State) (srv srv' : ServerRef) (x : Connection) :
    ((s.connect srv x).servers srv').ntfnBuffer = (s.servers srv').ntfnBuffer := by
  simp only [State.connect, Heap.update_apply]
  by_cases h : srv' = srv
  · simp [h]
  · simp [h]

/-- A connection is made and appended to the list of its server. -/
structure Connected (p : Nat) (name : String) (u : UserProcess) (srv : ServerRef) (s s₁ : State) :
    Prop where
  proc : s.procCells p = .activeProcess u
  found : findServerWithName s name = some srv
  eq : ∃ r slot, s₁ = ({ s with res := r } : State).connect srv ⟨u.pid, srv, slot, false⟩

theorem handleConnCreate_spec (s : State) (p : Nat) (name : String) :
    (handleConnCreate p name).wp
      (fun _ s' => ∃ u srv s₁ idx, Connected p name u srv s s₁ ∧ s₁.ValidLoc (.table p idx) ∧
        s' = s₁.setHandleAt (.table p idx) (some (.connection s.connections.next)))
      (fun _ s' => (∃ r, s' = { s with res := r }) ∨ ∃ u srv, Connected p name u srv s s')
      (fun _ => True) s := by
  simp only [handleConnCreate, Prog.wp_bind, wp_getProc, Prog.wp_gets, Prog.wp_okOr]
  refine ⟨fun u hu => ⟨fun srv hsrv => ?_, fun _ => .inl ⟨s.res, rfl⟩⟩, fun _ _ => trivial⟩
  simp only [wp_getServer, Prog.wp_ite, Prog.wp_fail, Prog.wp_bind, Prog.wp_catchErr, wp_onRes]
  refine ⟨fun _ => .inl ⟨s.res, rfl⟩, fun _ => ?_⟩
  refine Prog.wp_mono Prog.wp_trivial (fun slot r _ => ?_) (fun _ r _ => .inl ⟨r, rfl⟩)
    fun _ _ => trivial
  unfold Prog.expect
  rw [Prog.wp_catchErr]
  refine Prog.wp_mono Prog.wp_trivial (fun _ r₁ _ => ?_) (fun _ _ _ => trivial) fun _ _ => trivial
  simp only [wp_newConnection, wp_modifyServer]
  have hmade : Connected p name u srv s
      (({ s with res := r₁ } : State).connect srv ⟨u.pid, srv, slot, false⟩) :=
    ⟨hu, hsrv, r₁, slot, rfl⟩
  refine Prog.wp_mono (allocateHandle_spec _ p) ?_ (fun _ s₁ h => ?_) fun _ _ => trivial
  · intro idx s₁ hpost
    rcases hpost with ⟨heq, hvalid, -⟩
    subst heq
    exact ⟨u, srv, _, idx, hmade, hvalid, rfl⟩
  · subst h
    exact .inr ⟨u, srv, hmade⟩

/-- The first connection of a client in a server's list is marked as registered. -/
structure Marked (p : Nat) (args : ConnRegisterArgs) (srv : ServerRef) (conn : ConnectionRef)
    (s s₁ : State) : Prop where
  server : s.handleAt (.table p args.publishHndl) = some (.server srv)
  first : s.firstOf args.clientId (s.servers srv).connections = some conn
  eq : s₁ = { s with connections := s.connections.update conn fun connection =>
    { connection with registered := true } }

theorem handleConnRegister_spec (s : State) (p : Nat) (args : ConnRegisterArgs) :
    (handleConnRegister p args).wp
      (fun r s' => ∃ srv conn s₁ idx, Marked p args srv conn s s₁ ∧
        s₁.ValidLoc (.table p idx) ∧ r = .connRegister idx ∧
        s' = s₁.setHandleAt (.table p idx) (some (.connRegistration conn)))
      (fun _ s' => s' = s ∨ ∃ srv conn, Marked p args srv conn s s') (fun _ => True) s := by
  simp only [handleConnRegister, Prog.wp_bind, Prog.wp_catchErr, Prog.wp_fail]
  refine Prog.wp_mono (getHandle_spec s p args.publishHndl) ?_ (fun _ _ h => .inl h)
    fun _ _ => trivial
  intro x s₁ hpost
  rcases hpost with ⟨heq, -, hx⟩
  subst heq
  simp only [Prog.wp_unwrap]
  refine ⟨fun y hy => ?_, fun _ => trivial⟩
  cases y with
  | server srv =>
    simp only [Prog.wp_bind, wp_getServer]
    refine Prog.wp_mono (findConnection_spec _ s₁ args.clientId _) ?_ (fun _ _ => False.elim)
      fun _ _ => trivial
    intro found s₂ hpost
    rcases hpost with ⟨heq, hfound⟩
    subst heq
    cases found with
    | none => exact .inl rfl
    | some conn =>
      have hmarked : Marked p args srv conn s₂ _ := ⟨hx.symm.trans hy, hfound.symm, rfl⟩
      simp only [Prog.wp_bind, wp_modifyConnection]
      refine Prog.wp_mono (allocateHandle_spec _ p) ?_ (fun _ s₃ h => ?_) fun _ _ => trivial
      · intro idx s₃ hpost
        rcases hpost with ⟨heq, hvalid, -⟩
        subst heq
        exact ⟨srv, conn, _, idx, hmarked, hvalid, rfl, rfl⟩
      · subst h
        exact .inr ⟨srv, conn, hmarked⟩
  | _ => exact .inl rfl

theorem handleConnDeregister_spec (s : State) (p hndl : Nat) :
    (handleConnDeregister p hndl).wp
      (fun _ s' => ∃ conn, s.ValidLoc (.table p hndl) ∧
        s.handleAt (.table p hndl) = some (.connRegistration conn) ∧
        s' = ({ s with connections := s.connections.update conn fun connection =>
          { connection with registered := false } } : State).setHandleAt (.table p hndl) none)
      (fun _ s' => s' = s) (fun _ => True) s := by
  simp only [handleConnDeregister, Prog.wp_bind, Prog.wp_catchErr, Prog.wp_fail]
  refine Prog.wp_mono (getHandle_spec s p hndl) ?_ (fun _ _ h => h) fun _ _ => trivial
  intro x s₁ hpost
  rcases hpost with ⟨heq, hvalid, hx⟩
  subst heq
  simp only [Prog.wp_unwrap]
  refine ⟨fun y hy => ?_, fun _ => trivial⟩
  cases y with
  | connRegistration conn =>
    simp only [Prog.wp_bind, wp_modifyConnection, Prog.expect, Prog.wp_catchErr, Prog.wp_panic]
    refine Prog.wp_mono (cleanupHandle_spec _ p hndl) ?_ (fun _ _ _ => trivial) fun _ _ => trivial
    intro _ s₂ heq
    exact ⟨conn, hvalid, hx.symm.trans hy, heq⟩
  | _ => exact rfl

/-- The server of a connection is told that it is gone, if it is registered. -/
def State.tell (s : State) (conn : ConnectionRef) : State :=
  if (s.connections conn).registered then
    { s with servers := s.servers.update (s.connections conn).server fun server =>
      { server with
        ntfnBuffer := server.ntfnBuffer ++ [.connDestroy (s.connections conn).id] } }
  else s

theorem tell_next (s : State) (conn : ConnectionRef) :
    (s.tell conn).servers.next = s.servers.next := by
  unfold State.tell
  split <;> rfl

theorem tell_list (s : State) (conn : ConnectionRef) (srv : ServerRef) :
    ((s.tell conn).servers srv).connections = (s.servers srv).connections := by
  unfold State.tell
  split
  · simp only [Heap.update_apply]
    by_cases h : srv = (s.connections conn).server <;> simp [h]
  · rfl

theorem tell_ring (s : State) (conn : ConnectionRef) (srv : ServerRef) :
    ((s.tell conn).servers srv).ntfnBuffer = (s.servers srv).ntfnBuffer ++
      if (s.connections conn).registered ∧ srv = (s.connections conn).server then
        [.connDestroy (s.connections conn).id]
      else [] := by
  unfold State.tell
  cases hreg : (s.connections conn).registered with
  | false => simp
  | true =>
    simp only [if_true, Heap.update_apply, true_and]
    by_cases h : srv = (s.connections conn).server <;> simp [h]

/-- The ring of a connection's server has room for one more message. -/
def State.RoomFor (s : State) (conn : ConnectionRef) : Prop :=
  (s.servers (s.connections conn).server).ntfnBuffer.length < ntfnBufferCapacity

/-- A process that has a handle is active, and the handle is within its table. -/
theorem State.validLoc_of_handleAt {idx : Nat} {x : RootServerResource}
    (h : s.handleAt (.table p idx) = some x) : s.ValidLoc (.table p idx) := by
  simp only [State.handleAt] at h
  cases hcell : s.procCells p with
  | zombieProcess z => simp [hcell] at h
  | activeProcess u =>
    by_cases hlt : idx < maxHandles
    · exact ⟨hlt, u, hcell⟩
    · simp [hcell, hlt] at h

/-- A handle that is there is found. -/
theorem getHandle_held {idx : Nat} {x : RootServerResource}
    (h : s.handleAt (.table p idx) = some x) :
    (getHandle p idx).wp (fun y s' => y = some x ∧ s' = s) (fun _ _ => False)
      (fun _ => False) s := by
  obtain ⟨hlt, u, hu⟩ := State.validLoc_of_handleAt h
  have hle : ¬ idx > maxHandles := by omega
  have hne : idx ≠ maxHandles := by omega
  simp only [State.handleAt, hu, hlt, if_true] at h
  simp [getHandle, hle, hne, hu, h]

/-- What ending the connection `conn` with the handle `hndl` makes of the state. -/
structure Disconnected (p hndl : Nat) (conn : ConnectionRef) (s s' : State) : Prop where
  held : s.handleAt (.table p hndl) = some (.connection conn)
  eq : ∃ k, s' = (({ s with res := { s.res with kernel := k } } : State).tell conn).setHandleAt
    (.table p hndl) none

namespace Disconnected

variable {hndl : Nat} {conn : ConnectionRef}

/-- Only servers, the kernel and the one handle have changed. -/
theorem rest (h : Disconnected p hndl conn s s') :
    s'.connections = s.connections ∧ s'.servers.next = s.servers.next ∧
      s'.published = s.published ∧ s'.procs = s.procs := by
  obtain ⟨k, rfl⟩ := h.eq
  refine ⟨?_, ?_, ?_, ?_⟩
  · simp only [State.setHandleAt_connections]
    unfold State.tell
    split <;> rfl
  · simp only [State.setHandleAt_servers, tell_next]
  · simp only [State.setHandleAt_published]
    unfold State.tell
    split <;> rfl
  · simp only [State.setHandleAt_procs]
    unfold State.tell
    split <;> rfl

theorem list (h : Disconnected p hndl conn s s') (srv : ServerRef) :
    (s'.servers srv).connections = (s.servers srv).connections := by
  obtain ⟨k, rfl⟩ := h.eq
  simp only [State.setHandleAt_servers, tell_list]

/-- The message, if there is one, goes to the connection's server and nowhere else. -/
theorem ring (h : Disconnected p hndl conn s s') (srv : ServerRef) :
    (s'.servers srv).ntfnBuffer = (s.servers srv).ntfnBuffer ++
      if (s.connections conn).registered ∧ srv = (s.connections conn).server then
        [.connDestroy (s.connections conn).id]
      else [] := by
  obtain ⟨k, rfl⟩ := h.eq
  simp only [State.setHandleAt_servers, tell_ring]

/-- The state but for the servers and the kernel. -/
theorem cells (h : Disconnected p hndl conn s s') :
    s'.procCells = (s.setHandleAt (.table p hndl) none).procCells ∧ s'.handleCaps = s.handleCaps := by
  obtain ⟨k, rfl⟩ := h.eq
  unfold State.tell
  split <;> exact ⟨rfl, rfl⟩

theorem handleAt (h : Disconnected p hndl conn s s') (loc : HandleLoc) :
    s'.handleAt loc = if loc = .table p hndl then none else s.handleAt loc := by
  obtain ⟨hcells, hcaps⟩ := h.cells
  rw [State.handleAt_congr hcells hcaps]
  exact State.handleAt_setHandleAt (State.validLoc_of_handleAt h.held) none loc

end Disconnected

/-- With a handle of a connection, and room for the message, the call goes through. -/
theorem handleConnDestroy_held {hndl : Nat} {conn : ConnectionRef}
    (h : s.handleAt (.table p hndl) = some (.connection conn)) :
    (handleConnDestroy p hndl).wp
      (fun r s' => r = .connDestroy ∧ Disconnected p hndl conn s s') (fun _ _ => False)
      (fun _ => ¬ s.RoomFor conn) s := by
  obtain ⟨hlt, u, hu⟩ := State.validLoc_of_handleAt h
  have hle : ¬ hndl > maxHandles := by omega
  have hne : hndl ≠ maxHandles := by omega
  have hclean : ∀ {P : Panic → Prop} (t : State),
      ((cleanupHandle p hndl).expect .unwrapNone : Handler Unit).wp
        (fun _ s' => s' = t.setHandleAt (.table p hndl) none) (fun _ _ => False) P t := by
    intro P t
    simp [cleanupHandle, Prog.expect, hle, hne]
  simp only [handleConnDestroy, Prog.wp_bind, Prog.wp_catchErr, Prog.wp_fail]
  refine Prog.wp_mono (getHandle_held h) ?_ (fun _ _ => False.elim) fun _ => False.elim
  intro x s₁ hpost
  rcases hpost with ⟨hx, heq⟩
  subst heq
  subst hx
  simp only [Prog.wp_unwrap]
  refine ⟨fun y hy => ?_, fun hnone => by cases hnone⟩
  cases hy
  simp only [Prog.wp_bind, wp_getConnection, wp_onRes, revokeCap, kmodify, Prog.wp_modify,
    Prog.wp_ite, enqueueNtfnBufferMsg, wp_getServer, wp_modifyServer, Prog.wp_panic]
  refine ⟨fun hreg => ⟨fun hroom => ?_, fun hfull => hfull⟩, fun hreg => ?_⟩
  · refine Prog.wp_mono (hclean _) ?_ (fun _ _ => False.elim) fun _ h => h
    intro _ s' heq
    refine ⟨rfl, h, s₁.res.kernel.revoke (s₁.connections conn).badgedEp, heq.trans ?_⟩
    simp [State.tell, hreg]
  · refine Prog.wp_mono (hclean _) ?_ (fun _ _ => False.elim) fun _ h => h
    intro _ s' heq
    refine ⟨rfl, h, s₁.res.kernel.revoke (s₁.connections conn).badgedEp, heq.trans ?_⟩
    simp [State.tell, hreg]

theorem handleConnDestroy_spec (s : State) (p hndl : Nat) :
    (handleConnDestroy p hndl).wp (fun _ s' => ∃ conn, Disconnected p hndl conn s s')
      (fun _ s' => s' = s) (fun _ => True) s := by
  by_cases hheld : ∃ conn, s.handleAt (.table p hndl) = some (.connection conn)
  · obtain ⟨conn, hconn⟩ := hheld
    exact Prog.wp_mono (handleConnDestroy_held hconn) (fun _ _ h => ⟨conn, h.2⟩)
      (fun _ _ => False.elim) fun _ _ => trivial
  · simp only [handleConnDestroy, Prog.wp_bind, Prog.wp_catchErr, Prog.wp_fail]
    refine Prog.wp_mono (getHandle_spec s p hndl) ?_ (fun _ _ h => h) fun _ _ => trivial
    intro x s₁ hpost
    rcases hpost with ⟨heq, -, hx⟩
    subst heq
    simp only [Prog.wp_unwrap]
    refine ⟨fun y hy => ?_, fun _ => trivial⟩
    cases y with
    | connection conn => exact absurd ⟨conn, hx.symm.trans hy⟩ hheld
    | _ => exact rfl

end Smos.RootServer
