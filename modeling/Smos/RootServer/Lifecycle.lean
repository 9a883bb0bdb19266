/-
Smos.RootServer.Lifecycle — connections over whole runs.

The root server serves any process's invocations and faults in any order;
servers take their messages. Beside its state a run keeps which connections
were made, for whom and at which server, which were given to their client
and not destroyed since (`Live`), and which registrations are outstanding.
A registration is for the connection of the client that was live when the
server asked for it.

A connection stays in its server's list for good, and registering takes the
first match. So registering finds the live connection only when the client
never had another one at this server, and it is exactly then that everything
works (`Orderly`); a client that disconnects and connects again is lost.
-/
import Mathlib.Data.List.Find
import Smos.Base.Run
import Smos.RootServer.Apart
import Smos.RootServer.Boot
import Smos.RootServer.ConnectionSpecs
import Smos.RootServer.Lookups
import Smos.RootServer.TurnSpecs

namespace Smos.RootServer

namespace Lifecycle

open Smos.Base

/-! ## Runs -/

/-- A connection in the list of its server. -/
structure Made where
  conn : ConnectionRef
  server : ServerRef
  client : Pid
  deriving DecidableEq

structure System where
  state : State
  made : List Made
  opened : List ConnectionRef
  closed : List ConnectionRef
  registrations : List (HandleLoc × ConnectionRef)

/-- An invocation or a fault of a process, or a server takes a message. -/
inductive Op where
  | turn (pid : Pid) (inv : Invocation)
  | fault (pid : Pid) (addr : Nat)
  | take (srv : ServerRef)

namespace System

variable (sys : System)

/-- The client was given the connection and has not destroyed it. -/
def Live (conn : ConnectionRef) : Prop := conn ∈ sys.opened ∧ conn ∉ sys.closed

instance (conn : ConnectionRef) : Decidable (sys.Live conn) :=
  inferInstanceAs (Decidable (_ ∧ _))

def ofClient (srv : ServerRef) (client : Pid) (m : Made) : Bool :=
  decide (m.server = srv ∧ m.client = client)

/-- The live connections of a client at a server. -/
def current (srv : ServerRef) (client : Pid) : List Made :=
  sys.made.filter fun m => ofClient srv client m && decide (sys.Live m.conn)

/-- Where the handle of a process is. -/
def place (pid : Pid) (hndl : Nat) : HandleLoc := .table ((sys.state.procs pid).getD 0) hndl

/-- The system after a turn that left `s'` and answered `answer`, or an error. -/
def after (pid : Pid) (inv : Invocation) (s' : State) (answer : Option SMOSReply) : System :=
  let sys' := { sys with state := s' }
  match inv with
  | .connCreate name =>
    match findServerWithName sys.state name with
    | none => sys'
    | some srv =>
      let conn := sys.state.connections.next
      if s'.connections.next = conn then sys'
      else { sys' with
        made := sys.made ++ [⟨conn, srv, pid⟩]
        opened := if answer.isSome then sys.opened ++ [conn] else sys.opened }
  | .connRegister args =>
    match answer, sys.state.handleAt (sys.place pid args.publishHndl) with
    | some (.connRegister idx), some (.server srv) => { sys' with
        registrations := sys.registrations ++
          (sys.current srv args.clientId).map fun m => (sys.place pid idx, m.conn) }
    | _, _ => sys'
  | .connDeregister hndl =>
    match answer, sys.state.handleAt (sys.place pid hndl) with
    | some _, some (.connRegistration conn) => { sys' with
        registrations := sys.registrations.filter fun r => r ≠ (sys.place pid hndl, conn) }
    | _, _ => sys'
  | .connDestroy hndl =>
    match answer, sys.state.handleAt (sys.place pid hndl) with
    | some _, some (.connection conn) => { sys' with closed := sys.closed ++ [conn] }
    | _, _ => sys'
  | _ => sys'

/-- One operation; after a panic there is no state. -/
def step (setup : Setup) : Op → Option System
  | .turn pid inv =>
    match syscallTurn setup pid inv sys.state with
    | .ok answer s' => some (sys.after pid inv s' answer)
    | .err _ s' => some (sys.after pid inv s' none)
    | .panic _ => none
  | .fault pid addr =>
    match (faultTurn pid addr : SProg Unit Unit) sys.state with
    | .ok _ s' | .err _ s' => some { sys with state := s' }
    | .panic _ => none
  | .take srv => some { sys with state := { sys.state with
      servers := sys.state.servers.update srv fun server =>
        { server with ntfnBuffer := server.ntfnBuffer.tail } } }

/-- Registering a client finds its live connection: the first that the client ever had at this
server is live, and no other is. Deregistering takes away the only registration of a connection.
Destroying a connection finds room for the message. -/
def Orderly : Op → Prop
  | .turn pid (.connRegister args) => ∀ srv m,
    sys.state.handleAt (sys.place pid args.publishHndl) = some (.server srv) →
      sys.made.find? (ofClient srv args.clientId) = some m → sys.current srv args.clientId = [m]
  | .turn pid (.connDeregister hndl) => ∀ loc conn,
    (sys.place pid hndl, conn) ∈ sys.registrations → (loc, conn) ∈ sys.registrations →
      loc = sys.place pid hndl
  | .turn pid (.connDestroy hndl) => ∀ m ∈ sys.made,
    sys.state.handleAt (sys.place pid hndl) = some (.connection m.conn) →
      (sys.state.servers m.server).ntfnBuffer.length < ntfnBufferCapacity
  | _ => True

/-- What `Orderly` says of registering, computed. -/
def findsLive (pid : Pid) (args : ConnRegisterArgs) : Bool :=
  match sys.state.handleAt (sys.place pid args.publishHndl) with
  | some (.server srv) =>
    (sys.made.find? (ofClient srv args.clientId)).all fun m => sys.current srv args.clientId = [m]
  | _ => true

theorem findsLive_iff (pid : Pid) (args : ConnRegisterArgs) :
    sys.findsLive pid args = true ↔ sys.Orderly (.turn pid (.connRegister args)) := by
  unfold findsLive
  split
  · next srv hsrv =>
    constructor
    · intro hall srv' m hsrv' hfind
      cases hsrv.symm.trans hsrv'
      rw [hfind] at hall
      exact of_decide_eq_true hall
    · intro hop
      cases hfind : sys.made.find? (ofClient srv args.clientId) with
      | none => rfl
      | some m => exact decide_eq_true (hop srv m hsrv hfind)
  · next hne =>
    simp only [Orderly, true_iff]
    intro srv m hsrv
    exact absurd hsrv (hne srv)

instance decidableOrderly (op : Op) : Decidable (sys.Orderly op) :=
  match op with
  | .fault _ _ | .take _ => .isTrue trivial
  | .turn pid inv => match inv with
    | .connRegister args => decidable_of_iff _ (sys.findsLive_iff pid args)
    | .connDeregister hndl =>
      decidable_of_iff (∀ r ∈ sys.registrations, ∀ r' ∈ sys.registrations,
        r = (sys.place pid hndl, r'.2) → r'.1 = sys.place pid hndl) <| by
        constructor
        · intro h loc conn hr hr'
          exact h _ hr _ hr' rfl
        · intro h r hr r' hr' heq
          exact h r'.1 r'.2 (heq ▸ hr) hr'
    | .connDestroy hndl => inferInstanceAs (Decidable (∀ m ∈ sys.made,
        sys.state.handleAt (sys.place pid hndl) = some (.connection m.conn) →
          (sys.state.servers m.server).ntfnBuffer.length < ntfnBufferCapacity))
    | .windowCreate _ | .windowDestroy _ | .windowRegister _ | .windowDeregister _
    | .irqRegister _ | .connCreate _ | .connPublish _ | .objCreate _ _ | .objStat _
    | .objDestroy _ | .view _ | .unview _ | .replyCreate | .serverHandleCapCreate _
    | .serverCreateChannel _ | .channelOpen _ | .pageMap _ | .loadComplete | .processSpawn _ _
    | .processWait _ | .processExit _ => .isTrue trivial

end System

/-- No server yet, and no handles. -/
structure Fresh (sys : System) : Prop where
  noServers : sys.state.servers.next = 0
  unpublished : sys.state.published = []
  noHandles : ∀ loc, sys.state.handleAt loc = none
  pids : sys.state.PidsMatch
  ghosts : sys.made = [] ∧ sys.opened = [] ∧ sys.closed = [] ∧ sys.registrations = []

/-- The orderly runs. -/
abbrev OrderlyRun (setup : Setup) : List Op → System → Prop :=
  Run Fresh (fun sys => sys.step setup) fun sys => sys.Orderly

/-! ## The invariant -/

/-- What the lists, the connections and the handles have to do with the history. -/
structure Tracked (sys : System) : Prop where
  pids : sys.state.PidsMatch
  lists : ∀ srv < sys.state.servers.next, (sys.state.servers srv).connections =
    (sys.made.filter fun m => decide (m.server = srv)).map Made.conn
  cells : ∀ m ∈ sys.made, m.conn < sys.state.connections.next ∧
    m.server < sys.state.servers.next ∧ (sys.state.connections m.conn).id = m.client ∧
      (sys.state.connections m.conn).server = m.server
  distinct : ∀ m ∈ sys.made, ∀ m' ∈ sys.made, m.conn = m'.conn → m = m'
  opened : ∀ conn ∈ sys.opened, ∃ m ∈ sys.made, m.conn = conn
  closed : ∀ conn ∈ sys.closed, conn < sys.state.connections.next
  held : ∀ loc conn, sys.state.handleAt loc = some (.connection conn) → sys.Live conn
  unique : ∀ loc loc' conn, sys.state.handleAt loc = some (.connection conn) →
    sys.state.handleAt loc' = some (.connection conn) → loc' = loc
  handled : ∀ loc conn, sys.state.handleAt loc = some (.connRegistration conn) →
    (loc, conn) ∈ sys.registrations
  registered : ∀ loc conn, (loc, conn) ∈ sys.registrations →
    conn ∈ sys.opened ∧ (sys.state.connections conn).registered = true
  servers : ∀ loc srv, sys.state.handleAt loc = some (.server srv) →
    srv < sys.state.servers.next
  published : ∀ name srv, (name, srv) ∈ sys.state.published → srv < sys.state.servers.next

theorem Fresh.tracked {sys : System} (h : Fresh sys) : Tracked sys := by
  obtain ⟨hmade, hopened, hclosed, hregs⟩ := h.ghosts
  have hno : ∀ loc x, sys.state.handleAt loc ≠ some x := by simp [h.noHandles]
  exact {
    pids := h.pids
    lists := fun srv hlt => by rw [h.noServers] at hlt; omega
    cells := by simp [hmade]
    distinct := by simp [hmade]
    opened := by simp [hopened]
    closed := by simp [hclosed]
    held := fun loc conn hl => absurd hl (hno loc _)
    unique := fun loc loc' conn hl => absurd hl (hno loc _)
    handled := fun loc conn hl => absurd hl (hno loc _)
    registered := by simp [hregs]
    servers := fun loc srv hl => absurd hl (hno loc _)
    published := by simp [h.unpublished] }

namespace Tracked

variable {sys : System} {s' : State} {p : Nat}

theorem lt_of_live (h : Tracked sys) {conn : ConnectionRef} (hlive : sys.Live conn) :
    conn < sys.state.connections.next := by
  obtain ⟨m, hm, rfl⟩ := h.opened conn hlive.1
  exact (h.cells m hm).1

/-- A turn that has nothing to do with connections. -/
theorem apart (h : Tracked sys) (ha : ConnApart sys.state s') : Tracked { sys with state := s' } where
  pids := ha.pids h.pids
  lists srv hlt := by
    by_cases hold : srv < sys.state.servers.next
    · exact (ha.lists srv hold).trans (h.lists srv hold)
    · have hge := Nat.le_of_not_lt hold
      refine (ha.fresh srv hge hlt).1.trans ?_
      rw [List.filter_eq_nil_iff.mpr]
      · rfl
      · intro m hm hsrv
        have heq : m.server = srv := of_decide_eq_true hsrv
        exact Nat.not_lt.mpr hge (heq ▸ (h.cells m hm).2.1)
  cells m hm := by
    obtain ⟨hlt, hsrv, hid, hserver⟩ := h.cells m hm
    show m.conn < s'.connections.next ∧ m.server < s'.servers.next ∧
      (s'.connections m.conn).id = m.client ∧ (s'.connections m.conn).server = m.server
    rw [ha.connections]
    exact ⟨hlt, Nat.lt_of_lt_of_le hsrv ha.next, hid, hserver⟩
  distinct := h.distinct
  opened := h.opened
  closed conn hc := by
    show conn < s'.connections.next
    rw [ha.connections]
    exact h.closed conn hc
  held loc conn hl := by
    obtain hold | hnew := ha.handles loc _ hl
    · exact h.held loc conn hold
    · cases hnew.1
  unique loc loc' conn hl hl' := by
    obtain hold | hnew := ha.handles loc _ hl
    · obtain hold' | hnew' := ha.handles loc' _ hl'
      · exact h.unique loc loc' conn hold hold'
      · cases hnew'.1
    · cases hnew.1
  handled loc conn hl := by
    obtain hold | hnew := ha.handles loc _ hl
    · exact h.handled loc conn hold
    · cases hnew.1
  registered loc conn hr := by
    show conn ∈ sys.opened ∧ (s'.connections conn).registered = true
    rw [ha.connections]
    exact h.registered loc conn hr
  servers loc srv hl := by
    obtain hold | hnew := ha.handles loc _ hl
    · exact Nat.lt_of_lt_of_le (h.servers loc srv hold) ha.next
    · exact (hnew.2 srv rfl).2
  published name srv hmem := by
    obtain hold | hnew := ha.published name srv hmem
    · exact Nat.lt_of_lt_of_le (h.published name srv hold) ha.next
    · exact hnew.2

/-- A connection changes, but neither whose it is nor that a registration holds it. -/
theorem updConnection (h : Tracked sys) (conn : ConnectionRef) {f : Connection → Connection}
    (hid : ∀ x, (f x).id = x.id) (hserver : ∀ x, (f x).server = x.server)
    (hreg : ∀ loc, (loc, conn) ∈ sys.registrations →
      (f (sys.state.connections conn)).registered = true) :
    Tracked { sys with state := { sys.state with
      connections := sys.state.connections.update conn f } } := by
  refine { h with cells := fun m hm => ?_, registered := fun loc c hr => ?_ }
  · obtain ⟨hlt, hsrv, hmid, hmserver⟩ := h.cells m hm
    refine ⟨hlt, hsrv, ?_, ?_⟩
    · exact (sys.state.connections.update_preserves Connection.id (hid _) m.conn).trans hmid
    · exact (sys.state.connections.update_preserves Connection.server (hserver _) m.conn).trans
        hmserver
  · refine ⟨(h.registered loc c hr).1, ?_⟩
    show ((sys.state.connections.update conn f) c).registered = true
    rw [Heap.update_apply]
    split
    · next heq => exact hreg loc (heq ▸ hr)
    · exact (h.registered loc c hr).2

/-- A handle is taken out, or one that has nothing to do with connections is put in. -/
theorem setHandleAt (h : Tracked sys) (loc : HandleLoc) {x : Option RootServerResource}
    (hconn : ∀ y, x = some y → y.ofConnection = false)
    (hserver : ∀ srv, x ≠ some (.server srv)) :
    Tracked { sys with state := sys.state.setHandleAt loc x } := by
  have hstart : ConnApart sys.state sys.state := .refl _
  refine h.apart (hstart.setHandleAt loc fun y hy => ⟨hconn y hy, fun srv heq => ?_⟩)
  exact absurd (hy.trans (congrArg some heq)) (hserver srv)

/-- A connection more in the list of its server. -/
theorem connect (h : Tracked sys) {name : String} {u : UserProcess} {srv : ServerRef} {pid : Pid}
    {s₁ : State} (hs : Connected p name u srv sys.state s₁) (hpid : u.pid = pid) :
    Tracked { sys with
      state := s₁
      made := sys.made ++ [⟨sys.state.connections.next, srv, pid⟩] } := by
  obtain ⟨r, slot, rfl⟩ := hs.eq
  have hsrv : srv < sys.state.servers.next := by
    obtain ⟨e, he, hsnd⟩ := Option.map_eq_some_iff.mp hs.found
    exact hsnd ▸ h.published e.1 e.2 (List.mem_of_find?_eq_some he)
  refine { h with
    lists := fun srv' hlt => ?_
    cells := fun m hm => ?_
    distinct := fun m hm m' hm' heq => ?_
    opened := fun conn hc => ?_
    closed := fun conn hc => Nat.lt_succ_of_lt (h.closed conn hc)
    registered := fun loc conn hr => ⟨(h.registered loc conn hr).1, ?_⟩ }
  · rw [connect_list, List.filter_append, List.map_append]
    refine congrArg₂ _ (h.lists srv' hlt) ?_
    by_cases heq : srv' = srv
    · simp [heq]
    · have hne : ¬ srv = srv' := fun h => heq h.symm
      simp [heq, hne]
  · obtain hold | hnew := List.mem_append.mp hm
    · obtain ⟨hlt, hmsrv, hid, hserver⟩ := h.cells m hold
      refine ⟨Nat.lt_succ_of_lt hlt, hmsrv, ?_⟩
      show ((sys.state.connections.alloc _) m.conn).id = _ ∧
        ((sys.state.connections.alloc _) m.conn).server = _
      rw [Heap.alloc_of_lt _ hlt]
      exact ⟨hid, hserver⟩
    · cases List.mem_singleton.mp hnew
      refine ⟨Nat.lt_succ_self _, hsrv, ?_⟩
      show ((sys.state.connections.alloc _) sys.state.connections.next).id = _ ∧
        ((sys.state.connections.alloc _) sys.state.connections.next).server = _
      rw [Heap.alloc_self]
      exact ⟨hpid, rfl⟩
  · obtain hold | hnew := List.mem_append.mp hm
    · obtain hold' | hnew' := List.mem_append.mp hm'
      · exact h.distinct m hold m' hold' heq
      · cases List.mem_singleton.mp hnew'
        exact absurd heq (Nat.ne_of_lt (h.cells m hold).1)
    · cases List.mem_singleton.mp hnew
      obtain hold' | hnew' := List.mem_append.mp hm'
      · exact absurd heq.symm (Nat.ne_of_lt (h.cells m' hold').1)
      · exact (List.mem_singleton.mp hnew').symm
  · obtain ⟨m, hm, heq⟩ := h.opened conn hc
    exact ⟨m, List.mem_append_left _ hm, heq⟩
  · show ((sys.state.connections.alloc _) conn).registered = true
    obtain ⟨m, hm, heq⟩ := h.opened conn (h.registered loc conn hr).1
    rw [Heap.alloc_of_lt _ (heq ▸ (h.cells m hm).1)]
    exact (h.registered loc conn hr).2

/-- The client of a connection that nobody holds is given its handle. -/
theorem give (h : Tracked sys) {m : Made} {loc : HandleLoc} (hm : m ∈ sys.made)
    (hopened : m.conn ∉ sys.opened) (hclosed : m.conn ∉ sys.closed)
    (hvalid : sys.state.ValidLoc loc) :
    Tracked { sys with
      state := sys.state.setHandleAt loc (some (.connection m.conn))
      opened := sys.opened ++ [m.conn] } := by
  have hat : ∀ loc', (sys.state.setHandleAt loc (some (.connection m.conn))).handleAt loc' =
      if loc' = loc then some (.connection m.conn) else sys.state.handleAt loc' := fun loc' =>
    State.handleAt_setHandleAt hvalid _ loc'
  have hnone : ∀ loc', sys.state.handleAt loc' ≠ some (.connection m.conn) := fun loc' hl =>
    hopened (h.held loc' m.conn hl).1
  have hold : ∀ loc' x, (∀ conn, x ≠ .connection conn) →
      (sys.state.setHandleAt loc (some (.connection m.conn))).handleAt loc' = some x →
        sys.state.handleAt loc' = some x := by
    intro loc' x hx hl
    rw [hat] at hl
    split at hl
    · cases hl
      exact absurd rfl (hx _)
    · exact hl
  refine { h with
    pids := ConnApart.pidsMatch_setHandleAt h.pids loc _
    lists := by simpa using h.lists
    cells := by simpa using h.cells
    opened := fun conn hc => ?_
    closed := by simpa using h.closed
    held := fun loc' conn hl => ?_
    unique := fun loc₁ loc₂ conn hl₁ hl₂ => ?_
    handled := fun loc' conn hl => h.handled loc' conn (hold loc' _ (by simp) hl)
    registered := fun loc' conn hr => ?_
    servers := fun loc' srv hl => ?_
    published := by simpa using h.published }
  · obtain hc | hc := List.mem_append.mp hc
    · exact h.opened conn hc
    · exact ⟨m, hm, (List.mem_singleton.mp hc).symm⟩
  · rw [hat] at hl
    split at hl
    · cases hl
      exact ⟨by simp, hclosed⟩
    · exact ⟨List.mem_append_left _ (h.held loc' conn hl).1, (h.held loc' conn hl).2⟩
  · rw [hat] at hl₁ hl₂
    split at hl₁ <;> split at hl₂
    · next h₁ h₂ => rw [h₁, h₂]
    · cases hl₁
      exact absurd hl₂ (hnone loc₂)
    · cases hl₂
      exact absurd hl₁ (hnone loc₁)
    · exact h.unique loc₁ loc₂ conn hl₁ hl₂
  · obtain ⟨hc, hreg⟩ := h.registered loc' conn hr
    exact ⟨List.mem_append_left _ hc, by simpa using hreg⟩
  · simpa using h.servers loc' srv (hold loc' _ (by simp) hl)

/-- The registration of a connection that is marked gets its handle. -/
theorem register (h : Tracked sys) {m : Made} {loc : HandleLoc} (hopened : m.conn ∈ sys.opened)
    (hmarked : (sys.state.connections m.conn).registered = true)
    (hvalid : sys.state.ValidLoc loc) :
    Tracked { sys with
      state := sys.state.setHandleAt loc (some (.connRegistration m.conn))
      registrations := sys.registrations ++ [(loc, m.conn)] } := by
  have hat : ∀ loc', (sys.state.setHandleAt loc (some (.connRegistration m.conn))).handleAt loc' =
      if loc' = loc then some (.connRegistration m.conn) else sys.state.handleAt loc' := fun loc' =>
    State.handleAt_setHandleAt hvalid _ loc'
  have hold : ∀ loc' x, (∀ conn, x ≠ .connRegistration conn) →
      (sys.state.setHandleAt loc (some (.connRegistration m.conn))).handleAt loc' = some x →
        sys.state.handleAt loc' = some x := by
    intro loc' x hx hl
    rw [hat] at hl
    split at hl
    · cases hl
      exact absurd rfl (hx _)
    · exact hl
  refine { h with
    pids := ConnApart.pidsMatch_setHandleAt h.pids loc _
    lists := by simpa using h.lists
    cells := by simpa using h.cells
    closed := by simpa using h.closed
    held := fun loc' conn hl => h.held loc' conn (hold loc' _ (by simp) hl)
    unique := fun loc₁ loc₂ conn hl₁ hl₂ => ?_
    handled := fun loc' conn hl => ?_
    registered := fun loc' conn hr => ?_
    servers := fun loc' srv hl => ?_
    published := by simpa using h.published }
  · exact h.unique loc₁ loc₂ conn (hold loc₁ _ (by simp) hl₁) (hold loc₂ _ (by simp) hl₂)
  · rw [hat] at hl
    split at hl
    · next heq =>
      cases hl
      simp [heq]
    · exact List.mem_append_left _ (h.handled loc' conn hl)
  · obtain hr | hr := List.mem_append.mp hr
    · simpa using h.registered loc' conn hr
    · cases List.mem_singleton.mp hr
      exact ⟨hopened, by simpa using hmarked⟩
  · simpa using h.servers loc' srv (hold loc' _ (by simp) hl)

/-- A registration is given up, with its handle. -/
theorem unregister (h : Tracked sys) {loc : HandleLoc} (conn : ConnectionRef)
    (hvalid : sys.state.ValidLoc loc) : Tracked { sys with
      state := sys.state.setHandleAt loc none
      registrations := sys.registrations.filter fun r => r ≠ (loc, conn) } := by
  have hempty := h.setHandleAt loc (x := none) (by simp) (by simp)
  refine { hempty with
    handled := fun loc' c hl' => ?_
    registered := fun loc' c hr => hempty.registered loc' c (List.mem_of_mem_filter hr) }
  have hat := State.handleAt_setHandleAt hvalid none loc'
  have hne : loc' ≠ loc := by
    intro heq
    rw [if_pos heq] at hat
    exact absurd (hat.symm.trans hl') (by simp)
  refine List.mem_filter.mpr ⟨hempty.handled loc' c hl', ?_⟩
  simp [hne]

/-- A connection is destroyed, with its handle; its server may be told. -/
theorem disconnect (h : Tracked sys) {hndl : Nat} {conn : ConnectionRef}
    (hd : Disconnected p hndl conn sys.state s') :
    Tracked { sys with state := s', closed := sys.closed ++ [conn] } := by
  obtain ⟨hconns, hnext, hpub, hprocs⟩ := hd.rest
  have hpids : s'.PidsMatch := by
    have hset := ConnApart.pidsMatch_setHandleAt h.pids (.table p hndl) none
    unfold State.PidsMatch at hset ⊢
    rw [hd.cells.1, hprocs]
    exact hset
  have hold : ∀ loc x, s'.handleAt loc = some x →
      loc ≠ .table p hndl ∧ sys.state.handleAt loc = some x := by
    intro loc x hl
    rw [hd.handleAt] at hl
    split at hl
    · cases hl
    · next hne => exact ⟨hne, hl⟩
  refine { h with
    pids := hpids
    lists := fun srv hlt => ?_
    cells := by simpa [hconns, hnext] using h.cells
    closed := fun c hc => ?_
    held := fun loc c hl => ?_
    unique := fun loc₁ loc₂ c hl₁ hl₂ => h.unique loc₁ loc₂ c (hold loc₁ _ hl₁).2 (hold loc₂ _ hl₂).2
    handled := fun loc c hl => h.handled loc c (hold loc _ hl).2
    registered := by simpa [hconns] using h.registered
    servers := fun loc srv hl => ?_
    published := by simpa [hpub, hnext] using h.published }
  · exact (hd.list srv).trans (h.lists srv (hnext ▸ hlt))
  · show c < s'.connections.next
    rw [hconns]
    obtain hc | hc := List.mem_append.mp hc
    · exact h.closed c hc
    · exact List.mem_singleton.mp hc ▸ h.lt_of_live (h.held _ conn hd.held)
  · obtain ⟨hne, hkept⟩ := hold loc _ hl
    obtain ⟨hopened, hclosed⟩ := h.held loc c hkept
    refine ⟨hopened, fun hc => ?_⟩
    obtain hc | hc := List.mem_append.mp hc
    · exact hclosed hc
    · rw [List.mem_singleton.mp hc] at hkept
      exact hne (h.unique _ _ conn hd.held hkept)
  · show srv < s'.servers.next
    rw [hnext]
    exact h.servers loc srv (hold loc _ hl).2

/-- The first connection of a client in its server's list is the first one ever made. -/
theorem firstOf_eq (h : Tracked sys) {srv : ServerRef} (hlt : srv < sys.state.servers.next)
    (client : Pid) : sys.state.firstOf client (sys.state.servers srv).connections =
      (sys.made.find? (System.ofClient srv client)).map Made.conn := by
  rw [h.lists srv hlt, State.firstOf, List.find?_map, List.find?_filter]
  refine congrArg _ (List.find?_congr fun m hm => ?_)
  simp [System.ofClient, (h.cells m hm).2.2.1]

end Tracked

/-! ## One step -/

section Steps

variable {setup : Setup} {sys sys' : System} {pid : Pid} {inv : Invocation}

/-- What a turn of the process in cell `p` does, when its handler always answers. -/
theorem handled_wp (setup : Setup) (inv : Invocation) {m : Handler SMOSReply} {s : State}
    {p : Nat} {u : UserProcess}
    (hact : Acting s pid p u) (hm : handleSyscall setup p inv = some <$> m)
    {Q : SMOSReply → State → Prop} {E : InvocationError → State → Prop} {P : Panic → Prop}
    (h : m.wp Q E P s) (hreply : ∀ s', Q .processWait s' → P .replyNotHandled) :
    (syscallTurn setup pid inv).wp (fun r s' => ∃ a, r = some a ∧ Q a s') E P s := by
  have hmap : (some <$> m).wp (fun r s' => ∃ a, r = some a ∧ Q a s') E P s := by
    show (m >>= fun a => pure (some a)).wp _ E P s
    rw [Prog.wp_bind]
    exact Prog.wp_mono h (fun a s' ha => ⟨a, rfl, ha⟩) (fun _ _ h => h) fun _ h => h
  have hcell : (procCell pid : Handler Nat).wp (fun q s' => q = p ∧ s' = s) (fun _ _ => False)
      (fun _ => False) s := by
    simp [procCell, hact.lt, hact.cell, hact.proc]
  simp only [syscallTurn, Prog.wp_bind]
  refine Prog.wp_mono hcell ?_ (fun _ _ => False.elim) fun _ => False.elim
  intro q s₁ hpost
  rcases hpost with ⟨hq, heq⟩
  subst hq
  subst heq
  simp only [Prog.wp_gets, hm]
  refine Prog.wp_mono hmap ?_ (fun _ _ h => h) fun _ h => h
  intro r s' hpost
  rcases hpost with ⟨a, hr, ha⟩
  subst hr
  simp only [Prog.wp_bind, Prog.wp_pure]
  cases a with
  | processWait => exact hreply s' ha
  | _ => exact ⟨_, rfl, ha⟩

/-- What a turn does, whoever takes it, when its handler always answers. -/
theorem connTurn_wp (setup : Setup) (pid : Pid) (inv : Invocation)
    {m : Nat → Handler SMOSReply} {s : State}
    (hm : ∀ p, handleSyscall setup p inv = some <$> m p) {Q : Nat → SMOSReply → State → Prop}
    {E : Nat → InvocationError → State → Prop}
    (h : ∀ p, (m p).wp (Q p) (E p) (fun _ => True) s) :
    (syscallTurn setup pid inv).wp
      (fun r s' => ∃ p u a, Acting s pid p u ∧ r = some a ∧ Q p a s')
      (fun e s' => ∃ p u, Acting s pid p u ∧ E p e s') (fun _ => True) s := by
  by_cases hact : ∃ p u, Acting s pid p u
  · obtain ⟨p, u, hact⟩ := hact
    have hturn := handled_wp setup inv hact (hm p) (h p) fun _ _ => trivial
    refine Prog.wp_mono hturn ?_ ?_ fun _ _ => trivial
    · intro r s' ⟨a, hr, ha⟩
      exact ⟨p, u, a, hact, hr, ha⟩
    · intro e s' he
      exact ⟨p, u, hact, he⟩
  · unfold syscallTurn
    rw [Prog.wp_bind]
    refine Prog.wp_mono (procCell_spec s pid) ?_ (fun _ _ => False.elim) fun _ _ => trivial
    intro p s₁ ⟨_, u, hu⟩
    exact absurd ⟨p, u, hu⟩ hact

/-- A step that is a turn leaves what the turn leaves. -/
theorem step_turn {Q : Option SMOSReply → State → Prop} {E : InvocationError → State → Prop}
    {P : Panic → Prop} (hwp : (syscallTurn setup pid inv).wp Q E P sys.state)
    (hstep : sys.step setup (.turn pid inv) = some sys') :
    (∃ r s', Q r s' ∧ sys' = sys.after pid inv s' r) ∨
      ∃ e s', E e s' ∧ sys' = sys.after pid inv s' none := by
  simp only [System.step] at hstep
  split at hstep
  · next r s' hok =>
    have hq := Prog.wp_ok hwp hok
    exact .inl ⟨r, s', hq, (Option.some.inj hstep).symm⟩
  · next e s' herr =>
    have he := Prog.wp_err hwp herr
    exact .inr ⟨e, s', he, (Option.some.inj hstep).symm⟩
  · cases hstep

theorem place_eq {p : Nat} {u : UserProcess} (hact : Acting sys.state pid p u) (hndl : Nat) :
    sys.place pid hndl = .table p hndl := by
  simp [System.place, hact.cell]

/-- Making a connection. -/
theorem create_tracked (h : Tracked sys) {name : String}
    (hstep : sys.step setup (.turn pid (.connCreate name)) = some sys') : Tracked sys' := by
  have hturn := connTurn_wp setup pid (.connCreate name) (fun _ => rfl)
    fun p => handleConnCreate_spec sys.state p name
  -- a connection in the list, whether or not its client has a handle
  have hmade : ∀ {p : Nat} {u u' : UserProcess} {srv : ServerRef} {s₁ : State},
      Acting sys.state pid p u → Connected p name u' srv sys.state s₁ →
        u'.pid = pid ∧ s₁.connections.next ≠ sys.state.connections.next := by
    intro p u u' srv s₁ hact hc
    obtain ⟨r, slot, rfl⟩ := hc.eq
    exact ⟨(h.pids pid p hact.cell).2 u' hc.proc, Nat.succ_ne_self _⟩
  obtain ⟨r, s', hok, rfl⟩ | ⟨e, s', herr, rfl⟩ := step_turn hturn hstep
  · obtain ⟨p, u, a, hact, rfl, u', srv, s₁, idx, hc, hvalid, rfl⟩ := hok
    obtain ⟨hpid, hne⟩ := hmade hact hc
    have hconn := (h.connect hc hpid).give (m := ⟨sys.state.connections.next, srv, pid⟩)
      (by simp) ?_ ?_ hvalid
    · simpa [System.after, hc.found, hne] using hconn
    · intro hopened
      obtain ⟨m, hm, heq⟩ := h.opened _ hopened
      exact absurd heq (Nat.ne_of_lt (h.cells m hm).1)
    · intro hclosed
      exact absurd (h.closed _ hclosed) (Nat.lt_irrefl _)
  · obtain ⟨p, u, hact, ⟨r, rfl⟩ | ⟨u', srv, hc⟩⟩ := herr
    · have hsame : ConnApart sys.state { sys.state with res := r } :=
        (ConnApart.refl sys.state).same rfl rfl rfl rfl rfl rfl
      have hkept := h.apart hsame
      cases hfound : findServerWithName sys.state name with
      | none => simpa [System.after, hfound] using hkept
      | some srv => simpa [System.after, hfound] using hkept
    · obtain ⟨hpid, hne⟩ := hmade hact hc
      simpa [System.after, hc.found, hne] using h.connect hc hpid

/-- Registering a connection finds the client's live one. -/
theorem current_of_marked (h : Tracked sys) {p : Nat} {u : UserProcess} {args : ConnRegisterArgs}
    {srv : ServerRef} {conn : ConnectionRef} {s₁ : State} (hact : Acting sys.state pid p u)
    (hmarked : Marked p args srv conn sys.state s₁)
    (hop : sys.Orderly (.turn pid (.connRegister args))) :
    ∃ m ∈ sys.made, m.conn = conn ∧ sys.Live conn ∧ sys.current srv args.clientId = [m] := by
  have hfirst := hmarked.first
  rw [h.firstOf_eq (h.servers _ srv hmarked.server)] at hfirst
  obtain ⟨m, hfind, rfl⟩ := Option.map_eq_some_iff.mp hfirst
  have hcurrent := hop srv m (by rw [place_eq hact]; exact hmarked.server) hfind
  have hmem : m ∈ sys.current srv args.clientId := by simp [hcurrent]
  have hlive := (Bool.and_eq_true_iff.mp (List.mem_filter.mp hmem).2).2
  exact ⟨m, List.mem_of_find?_eq_some hfind, rfl, of_decide_eq_true hlive, hcurrent⟩

theorem Tracked.mark (h : Tracked sys) {p : Nat} {args : ConnRegisterArgs} {srv : ServerRef}
    {conn : ConnectionRef} {s₁ : State} (hmarked : Marked p args srv conn sys.state s₁) :
    Tracked { sys with state := s₁ } := by
  rw [hmarked.eq]
  exact h.updConnection conn (fun _ => rfl) (fun _ => rfl) fun _ _ => rfl

theorem register_tracked (h : Tracked sys) {args : ConnRegisterArgs}
    (hop : sys.Orderly (.turn pid (.connRegister args)))
    (hstep : sys.step setup (.turn pid (.connRegister args)) = some sys') : Tracked sys' := by
  have hturn := connTurn_wp setup pid (.connRegister args) (fun _ => rfl)
    fun p => handleConnRegister_spec sys.state p args
  obtain ⟨r, s', hok, rfl⟩ | ⟨e, s', herr, rfl⟩ := step_turn hturn hstep
  · obtain ⟨p, u, a, hact, rfl, srv, conn, s₁, idx, hmarked, hvalid, rfl, rfl⟩ := hok
    obtain ⟨m, hm, rfl, hlive, hcurrent⟩ := current_of_marked h hact hmarked hop
    have hreg : (s₁.connections m.conn).registered = true := by
      rw [hmarked.eq]
      simp
    have hdone := (h.mark hmarked).register (m := m) hlive.1 hreg hvalid
    simpa [System.after, place_eq hact, hmarked.server, hcurrent] using hdone
  · obtain ⟨p, u, hact, rfl | ⟨srv, conn, hmarked⟩⟩ := herr
    · simpa [System.after] using h
    · simpa [System.after] using h.mark hmarked

theorem deregister_tracked (h : Tracked sys) {hndl : Nat}
    (hop : sys.Orderly (.turn pid (.connDeregister hndl)))
    (hstep : sys.step setup (.turn pid (.connDeregister hndl)) = some sys') : Tracked sys' := by
  have hturn := connTurn_wp setup pid (.connDeregister hndl) (fun _ => rfl)
    fun p => handleConnDeregister_spec sys.state p hndl
  obtain ⟨r, s', hok, rfl⟩ | ⟨e, s', herr, rfl⟩ := step_turn hturn hstep
  · obtain ⟨p, u, a, hact, rfl, conn, hvalid, hheld, rfl⟩ := hok
    have hgone : ∀ loc, (loc, conn) ∉
        sys.registrations.filter fun r => r ≠ (HandleLoc.table p hndl, conn) := by
      intro loc hmem
      obtain ⟨hmem, hne⟩ := List.mem_filter.mp hmem
      have hloc := hop loc conn (by rw [place_eq hact]; exact h.handled _ conn hheld) hmem
      rw [place_eq hact] at hloc
      simp [hloc] at hne
    have hdone := (h.unregister conn hvalid).updConnection conn
      (f := fun connection => { connection with registered := false }) (fun _ => rfl) (fun _ => rfl)
      fun loc hmem => absurd hmem (hgone loc)
    simp only [System.after, place_eq hact, hheld]
    exact hdone
  · obtain ⟨p, u, hact, rfl⟩ := herr
    simpa [System.after] using h

theorem destroy_tracked (h : Tracked sys) {hndl : Nat}
    (hstep : sys.step setup (.turn pid (.connDestroy hndl)) = some sys') : Tracked sys' := by
  have hturn := connTurn_wp setup pid (.connDestroy hndl) (fun _ => rfl)
    fun p => handleConnDestroy_spec sys.state p hndl
  obtain ⟨r, s', hok, rfl⟩ | ⟨e, s', herr, rfl⟩ := step_turn hturn hstep
  · obtain ⟨p, u, a, hact, rfl, conn, hd⟩ := hok
    simpa [System.after, place_eq hact, hd.held] using h.disconnect hd
  · obtain ⟨p, u, hact, rfl⟩ := herr
    simpa [System.after] using h

/-- Every orderly step keeps track. -/
theorem Tracked.step (h : Tracked sys) {op : Op} (hop : sys.Orderly op)
    (hstep : sys.step setup op = some sys') : Tracked sys' := by
  cases op with
  | turn pid inv =>
    cases hinv : inv.ofConnection with
    | false =>
      have hkeep := syscallTurn_apart setup pid hinv sys.state (.refl sys.state)
      have hafter : ∀ s' answer, sys.after pid inv s' answer = { sys with state := s' } := by
        intro s' answer
        cases inv <;> first | rfl | cases hinv
      obtain ⟨r, s', hok, rfl⟩ | ⟨e, s', herr, rfl⟩ := step_turn hkeep hstep
      · rw [hafter]
        exact h.apart hok.2
      · rw [hafter]
        exact h.apart herr
    | true =>
      cases inv with
      | connCreate name => exact create_tracked h hstep
      | connRegister args => exact register_tracked h hop hstep
      | connDeregister hndl => exact deregister_tracked h hop hstep
      | connDestroy hndl => exact destroy_tracked h hstep
      | _ => cases hinv
  | fault pid addr =>
    have hfault : Keeping (ConnApart sys.state) (faultTurn pid addr : SProg Unit Unit) :=
      faultTurn_keeping pid addr
    have hkeep := hfault sys.state (.refl sys.state)
    simp only [System.step] at hstep
    split at hstep
    · next hok =>
      cases hstep
      have hq := Prog.wp_ok hkeep hok
      exact h.apart hq.2
    · next herr =>
      cases hstep
      have he := Prog.wp_err hkeep herr
      exact h.apart he
    · cases hstep
  | take srv =>
    cases hstep
    refine { h with lists := fun srv' hlt => ?_ }
    have hsame := sys.state.servers.update_preserves Server.connections (r := srv)
      (f := fun server => { server with ntfnBuffer := server.ntfnBuffer.tail }) rfl srv'
    exact hsame.trans (h.lists srv' hlt)

end Steps

/-! ## Who is told, and when -/

/-- How many waiting messages tell a server that the connection of a client is gone. -/
def System.gone (sys : System) (srv : ServerRef) (client : Pid) : Nat :=
  (sys.state.servers srv).ntfnBuffer.count (.connDestroy client)

/-- Registrations are for live connections; the end of a registered one is told once, to its
server and with its client's id; and nothing else is told. -/
structure Faithful (setup : Setup) (sys : System) : Prop where
  registersLive : ∀ pid args idx s', sys.Orderly (.turn pid (.connRegister args)) →
    syscallTurn setup pid (.connRegister args) sys.state = .ok (some (.connRegister idx)) s' →
      ∃ srv, ∃ m ∈ sys.made,
        sys.state.handleAt (sys.place pid args.publishHndl) = some (.server srv) ∧
          sys.current srv args.clientId = [m] ∧ sys.Live m.conn ∧
            s'.handleAt (sys.place pid idx) = some (.connRegistration m.conn)
  toldOnce : ∀ m ∈ sys.made, ∀ loc pid p u hndl, sys.Live m.conn →
    (loc, m.conn) ∈ sys.registrations → Acting sys.state pid p u →
      sys.state.handleAt (sys.place pid hndl) = some (.connection m.conn) →
        sys.Orderly (.turn pid (.connDestroy hndl)) →
          ∃ s', syscallTurn setup pid (.connDestroy hndl) sys.state =
              .ok (some .connDestroy) s' ∧
            ∀ srv, (s'.servers srv).ntfnBuffer = (sys.state.servers srv).ntfnBuffer ++
              if srv = m.server then [.connDestroy m.client] else []
  onlyLive : ∀ op sys', sys.step setup op = some sys' →
    ∀ srv < sys'.state.servers.next, ∀ client, sys.gone srv client < sys'.gone srv client →
      ∃ pid hndl, ∃ m ∈ sys.made, op = .turn pid (.connDestroy hndl) ∧ sys.Live m.conn ∧
        m.server = srv ∧ m.client = client ∧ sys'.gone srv client = sys.gone srv client + 1

section Told

variable {setup : Setup} {sys sys' : System} {pid : Pid}

theorem registers_live (h : Tracked sys) {args : ConnRegisterArgs} {idx : Nat} {s' : State}
    (hop : sys.Orderly (.turn pid (.connRegister args)))
    (hok : syscallTurn setup pid (.connRegister args) sys.state =
      .ok (some (.connRegister idx)) s') :
    ∃ srv, ∃ m ∈ sys.made,
      sys.state.handleAt (sys.place pid args.publishHndl) = some (.server srv) ∧
        sys.current srv args.clientId = [m] ∧ sys.Live m.conn ∧
          s'.handleAt (sys.place pid idx) = some (.connRegistration m.conn) := by
  have hturn := connTurn_wp setup pid (.connRegister args) (fun _ => rfl)
    fun p => handleConnRegister_spec sys.state p args
  have hspec := Prog.wp_ok hturn hok
  obtain ⟨p, u, a, hact, ha, srv, conn, s₁, i, hmarked, hvalid, rfl, rfl⟩ := hspec
  cases ha
  obtain ⟨m, hm, rfl, hlive, hcurrent⟩ := current_of_marked h hact hmarked hop
  refine ⟨srv, m, hm, ?_, hcurrent, hlive, ?_⟩
  · rw [place_eq hact]
    exact hmarked.server
  · rw [place_eq hact, State.handleAt_setHandleAt hvalid, if_pos rfl]

theorem told_once (h : Tracked sys) {m : Made} (hm : m ∈ sys.made) {loc : HandleLoc} {p : Nat}
    {u : UserProcess} {hndl : Nat} (hreg : (loc, m.conn) ∈ sys.registrations)
    (hact : Acting sys.state pid p u)
    (hheld : sys.state.handleAt (sys.place pid hndl) = some (.connection m.conn))
    (hop : sys.Orderly (.turn pid (.connDestroy hndl))) :
    ∃ s', syscallTurn setup pid (.connDestroy hndl) sys.state = .ok (some .connDestroy) s' ∧
      ∀ srv, (s'.servers srv).ntfnBuffer = (sys.state.servers srv).ntfnBuffer ++
        if srv = m.server then [.connDestroy m.client] else [] := by
  obtain ⟨-, -, hid, hserver⟩ := h.cells m hm
  have hroom : sys.state.RoomFor m.conn := by
    unfold State.RoomFor
    rw [hserver]
    exact hop m hm hheld
  rw [place_eq hact] at hheld
  have hturn := handled_wp setup (.connDestroy hndl) hact rfl
    (handleConnDestroy_held hheld) fun s' h => by cases h.1
  have hnopanic := Prog.wp_mono (P := fun _ => False) hturn (fun _ _ h => h) (fun _ _ h => h)
    fun _ hfull => hfull hroom
  obtain ⟨r, s', hok, a, rfl, rfl, hd⟩ := Prog.exists_ok hnopanic
  refine ⟨s', hok, fun srv => ?_⟩
  rw [hd.ring, (h.registered loc m.conn hreg).2, hid, hserver]
  simp

/-- Messages that say nothing about connections do not count. -/
theorem count_append {ring msgs : List NotificationType} (h : NoneGone msgs) (client : Pid) :
    (ring ++ msgs).count (.connDestroy client) = ring.count (.connDestroy client) := by
  rw [List.count_append, List.count_eq_zero.mpr (h client), Nat.add_zero]

theorem gone_apart {s' : State} (ha : ConnApart sys.state s') {srv : ServerRef}
    (hlt : srv < s'.servers.next) (client : Pid) :
    (s'.servers srv).ntfnBuffer.count (.connDestroy client) ≤ sys.gone srv client := by
  by_cases hold : srv < sys.state.servers.next
  · obtain ⟨msgs, hmsgs, hnone⟩ := ha.rings srv hold
    rw [hmsgs, count_append hnone]
    exact Nat.le_refl _
  · rw [List.count_eq_zero.mpr ((ha.fresh srv (Nat.le_of_not_lt hold) hlt).2 client)]
    exact Nat.zero_le _

/-- The system after a turn has the turn's state. -/
theorem after_state (inv : Invocation) (s' : State) (answer : Option SMOSReply) :
    (sys.after pid inv s' answer).state = s' := by
  unfold System.after
  split
  · split
    · rfl
    · dsimp only
      split <;> rfl
  · split <;> rfl
  · split <;> rfl
  · split <;> rfl
  · rfl

/-- The rings are as they were. -/
theorem gone_of_same {s' : State} (h : ∀ srv, (s'.servers srv).ntfnBuffer =
    (sys.state.servers srv).ntfnBuffer) (srv : ServerRef) (client : Pid) :
    (s'.servers srv).ntfnBuffer.count (.connDestroy client) ≤ sys.gone srv client := by
  rw [h]
  exact Nat.le_refl _

theorem gone_create {name : String}
    (hstep : sys.step setup (.turn pid (.connCreate name)) = some sys') (srv : ServerRef)
    (client : Pid) : sys'.gone srv client ≤ sys.gone srv client := by
  have hturn := connTurn_wp setup pid (.connCreate name) (fun _ => rfl)
    fun p => handleConnCreate_spec sys.state p name
  have hmade : ∀ {p : Nat} {u : UserProcess} {srv : ServerRef} {s₁ : State},
      Connected p name u srv sys.state s₁ → ∀ srv', (s₁.servers srv').ntfnBuffer =
        (sys.state.servers srv').ntfnBuffer := by
    intro p u srv s₁ hc srv'
    obtain ⟨r, slot, rfl⟩ := hc.eq
    exact connect_ring _ _ _ _
  obtain ⟨r, s', hok, rfl⟩ | ⟨e, s', herr, rfl⟩ := step_turn hturn hstep
  · obtain ⟨p, u, a, -, rfl, u', srv', s₁, idx, hc, -, rfl⟩ := hok
    rw [System.gone, after_state]
    refine gone_of_same (fun srv'' => ?_) srv client
    rw [State.setHandleAt_servers]
    exact hmade hc srv''
  · rw [System.gone, after_state]
    obtain ⟨p, u, -, ⟨r, rfl⟩ | ⟨u', srv', hc⟩⟩ := herr
    · exact Nat.le_refl _
    · exact gone_of_same (hmade hc) srv client

theorem gone_register {args : ConnRegisterArgs}
    (hstep : sys.step setup (.turn pid (.connRegister args)) = some sys') (srv : ServerRef)
    (client : Pid) : sys'.gone srv client ≤ sys.gone srv client := by
  have hturn := connTurn_wp setup pid (.connRegister args) (fun _ => rfl)
    fun p => handleConnRegister_spec sys.state p args
  obtain ⟨r, s', hok, rfl⟩ | ⟨e, s', herr, rfl⟩ := step_turn hturn hstep
  · obtain ⟨p, u, a, -, rfl, srv', conn, s₁, idx, hmarked, -, -, rfl⟩ := hok
    rw [System.gone, after_state, State.setHandleAt_servers, hmarked.eq]
    exact Nat.le_refl _
  · rw [System.gone, after_state]
    obtain ⟨p, u, -, rfl | ⟨srv', conn, hmarked⟩⟩ := herr
    · exact Nat.le_refl _
    · rw [hmarked.eq]
      exact Nat.le_refl _

theorem gone_deregister {hndl : Nat}
    (hstep : sys.step setup (.turn pid (.connDeregister hndl)) = some sys') (srv : ServerRef)
    (client : Pid) : sys'.gone srv client ≤ sys.gone srv client := by
  have hturn := connTurn_wp setup pid (.connDeregister hndl) (fun _ => rfl)
    fun p => handleConnDeregister_spec sys.state p hndl
  obtain ⟨r, s', hok, rfl⟩ | ⟨e, s', herr, rfl⟩ := step_turn hturn hstep
  · obtain ⟨p, u, a, -, rfl, conn, -, -, rfl⟩ := hok
    rw [System.gone, after_state, State.setHandleAt_servers]
    exact Nat.le_refl _
  · rw [System.gone, after_state]
    obtain ⟨p, u, -, rfl⟩ := herr
    exact Nat.le_refl _

/-- Destroying a connection tells nobody, or the server of a live one. -/
theorem gone_destroy (h : Tracked sys) {hndl : Nat}
    (hstep : sys.step setup (.turn pid (.connDestroy hndl)) = some sys') (srv : ServerRef)
    (client : Pid) (hmore : sys.gone srv client < sys'.gone srv client) :
    ∃ m ∈ sys.made, sys.Live m.conn ∧ m.server = srv ∧ m.client = client ∧
      sys'.gone srv client = sys.gone srv client + 1 := by
  have hturn := connTurn_wp setup pid (.connDestroy hndl) (fun _ => rfl)
    fun p => handleConnDestroy_spec sys.state p hndl
  obtain ⟨r, s', hok, rfl⟩ | ⟨e, s', herr, rfl⟩ := step_turn hturn hstep
  · obtain ⟨p, u, a, -, rfl, conn, hd⟩ := hok
    have hlive := h.held _ conn hd.held
    obtain ⟨m, hm, rfl⟩ := h.opened conn hlive.1
    obtain ⟨-, -, hid, hserver⟩ := h.cells m hm
    rw [System.gone, System.gone, after_state, hd.ring srv, hid, hserver] at hmore
    by_cases hto : (sys.state.connections m.conn).registered = true ∧ srv = m.server
    · rw [if_pos hto, List.count_append, List.count_singleton] at hmore
      by_cases hclient : m.client = client
      · refine ⟨m, hm, hlive, hto.2.symm, hclient, ?_⟩
        rw [System.gone, System.gone, after_state, hd.ring srv, hid, hserver, if_pos hto,
          List.count_append]
        simp [hclient]
      · simp [hclient] at hmore
    · rw [if_neg hto, List.append_nil] at hmore
      exact absurd hmore (Nat.lt_irrefl _)
  · obtain ⟨p, u, -, rfl⟩ := herr
    rw [System.gone, System.gone, after_state] at hmore
    exact absurd hmore (Nat.lt_irrefl _)

/-- Nobody is told but the server of a live connection, when this is destroyed. -/
theorem only_live (h : Tracked sys) {op : Op} (hstep : sys.step setup op = some sys')
    {srv : ServerRef} (hlt : srv < sys'.state.servers.next) {client : Pid}
    (hmore : sys.gone srv client < sys'.gone srv client) :
    ∃ pid hndl, ∃ m ∈ sys.made, op = .turn pid (.connDestroy hndl) ∧ sys.Live m.conn ∧
      m.server = srv ∧ m.client = client ∧ sys'.gone srv client = sys.gone srv client + 1 := by
  have hquiet : ¬ sys'.gone srv client ≤ sys.gone srv client := Nat.not_le.mpr hmore
  cases op with
  | turn pid inv =>
    cases hinv : inv.ofConnection with
    | false =>
      have hkeep := syscallTurn_apart setup pid hinv sys.state (.refl sys.state)
      obtain ⟨r, s', hok, rfl⟩ | ⟨e, s', herr, rfl⟩ := step_turn hkeep hstep
      · rw [after_state] at hlt
        rw [System.gone, after_state] at hquiet
        exact absurd (gone_apart hok.2 hlt client) hquiet
      · rw [after_state] at hlt
        rw [System.gone, after_state] at hquiet
        exact absurd (gone_apart herr hlt client) hquiet
    | true =>
      cases inv with
      | connCreate name => exact absurd (gone_create hstep srv client) hquiet
      | connRegister args => exact absurd (gone_register hstep srv client) hquiet
      | connDeregister hndl => exact absurd (gone_deregister hstep srv client) hquiet
      | connDestroy hndl =>
        obtain ⟨m, hm, hfacts⟩ := gone_destroy h hstep srv client hmore
        exact ⟨pid, hndl, m, hm, rfl, hfacts⟩
      | _ => cases hinv
  | fault pid addr =>
    have hfault : Keeping (ConnApart sys.state) (faultTurn pid addr : SProg Unit Unit) :=
      faultTurn_keeping pid addr
    have hkeep := hfault sys.state (.refl sys.state)
    simp only [System.step] at hstep
    split at hstep
    · next hok =>
      cases hstep
      have hq := Prog.wp_ok hkeep hok
      exact absurd (gone_apart hq.2 hlt client) hquiet
    · next herr =>
      cases hstep
      have he := Prog.wp_err hkeep herr
      exact absurd (gone_apart he hlt client) hquiet
    · cases hstep
  | take srv' =>
    cases hstep
    refine absurd ?_ hquiet
    simp only [System.gone, Heap.update_apply]
    split
    · next heq =>
      rw [heq]
      exact (List.tail_sublist _).count_le _
    · exact Nat.le_refl _

end Told

/-- **Connection lifecycle.** In every orderly run, at every point: a server that registers a
client gets a registration of the client's live connection; destroying a live connection with a
registration tells its server once, with the client's id; and a server is told of nothing but the
end of a live connection. -/
theorem connections_faithful {setup : Setup} {ops : List Op} {sys : System}
    (run : OrderlyRun setup ops sys) : Faithful setup sys := by
  have htracked : Tracked sys :=
    run.invariant (I := Tracked) (fun _ h => h.tracked) fun _ _ _ h hop hstep => h.step hop hstep
  exact {
    registersLive := fun _ _ _ _ hop hok => registers_live htracked hop hok
    toldOnce := fun _ hm _ _ _ _ _ _ hreg hact hheld hop =>
      told_once htracked hm hreg hact hheld hop
    onlyLive := fun _ _ hstep _ hlt _ hmore => only_live htracked hstep hlt hmore }

/-! ## A client that comes back -/

/-- The small system, with nothing in the history. -/
def demoStart : System := ⟨demo, [], [], [], []⟩

theorem demoStart_fresh : Fresh demoStart where
  noServers := rfl
  unpublished := rfl
  noHandles := demo_booted.handleAt
  pids pid p hp := by
    simp only [demoStart, demo] at hp ⊢
    split at hp
    · next hlt =>
      cases hp
      refine ⟨hlt, fun u hu => ?_⟩
      obtain ⟨rfl, rfl⟩ | ⟨rfl, rfl⟩ := demo_processes hu <;> rfl
    · cases hp
  ghosts := ⟨rfl, rfl, rfl, rfl⟩

/-- Is the process with this pid active, in the cell of the same number? -/
def System.acts (sys : System) (pid : Pid) : Bool :=
  match sys.state.procs pid, sys.state.procCells pid with
  | some p, .activeProcess _ => p == pid
  | _, _ => false

theorem System.acting {sys : System} {pid : Pid} (hlt : pid < maxProcs)
    (h : sys.acts pid = true) : ∃ u, Acting sys.state pid pid u := by
  unfold System.acts at h
  split at h
  · next p u hp hu =>
    cases eq_of_beq h
    exact ⟨u, hlt, hp, hu⟩
  · cases h

/-- The messages in a server's ring after a process destroyed one of its connections. -/
def System.ringAfter (sys : System) (pid : Pid) (hndl : Nat) (srv : ServerRef) :
    Option (List NotificationType) :=
  match syscallTurn demoSetup pid (.connDestroy hndl) sys.state with
  | .ok _ s' => some (s'.servers srv).ntfnBuffer
  | _ => none

/-- Process 1 connects to the server of process 0, which registers it. -/
def demoConnect : List Op :=
  [.turn 0 (.connPublish ⟨"s", 0x1000⟩), .turn 1 (.connCreate "s"),
    .turn 0 (.connRegister ⟨0, 1⟩)]

theorem connections_faithful_demo : ∃ sys s', OrderlyRun demoSetup demoConnect sys ∧
    syscallTurn demoSetup 1 (.connDestroy 0) sys.state = .ok (some .connDestroy) s' ∧
      (s'.servers 0).ntfnBuffer = [.connDestroy 1] := by
  have hreach : ∃ sys, OrderlyRun demoSetup demoConnect sys ∧ ⟨0, 0, 1⟩ ∈ sys.made ∧
      (.table 0 1, 0) ∈ sys.registrations ∧ sys.Live 0 ∧ sys.acts 1 = true ∧
        sys.state.handleAt (sys.place 1 0) = some (.connection 0) ∧
          (sys.state.servers 0).ntfnBuffer = [] ∧ sys.Orderly (.turn 1 (.connDestroy 0)) :=
    Run.exists_of_steps demoStart_fresh (by decide +kernel) (by decide +kernel)
  obtain ⟨sys, hrun, hmade, hreg, hlive, hacts, hheld, hring, hop⟩ := hreach
  obtain ⟨u, hact⟩ := System.acting (by decide) hacts
  obtain ⟨s', hok, hrings⟩ := (connections_faithful hrun).toldOnce ⟨0, 0, 1⟩ hmade (.table 0 1) 1 1 u
    0 hlive hreg hact hheld hop
  refine ⟨sys, s', hrun, hok, ?_⟩
  rw [hrings, hring]
  rfl

/-- Process 1 connects, disconnects and connects again before the server registers it. -/
def demoReconnect : List Op :=
  [.turn 0 (.connPublish ⟨"s", 0x1000⟩), .turn 1 (.connCreate "s"), .turn 1 (.connDestroy 0),
    .turn 1 (.connCreate "s"), .turn 0 (.connRegister ⟨0, 1⟩)]

/-- The registration is of the destroyed connection, and the end of the live one is not told. -/
theorem reconnect_lost : ∃ sys,
    Run Fresh (fun sys => sys.step demoSetup) (fun _ _ => True) demoReconnect sys ∧
      sys.state.handleAt (.table 0 1) = some (.connRegistration 0) ∧ 0 ∈ sys.closed ∧
        ¬ Faithful demoSetup sys := by
  have hreach : ∃ sys, Run Fresh (fun sys => sys.step demoSetup) (fun _ _ => True) demoReconnect sys ∧
      ⟨1, 0, 1⟩ ∈ sys.made ∧ (.table 0 1, 1) ∈ sys.registrations ∧ sys.Live 1 ∧
        sys.acts 1 = true ∧ sys.state.handleAt (sys.place 1 0) = some (.connection 1) ∧
          sys.Orderly (.turn 1 (.connDestroy 0)) ∧
            sys.state.handleAt (.table 0 1) = some (.connRegistration 0) ∧ 0 ∈ sys.closed ∧
              sys.ringAfter 1 0 0 = some [] :=
    Run.exists_of_steps demoStart_fresh (Run.guarded_true _ _) (by decide +kernel)
  obtain ⟨sys, hrun, hmade, hreg, hlive, hacts, hheld, hop, hstale, hclosed, hlost⟩ := hreach
  refine ⟨sys, hrun, hstale, hclosed, fun hfaithful => ?_⟩
  obtain ⟨u, hact⟩ := System.acting (by decide) hacts
  obtain ⟨s', hok, hrings⟩ := hfaithful.toldOnce ⟨1, 0, 1⟩ hmade (.table 0 1) 1 1 u 0 hlive hreg
    hact hheld hop
  simp only [System.ringAfter, hok, Option.some.injEq, hrings, if_true] at hlost
  simp at hlost

end Lifecycle

end Smos.RootServer
