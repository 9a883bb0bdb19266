/-
Smos.Drivers.Robust — which events the timer and the Ethernet copier stand.

`Handled` is what the loop should make of an event: an answer to every
invocation, and records only of what the accepted client gave. `expects`
says of which events it does. The loop asks for the client before there is
one, so a notification or a refused connection ends it; it takes what any
client sends for the first one's; and the event loop of the timer knows the
first one only.
-/
import Smos.Drivers.Configured
import Smos.Drivers.OneClient

namespace Smos.Drivers

open Smos.Base
open Smos.RootServer (InvocationError HandleOrHandleCap usizeBound)
open Smos.Ipc (QueueType VirtType)

/-! ## What the loop should do -/

/-- Who waits for an answer. -/
def Event.sender : Event → Option Nat
  | .invocation id _ | .undecodable id _ => some id
  | .fault _ | .notification => none

/-- The client has the channel and the regions that it had. -/
structure Client.SameRecords (c c' : Client) : Prop where
  channel : c'.channel = c.channel
  queue : c'.queue = c.queue
  data : c'.data = c.data

namespace OneClient

structure Handled (ev : Event) (s s' : State) : Prop where
  answered : ∀ id, ev.sender = some id → s'.replyMsgInfo.isSome
  /-- A new client is the one whose connection was accepted. -/
  accepted : s.client = none → ∀ c, s'.client = some c →
    ev = .invocation c.id (.connOpen none) ∧ c.SameRecords (Client.new c.id c.connRegistrationHndl)
  /-- What is recorded was provided by this client. -/
  provided : ∀ c, s.client = some c → ∃ c', s'.client = some c' ∧ c'.id = c.id ∧
    (c.SameRecords c' ∨ ∃ inv, ev = .invocation c.id inv)

/-- No event ends the loop with a panic, and every one is handled. -/
def Robust (ans : Answers) (m : OneClient) : State → List Event → Prop
  | _, [] => True
  | s, ev :: evs => ∃ r s', (m.turn ans ev : StateProg Empty _) s = .ok r s' ∧ Handled ev s s' ∧
    (r = none → Robust ans m s' evs)

/-! ## When it does -/

/-- The invocations that a component has a handler for. -/
def accepts : OneClient → Invocation → Bool
  | .timer, .channelRegisterRecvOnly _ => true
  | .ethCopier, .channelRegisterBidirectional _ _ => true
  | .ethCopier, .queueRegister _ _ _ => true
  | .ethCopier, .provideDataRegion _ _ => true
  | _, _ => false

/-- The event is one of the expected handshake. -/
def expects (ans : Answers) (m : OneClient) (s : State) : Event → Bool
  | .fault _ | .notification => s.client.isSome
  | .undecodable _ _ => true
  | .invocation id inv =>
    match s.client with
    | none => decide (inv = .connOpen none) && (ans.connRegister s.component.calls).isOk
    | some c => decide (id = c.id) && m.accepts inv

/-- Every event is expected, in the state in which the loop takes it. -/
def expected (ans : Answers) (m : OneClient) : State → List Event → Bool
  | _, [] => true
  | s, ev :: evs => m.expects ans s ev &&
    match (m.turn ans ev : StateProg Empty _) s with
    | .ok none s' => expected ans m s' evs
    | _ => true

end OneClient

/-! ## The calls do not panic -/

/-- The program does not panic, and what it returns satisfies `Q`. -/
abbrev Settles {ε α : Type} (Q : α → Prop) (m : Prog SddfPanic Component ε α) : Prop :=
  Ends (fun _ => False) Q m

section Settles

variable (ans : Answers)

theorem windowCreate_settles {start size : Nat} (hfits : start + size < usizeBound) :
    Settles (fun _ => True) (windowCreate ans start size) := by
  intro c
  unfold windowCreate
  rw [Prog.wp_bind, Prog.wp_gets, Prog.wp_ite, Prog.wp_ite, Prog.wp_ite]
  exact ⟨fun _ => trivial, fun _ => ⟨fun hover => absurd hfits (Nat.not_lt.mpr hover),
    fun _ => ⟨fun _ => Ends.ask c, fun _ => trivial⟩⟩⟩

theorem queueOpen_settles {vaddr size : Nat} (hfits : vaddr + size < usizeBound)
    (cap : HandleOrHandleCap) : Settles (fun _ => True) (Queue.open ans vaddr size cap) := by
  refine .bind (windowCreate_settles ans hfits) fun _ _ => ?_
  exact .bind (Q := fun _ => True) .ask fun _ _ => .pure trivial

theorem dmaOpen_settles {vaddr expectedSize : Nat} (hfits : vaddr + expectedSize < usizeBound)
    (hndl : HandleOrHandleCap) :
    Settles (fun _ => True) (DMARegion.open ans hndl vaddr expectedSize) := by
  refine .bind (Q := fun _ => True) .ask fun stat _ => ?_
  split
  · exact .fail _
  · next hgood =>
    simp only [not_or, not_not] at hgood
    obtain ⟨rfl, hpaddr⟩ := hgood
    refine .bind (windowCreate_settles ans hfits) fun _ _ => ?_
    refine .bind (Q := fun _ => True) .ask fun _ _ => ?_
    refine .bind (Q := fun _ => True) (.unwrap ?_ fun _ _ => trivial) fun _ _ => .pure trivial
    simpa [Option.isSome_iff_ne_none] using hpaddr

theorem openBidirectional_settles (cap : Nat) :
    Settles (fun ch => ch.fromHndlCap.isSome) (NotificationChannel.openBidirectional ans cap) := by
  refine .bind (Q := fun _ => True) .ask fun _ _ => ?_
  refine .bind (Q := fun _ => True) (.bind (Q := fun _ => True) .ask fun _ _ => .pure trivial)
    fun _ _ => ?_
  refine .bind (Q := fun _ => True) .ask fun _ _ => ?_
  refine .bind (Q := fun _ => True) (.bind (Q := fun _ => True) .ask fun _ _ => .pure trivial) ?_
  exact fun _ _ => .pure rfl

theorem openSendOnly_settles (cap : Nat) :
    Settles (fun _ => True) (NotificationChannel.openSendOnly ans cap) := by
  refine .bind (Q := fun _ => True) .ask fun _ _ => ?_
  refine .bind (Q := fun _ => True) (.bind (Q := fun _ => True) .ask fun _ _ => .pure trivial) ?_
  exact fun _ _ => .pure trivial

end Settles

/-! ## The handlers do not panic -/

/-- However the handler ends, it is not a panic, and the client is the same one. -/
def Serves (m : TurnProg Reply) (t : Turn) : Prop :=
  m.wp (fun _ t' => t'.client.id = t.client.id) (fun _ t' => t'.client.id = t.client.id)
    (fun _ => False) t

section Handlers

variable {ans : Answers} {t : Turn}

theorem serves_fail (e : InvocationError) : Serves (Prog.fail e) t := rfl

/-- A call of the component that does not panic, in a handler. -/
theorem wp_settled {α : Type} {m : SddfProg α} {Q : α → Prop} {R : α → Turn → Prop}
    (hm : Settles Q m) (hok : ∀ a c', Q a → R a { t with component := c' }) :
    (onComponent m).wp R (fun _ t' => t'.client.id = t.client.id) (fun _ => False) t := by
  unfold onComponent
  rw [Prog.wp_zoom]
  exact Prog.wp_mono (hm t.component) (fun a c' ha => hok a c' ha) (fun _ _ _ => rfl) fun _ h => h

theorem registerClient_serves (cap : Nat) (virtType : Option VirtType) :
    Serves (registerClient ans cap virtType) t := by
  unfold registerClient
  split
  · exact serves_fail _
  · unfold Serves recordChannel
    rw [Prog.wp_bind, Prog.wp_bind]
    refine wp_settled (openBidirectional_settles ans cap) fun ch c' hch => ?_
    -- the reply finds the channel that has just been recorded
    simp only [replyChannel, modifyClient, Prog.wp_modify, Prog.wp_bind, Prog.wp_gets,
      Prog.wp_unwrap, Prog.wp_pure, Option.some.injEq, forall_eq', reduceCtorEq, implies_true,
      true_and]
    refine ⟨fun hnone => ?_, False.elim⟩
    rw [hnone] at hch
    cases hch

theorem openQueue_serves {slot : QueueSlot} {vaddr size cap : Nat}
    (hfits : vaddr + size < usizeBound) :
    Serves (openQueue ans slot (fun _ => some vaddr) size cap) t := by
  unfold Serves openQueue
  rw [Prog.wp_bind, Prog.wp_gets, Prog.wp_ite]
  refine ⟨fun _ => serves_fail _, fun _ => ?_⟩
  rw [Prog.wp_bind, Prog.wp_unwrap]
  refine ⟨?_, nofun⟩
  rintro _ ⟨⟩
  rw [Prog.wp_bind]
  exact wp_settled (queueOpen_settles ans hfits _) fun _ _ _ => rfl

theorem openData_serves {vaddr expectedSize cap : Nat}
    (hfits : vaddr + expectedSize < usizeBound) :
    Serves (openData ans (fun _ => vaddr) expectedSize cap) t := by
  unfold Serves openData
  rw [Prog.wp_bind, Prog.wp_gets, Prog.wp_bind]
  exact wp_settled (dmaOpen_settles ans hfits _) fun _ _ _ => rfl

theorem EthCopier.handleQueueRegister_serves (cap size : Nat) (queueType : QueueType) :
    Serves (handleQueueRegister ans cap size queueType) t := by
  unfold Serves handleQueueRegister handleNetQueueRegister
  rw [Prog.wp_bind, Prog.wp_gets, Prog.wp_ite, Prog.wp_ite]
  refine ⟨fun _ => serves_fail _, fun _ => ⟨fun _ => serves_fail _, fun hsize => ?_⟩⟩
  obtain rfl : size = clientQueueSize := Decidable.not_not.mp hsize
  cases queueType with
  | active => exact openQueue_serves (by decide)
  | free => exact openQueue_serves (by decide)
  | request => exact serves_fail _
  | response => exact serves_fail _
  | none => exact serves_fail _

theorem EthCopier.handleProvideDataRegion_serves (cap size : Nat) :
    Serves (handleProvideDataRegion ans cap size) t := by
  unfold Serves handleProvideDataRegion
  rw [Prog.wp_bind, Prog.wp_gets, Prog.wp_ite]
  refine ⟨fun _ => serves_fail _, fun _ => ?_⟩
  rw [Prog.wp_bind]
  have hserves : Serves (openData ans (fun _ => cliDmaRcvRegion) clientQueueSize cap) t :=
    openData_serves (by decide)
  exact Prog.wp_mono hserves (fun _ _ h => h) (fun _ _ h => h) fun _ h => h

theorem Timer.handleClientRegister_serves (cap : Nat) :
    Serves (handleClientRegister ans cap) t := by
  unfold Serves handleClientRegister
  rw [Prog.wp_bind]
  exact wp_settled (openSendOnly_settles ans cap) fun _ _ _ => rfl

/-- Every handler that a component has. -/
theorem handler_serves {m : OneClient} {inv : Invocation} (h : m.accepts inv = true) :
    Serves (m.handler ans inv) t := by
  cases m with
  | timer =>
    cases inv with
    | channelRegisterRecvOnly cap => exact Timer.handleClientRegister_serves cap
    | _ => cases h
  | ethCopier =>
    cases inv with
    | channelRegisterBidirectional cap virtType => exact registerClient_serves cap virtType
    | queueRegister cap size queueType =>
      exact EthCopier.handleQueueRegister_serves cap size queueType
    | provideDataRegion cap size => exact EthCopier.handleProvideDataRegion_serves cap size
    | _ => cases h

end Handlers

/-! ## One turn, and every run -/

namespace OneClient

variable {ans : Answers} {m : OneClient} {s : State}

/-- While the loop waits, its client is not done. -/
def Waits (m : OneClient) (s : State) : Prop := ∀ c, s.client = some c → m.done c = false

/-- How a turn should end. -/
def Turned (m : OneClient) (ev : Event) (s : State) (r : Option Client) (s' : State) : Prop :=
  Handled ev s s' ∧ (r = none → m.Waits s')

/-- With a client and an answer to it, the check at the end does not panic. -/
theorem finish_wp {c : Client} (hc : s.client = some c) (hr : m.done c = true → s.replyMsgInfo.isSome)
    {s₀ : State} {ev : Event} (hh : Handled ev s₀ s) :
    (m.finish : StateProg Empty _).wp (Turned m ev s₀) (fun _ _ => False) (fun _ => False) s := by
  unfold finish
  rw [Prog.wp_bind, Prog.wp_get, Prog.wp_bind, Prog.wp_unwrap]
  refine ⟨fun x hx => ?_, fun hnone => by rw [hc] at hnone; cases hnone⟩
  obtain rfl : c = x := Option.some.inj (hc.symm.trans hx)
  rw [Prog.wp_ite]
  refine ⟨fun hdone => ?_, fun hdone => ⟨hh, fun _ c' hc' => ?_⟩⟩
  · rw [Prog.wp_bind, Prog.wp_unwrap]
    refine ⟨fun _ _ => ⟨hh, nofun⟩, fun hnone => ?_⟩
    have hsome := hr hdone
    rw [hnone] at hsome
    cases hsome
  · cases hc.symm.trans hc'
    exact Bool.not_eq_true _ ▸ hdone

theorem handleConnOpen_wp {id : Nat} (hok : (ans.connRegister s.component.calls).isOk = true) :
    (handleConnOpen ans id none).wp
      (fun _ s' => ∃ hndl, s'.client = some (Client.new id hndl)) (fun _ _ => False)
      (fun _ => False) s := by
  unfold handleConnOpen connRegister
  rw [if_neg nofun, Prog.wp_bind, Prog.wp_zoom, Prog.wp_expect]
  obtain ⟨hndl, hndl_eq⟩ := isOk_iff.mp hok
  rw [Prog.wp_of_ok (ask_ok hndl_eq)]
  exact ⟨hndl, rfl⟩

/-- An expected invocation of the client. -/
theorem onClient_wp {c : Client} {inv : Invocation} (hc : s.client = some c)
    (ha : m.accepts inv = true) :
    (onClient (m.handler ans inv)).wp
      (fun _ s' => ∃ c', s'.client = some c' ∧ c'.id = c.id)
      (fun _ s' => ∃ c', s'.client = some c' ∧ c'.id = c.id) (fun _ => False) s := by
  unfold Prog.wp onClient
  have hserves : Serves (m.handler ans inv) ⟨s.component, c, []⟩ := handler_serves ha
  unfold Serves Prog.wp at hserves
  rw [hc]
  simp only
  cases hrun : m.handler ans inv ⟨s.component, c, []⟩ with
  | ok a t =>
    rw [hrun] at hserves
    exact ⟨t.client, rfl, hserves⟩
  | err e t =>
    rw [hrun] at hserves
    exact ⟨t.client, rfl, hserves⟩
  | panic p =>
    rw [hrun] at hserves
    exact hserves

/-- An event that leaves the client alone. -/
theorem handled_same {ev : Event} {s' : State} (hc : s'.client = s.client)
    (ha : ∀ id, ev.sender = some id → s'.replyMsgInfo.isSome) : Handled ev s s' where
  answered := ha
  accepted hnone c hc' := by
    rw [hc, hnone] at hc'
    cases hc'
  provided c hs := ⟨c, hc.trans hs, rfl, .inl ⟨rfl, rfl, rfl⟩⟩

theorem turn_wp {ev : Event} (hw : m.Waits s) (he : m.expects ans s ev = true) :
    (m.turn ans ev : StateProg Empty _).wp (Turned m ev s) (fun _ _ => False) (fun _ => False)
      s := by
  -- a message without a sender, when there is a client
  have hquiet : ∀ ev : Event, ev.sender = none → s.client.isSome = true →
      (m.finish : StateProg Empty _).wp (Turned m ev s) (fun _ _ => False) (fun _ => False)
        { s with replyMsgInfo := none } := by
    intro ev hsender hsome
    obtain ⟨c, hc⟩ := Option.isSome_iff_exists.mp hsome
    refine finish_wp (s := { s with replyMsgInfo := none }) hc (fun hdone => ?_)
      (handled_same rfl fun id hid => ?_)
    · rw [hw c hc] at hdone
      cases hdone
    · rw [hsender] at hid
      cases hid
  cases ev with
  | fault id => exact hquiet (.fault id) rfl he
  | notification => exact hquiet .notification rfl he
  | undecodable id e => exact ⟨handled_same rfl fun _ _ => rfl, fun _ => hw⟩
  | invocation id inv =>
    unfold turn handle
    rw [Prog.wp_bind, Prog.wp_attempt, Prog.wp_bind, Prog.wp_gets]
    cases hs : s.client with
    | none =>
      simp only [expects, hs, Bool.and_eq_true, decide_eq_true_eq] at he
      obtain ⟨rfl, hok⟩ := he
      refine Prog.wp_mono (handleConnOpen_wp hok) ?_ (fun _ _ h => h.elim) fun _ h => h
      rintro ret s' ⟨hndl, hc'⟩
      refine finish_wp (s := { s' with replyMsgInfo := some (.ok ret) }) hc' (fun _ => rfl)
        ⟨fun _ _ => rfl, fun _ c hc => ?_, fun c hc => ?_⟩
      · cases hc'.symm.trans hc
        exact ⟨rfl, rfl, rfl, rfl⟩
      · rw [hs] at hc
        cases hc
    | some c =>
      simp only [expects, hs, Bool.and_eq_true, decide_eq_true_eq] at he
      obtain ⟨rfl, ha⟩ := he
      refine Prog.wp_mono (onClient_wp hs ha) ?_ ?_ fun _ h => h
      all_goals
        rintro ret s' ⟨c', hc', hid⟩
        refine finish_wp (s := { s' with replyMsgInfo := some _ }) hc' (fun _ => rfl)
          ⟨fun _ _ => rfl, fun hnone => ?_, fun x hx => ?_⟩
        · rw [hs] at hnone
          cases hnone
        · cases hs.symm.trans hx
          exact ⟨c', hc', hid, .inr ⟨inv, rfl⟩⟩

/-- A run of expected events. -/
theorem robust_of_expected : ∀ (evs : List Event) (s : State), m.Waits s →
    m.expected ans s evs = true → m.Robust ans s evs
  | [], _, _, _ => trivial
  | ev :: evs, s, hw, he => by
    unfold expected at he
    obtain ⟨he, hrest⟩ := (Bool.and_eq_true _ _).mp he
    have hwp := turn_wp hw he
    unfold Prog.wp at hwp
    cases hrun : (m.turn ans ev : StateProg Empty _) s with
    | ok r s' =>
      rw [hrun] at hwp hrest
      refine ⟨r, s', hrun, hwp.1, ?_⟩
      rintro rfl
      exact robust_of_expected evs s' (hwp.2 rfl) hrest
    | err e s' => cases e
    | panic p =>
      rw [hrun] at hwp
      exact hwp.elim

end OneClient

/-! ## The event loop of the timer -/

section EventLoop

variable {Msg R : Type} {b : Bindings} {protected_ : Nat → Msg → R}

/-- No message ends the loop, and every invocation is answered. -/
def AnswersAll (b : Bindings) (protected_ : Nat → Msg → R) (events : List (PpcEvent Msg)) : Prop :=
  ∃ replies, sddfEventLoopPpc b protected_ events () = .ok replies () ∧
    List.Forall₂ (fun ev reply => ∀ id msg, ev = .invocation id msg → reply.isSome = true)
      events replies

theorem answersAll_cons {ev : PpcEvent Msg} {reply : Option R} {evs : List (PpcEvent Msg)}
    (hturn : ppcTurn b protected_ ev () = .ok reply ())
    (hreply : ∀ id msg, ev = .invocation id msg → reply.isSome = true) :
    AnswersAll b protected_ (ev :: evs) ↔ AnswersAll b protected_ evs := by
  unfold AnswersAll
  have heq : ∀ replies, sddfEventLoopPpc b protected_ (ev :: evs) () = .ok replies () ↔
      ∃ rest, replies = reply :: rest ∧ sddfEventLoopPpc b protected_ evs () = .ok rest () := by
    intro replies
    rw [sddfEventLoopPpc, Prog.bind_of_ok hturn]
    constructor
    · intro h
      obtain ⟨rest, s, hrest, hp⟩ := Prog.bind_ok h
      cases hp
      exact ⟨rest, rfl, hrest⟩
    · rintro ⟨rest, rfl, hrest⟩
      rw [Prog.bind_of_ok hrest]
      rfl
  constructor
  · rintro ⟨replies, hrun, hall⟩
    obtain ⟨rest, rfl, hrest⟩ := (heq replies).mp hrun
    exact ⟨rest, hrest, (List.forall₂_cons.mp hall).2⟩
  · rintro ⟨rest, hrest, hall⟩
    exact ⟨reply :: rest, (heq _).mpr ⟨rest, rfl, hrest⟩, List.forall₂_cons.mpr ⟨hreply, hall⟩⟩

/-- The loop stands the invocations of the senders in its table, and no others. -/
theorem answersAll_iff : ∀ events : List (PpcEvent Msg), AnswersAll b protected_ events ↔
    ∀ id msg, .invocation id msg ∈ events → (b.ppcIds.lookup id).isSome = true
  | [] => ⟨fun _ => nofun, fun _ => ⟨[], rfl, .nil⟩⟩
  | .notification bits :: evs => by
      rw [answersAll_cons rfl nofun, answersAll_iff evs]
      simp
  | .fault :: evs => by
      rw [answersAll_cons rfl nofun, answersAll_iff evs]
      simp
  | .invocation id msg :: evs => by
      cases hid : b.ppcIds.lookup id with
      | some channel =>
        have hturn : ppcTurn b protected_ (.invocation id msg) () =
            .ok (some (protected_ channel msg)) () := by
          show (ppcGetChannelId b id >>= fun channel => _) () = _
          unfold ppcGetChannelId
          rw [hid]
          rfl
        rw [answersAll_cons hturn fun _ _ _ => rfl, answersAll_iff evs]
        refine ⟨fun h id' msg' hmem => ?_, fun h id' msg' hmem => h id' msg' (.tail _ hmem)⟩
        rcases List.mem_cons.mp hmem with heq | hrest
        · cases heq
          rw [hid]
          rfl
        · exact h id' msg' hrest
      | none =>
        constructor
        · rintro ⟨replies, hrun, -⟩
          have hturn : ppcTurn b protected_ (.invocation id msg) () = .panic .unwrapNone := by
            show (ppcGetChannelId b id >>= fun channel => _) () = _
            unfold ppcGetChannelId
            rw [hid]
            rfl
          rw [sddfEventLoopPpc, Prog.bind_of_panic hturn] at hrun
          cases hrun
        · intro h
          have hsome := h id msg (List.mem_cons_self ..)
          rw [hid] at hsome
          cases hsome

end EventLoop

/-- The only sender that the timer knows is its client. -/
theorem setChannels_lookup {irqChannel : IrqChannel} {client : Client} {b : Bindings}
    {c c' : Component} (h : Timer.setChannels irqChannel client c = .ok b c') (id : Nat) :
    (b.ppcIds.lookup id).isSome = true ↔ id = client.id := by
  obtain ⟨b₁, c₁, hirq, hrest⟩ := Prog.bind_ok h
  obtain ⟨channel, c₂, -, hrest⟩ := Prog.bind_ok hrest
  have hb₁ : b₁.ppcIds = [] := by
    have hset := unwrap_ok hirq
    unfold sddfSetChannel at hset
    split at hset
    · cases hset
    · cases hset
      rfl
  have hb : b.ppcIds = [(client.id, 2)] := by
    have hset := unwrap_ok hrest
    unfold sddfSetChannel at hset
    split at hset
    · cases hset
    · cases hset
      simp [hb₁]
  rw [hb]
  by_cases hid : id = client.id
  · simp [hid]
  · simp [hid, List.lookup_cons, beq_false_of_ne hid]

/-- The start-up loops of the timer and the copier handle every run of expected events, and the
timer's event loop the invocations of the accepted client. -/
theorem oneClient_robust (m : OneClient) (ans : Answers) (c : Component) (events : List Event)
    (he : m.expected ans (.start c) events = true) :
    m.Robust ans (.start c) events ∧
      (m = .timer → ∀ irqChannel client s b c₁ c₂,
        (m.preInit ans events : OneClient.StateProg Empty _) (.start c) = .ok (some client) s →
        Timer.setChannels irqChannel client c₁ = .ok b c₂ →
        ∀ (Msg R : Type) (protected_ : Nat → Msg → R) (later : List (PpcEvent Msg)),
          AnswersAll b protected_ later ↔
            ∀ id msg, .invocation id msg ∈ later → id = client.id) := by
  constructor
  · exact OneClient.robust_of_expected events _ nofun he
  · intro _ irqChannel client s b c₁ c₂ _ hset Msg R protected_ later
    rw [answersAll_iff]
    simp only [setChannels_lookup hset]

/-- A notification before the first connection, a second client's channel, and a second client in
the event loop. -/
theorem oneClient_not_robust :
    (¬ OneClient.timer.Robust granted (.start published) [.notification] ∧
      (OneClient.timer.turn granted .notification : OneClient.StateProg Empty _)
        (.start published) = .panic .unwrapNone) ∧
    ¬ OneClient.timer.Robust granted (.start published)
      [.invocation 7 (.connOpen none), .invocation 8 (.channelRegisterRecvOnly 3)] ∧
    ¬ AnswersAll (R := Unit) ⟨[], [(7, 2)]⟩ (fun _ _ => ()) [.invocation 8 ()] := by
  refine ⟨⟨?_, rfl⟩, ?_, ?_⟩
  · rintro ⟨r, s', hrun, -⟩
    cases hrun
  · rintro ⟨r, s', hrun, -, hrest⟩
    cases hrun
    obtain ⟨r', s'', hrun, hh, -⟩ := hrest rfl
    cases hrun
    obtain ⟨c', hc', -, hsame | ⟨inv, hinv⟩⟩ := hh.provided _ rfl
    · cases hc'
      cases hsame.channel
    · cases hinv
  · rintro ⟨replies, hrun, -⟩
    cases hrun

/-- The expected handshake, with a notification after the connection. -/
def timerClient : List Event := [
  .invocation 7 (.connOpen none),
  .notification,
  .invocation 7 (.channelRegisterRecvOnly 3)]

theorem oneClient_robust_timerClient :
    OneClient.timer.Robust granted (.start published) timerClient ∧
      ∃ b : Bindings, AnswersAll (R := Nat) b (fun channel _ => channel)
        [.notification [2], .invocation 7 ()] := by
  have hok := oneClient_robust .timer granted published timerClient (by decide +kernel)
  refine ⟨hok.1, _, (hok.2 rfl ⟨9, 1⟩ _ _ _ published published rfl rfl Unit Nat _ _).mpr ?_⟩
  intro id msg hmem
  simp only [List.mem_cons, reduceCtorEq, PpcEvent.invocation.injEq, List.not_mem_nil, or_false,
    false_or] at hmem
  exact hmem.1

end Smos.Drivers
