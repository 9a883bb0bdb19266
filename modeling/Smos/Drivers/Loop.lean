/-
Smos.Drivers.Loop — what holds over the runs of the start-up loop.

`LoopStep` says all that one message can change: nothing, a new client in a
free entry, or a client that a handler has made a step for. What every such
step keeps holds wherever the loop waits and when it returns
(`sddfDriverPreInit_wp`). The check fails wherever the loop waits, so it can
only succeed after an invocation, which has a reply.
-/
import Smos.Drivers.Layouts

namespace Smos.Drivers

open Smos.Base
open Smos.RootServer (InvocationError HandleArg)

/-- What a message can do to the loop's variables, apart from the reply. -/
inductive LoopStep (l : Layout) (ev : Event) (s s' : PreInit) : Prop
  | kept (hg : Grown l.lowest s.component.held s'.component.held) (hc : s'.clients = s.clients)
    (hr : s'.virtReg = s.virtReg)
  | opened (slot id hndl : Nat) (hslot : findClientSlot s.clients = some slot)
    (hid : findClientFromId id s.clients = none)
    (hg : Grown l.lowest s.component.held s'.component.held)
    (hc : s'.clients = s.clients.set slot (some (Client.new id hndl)))
    (hr : s'.virtReg = s.virtReg)
  | handled (k id : Nat) (inv : Invocation) (client : Client) (t : Turn)
    (hev : ev = .invocation id inv) (hid : findClientFromId id s.clients = some k)
    (hk : s.clients[k]? = some (some client))
    (hstep : l.Step inv ⟨s.component, client, s.virtReg⟩ t) (hcomp : s'.component = t.component)
    (hc : s'.clients = s.clients.set k (some t.client)) (hr : s'.virtReg = t.virtReg)

section Step

variable {ans : Answers} {hs : Handlers} {l : Layout} {s : PreInit}

theorem handleConnOpen_wp (id : Nat) (sharedBufObj : Option (HandleArg × Nat)) (ev : Event)
    (hid : findClientFromId id s.clients = none) :
    (handleConnOpen ans id sharedBufObj).wp (fun _ s' => LoopStep l ev s s')
      (fun _ s' => LoopStep l ev s s') (fun _ => True) s := by
  have hkept : LoopStep l ev s s := .kept (.refl _ _) rfl rfl
  unfold handleConnOpen
  simp only [Prog.wp_bind, Prog.wp_gets, Prog.wp_okOr]
  refine ⟨fun slot hslot => ?_, fun _ => hkept⟩
  rw [Prog.wp_ite]
  refine ⟨fun _ => hkept, fun _ => ?_⟩
  rw [Prog.wp_bind, Prog.wp_zoom]
  unfold connRegister
  rw [Prog.wp_expect]
  have hm : Makes l.lowest (fun _ _ => True) (ask ans.connRegister fun _ h => h) :=
    .ask fun _ h => ⟨.refl _ h, trivial⟩
  refine Prog.wp_mono (hm s.component) ?_ (fun _ _ _ => trivial) fun _ h => h
  rintro hndl c' ⟨hg, -⟩
  exact .opened slot id hndl hslot hid hg rfl rfl

theorem onClient_wp {k id : Nat} {inv : Invocation} (hid : findClientFromId id s.clients = some k)
    (hh : ∀ t, l.Handles inv (hs.handler inv) t) :
    (onClient k (hs.handler inv)).wp (fun _ s' => LoopStep l (.invocation id inv) s s')
      (fun _ s' => LoopStep l (.invocation id inv) s s') (fun _ => True) s := by
  unfold Prog.wp onClient
  cases hk : s.clients[k]? with
  | none => trivial
  | some entry =>
    cases entry with
    | none => trivial
    | some client =>
      have hwp := hh ⟨s.component, client, s.virtReg⟩
      unfold Layout.Handles Prog.wp at hwp
      simp only
      cases hm : hs.handler inv ⟨s.component, client, s.virtReg⟩ with
      | ok a t =>
        rw [hm] at hwp
        exact .handled k id inv client t rfl hid hk hwp rfl rfl rfl
      | err e t =>
        rw [hm] at hwp
        exact .handled k id inv client t rfl hid hk hwp rfl rfl rfl
      | panic p => trivial

theorem handle_wp (hh : ∀ inv t, l.Handles inv (hs.handler inv) t) (id : Nat)
    (inv : Invocation) :
    (handle ans hs id inv).wp (fun _ s' => LoopStep l (.invocation id inv) s s')
      (fun _ s' => LoopStep l (.invocation id inv) s s') (fun _ => True) s := by
  unfold handle
  simp only [Prog.wp_bind, Prog.wp_gets]
  cases hid : findClientFromId id s.clients with
  | none =>
    cases inv with
    | connOpen sharedBufObj => exact handleConnOpen_wp id sharedBufObj _ hid
    | _ => trivial
  | some k => exact onClient_wp hid (hh inv)

/-- What is known once a message has been taken. -/
structure Received (l : Layout) (ev : Event) (s : PreInit) (check : Bool) (s' : PreInit) :
    Prop where
  step : LoopStep l ev s s'
  /-- Without a reply, no client has changed. -/
  reply : s'.replyMsgInfo.isSome ∨ s'.clients = s.clients
  /-- Nor when the check is skipped. -/
  skip : check = false → s'.clients = s.clients

theorem receive_wp {ε : Type} (hh : ∀ inv t, l.Handles inv (hs.handler inv) t) (ev : Event)
    {E : ε → PreInit → Prop} :
    (receive ans hs ev : PreInitProg ε Bool).wp (Received l ev s) E (fun _ => True) s := by
  cases ev with
  | fault id => trivial
  | notification => exact ⟨.kept (.refl _ _) rfl rfl, .inr rfl, nofun⟩
  | undecodable id e => exact ⟨.kept (.refl _ _) rfl rfl, .inl rfl, fun _ => rfl⟩
  | invocation id inv =>
    unfold receive
    simp only [Prog.wp_bind, Prog.wp_attempt]
    refine Prog.wp_mono (handle_wp hh id inv) ?_ ?_ fun _ h => h
    all_goals
      intro _ s' hstep
      refine ⟨?_, .inl rfl, nofun⟩
      cases hstep with
      | kept hg hc hr => exact .kept hg hc hr
      | opened slot id hndl hslot hid hg hc hr => exact .opened slot id hndl hslot hid hg hc hr
      | handled k id inv client t hev hid hk hstep hcomp hc hr =>
        exact .handled k id inv client t hev hid hk hstep hcomp hc hr

end Step

/-! ## Runs -/

/-- Every message the loop takes meets the condition, in the state where the loop waits for it. -/
def Meets (ans : Answers) (hs : Handlers) (guard : PreInit → Event → Prop) :
    PreInit → List Event → Prop
  | _, [] => True
  | s, ev :: evs => guard s ev ∧
    match (turn ans hs ev : PreInitProg Empty _) s with
    | .ok none s' => Meets ans hs guard s' evs
    | _ => True

instance decidableMeets (ans : Answers) (hs : Handlers) (guard : PreInit → Event → Prop)
    [∀ s ev, Decidable (guard s ev)] : ∀ s evs, Decidable (Meets ans hs guard s evs)
  | _, [] => inferInstanceAs (Decidable True)
  | s, ev :: evs =>
    have : Decidable (match (turn ans hs ev : PreInitProg Empty _) s with
        | .ok none s' => Meets ans hs guard s' evs
        | _ => True) :=
      match (turn ans hs ev : PreInitProg Empty _) s with
      | .ok none s' => decidableMeets ans hs guard s' evs
      | .ok (some _) _ => inferInstanceAs (Decidable True)
      | .err _ _ => inferInstanceAs (Decidable True)
      | .panic _ => inferInstanceAs (Decidable True)
    inferInstanceAs (Decidable (_ ∧ _))

theorem meets_true (ans : Answers) (hs : Handlers) : ∀ (evs : List Event) (s : PreInit),
    Meets ans hs (fun _ _ => True) s evs
  | [], _ => trivial
  | _ :: evs, _ => by
      refine ⟨trivial, ?_⟩
      split
      · exact meets_true ans hs evs _
      · trivial

section Runs

variable {ans : Answers} {hs : Handlers} {l : Layout} {guard : PreInit → Event → Prop}
  {J : PreInit → Prop}

/-- Where the loop waits: the invariant, and the check fails. -/
def Waiting (hs : Handlers) (J : PreInit → Prop) (s : PreInit) : Prop :=
  J s ∧ hs.checkDone s.clients = false

/-- How the loop can be found after some messages. -/
def Result (hs : Handlers) (J : PreInit → Prop) (r : Option (List (Option Client)))
    (s : PreInit) : Prop :=
  match r with
  | none => Waiting hs J s
  | some clients => J s ∧ s.clients = clients ∧ hs.checkDone clients = true

theorem turn_wp (hh : ∀ inv t, l.Handles inv (hs.handler inv) t)
    (hstep : ∀ s ev s', Waiting hs J s → guard s ev → LoopStep l ev s s' → J s') {s : PreInit}
    {ev : Event} (hw : Waiting hs J s) (hg : guard s ev) :
    (turn ans hs ev : PreInitProg Empty _).wp (Result hs J) (fun _ _ => True) (fun _ => True)
      s := by
  unfold turn
  rw [Prog.wp_bind]
  refine Prog.wp_mono (receive_wp (E := fun _ _ => True) hh ev) ?_ (fun _ _ h => h) fun _ h => h
  intro check s' hr
  have hj : J s' := hstep s ev s' hw hg hr.step
  cases check with
  | false => exact ⟨hj, hr.skip rfl ▸ hw.2⟩
  | true =>
    simp only [if_true]
    unfold finish
    simp only [Prog.wp_bind, Prog.wp_get, Prog.wp_ite, Prog.wp_unwrap, Prog.wp_pure]
    refine ⟨fun hdone => ⟨fun _ _ => ⟨hj, rfl, hdone⟩, fun _ => trivial⟩, fun hdone => ?_⟩
    exact ⟨hj, Bool.not_eq_true _ ▸ hdone⟩

/-- What every message keeps holds after every run. -/
theorem sddfDriverPreInit_wp (hh : ∀ inv t, l.Handles inv (hs.handler inv) t)
    (hstep : ∀ s ev s', Waiting hs J s → guard s ev → LoopStep l ev s s' → J s') :
    ∀ (evs : List Event) (s : PreInit), Waiting hs J s → Meets ans hs guard s evs →
      (sddfDriverPreInit ans hs evs : PreInitProg Empty _).wp (Result hs J) (fun _ _ => True)
        (fun _ => True) s
  | [], _, hw, _ => hw
  | ev :: evs, s, hw, hm => by
      unfold sddfDriverPreInit
      rw [Prog.wp_bind]
      refine Prog.wp_mono (Prog.wp_run (turn_wp hh hstep hw hm.1)) ?_ (fun _ _ h => h)
        fun _ h => h
      rintro r s' ⟨hr, hrun⟩
      cases r with
      | some clients => exact hr
      | none =>
        have hrest := hm.2
        rw [hrun] at hrest
        exact sddfDriverPreInit_wp hh hstep evs s' hr hrest

/-- The completion check of a component without clients. -/
def Handlers.Waits (hs : Handlers) (n : Nat) : Prop := hs.checkDone (List.replicate n none) = false

/-- Wherever the loop waits, a message after which the check succeeds leaves a reply to send. -/
theorem reply_of_done (hh : ∀ inv t, l.Handles inv (hs.handler inv) t) {n : Nat}
    (hn : hs.Waits n) {c : Component} {evs : List Event} {ev : Event} {s s' : PreInit}
    (hrun : (sddfDriverPreInit ans hs evs : PreInitProg Empty _) (PreInit.start n c) = .ok none s)
    (hrecv : (receive ans hs ev : PreInitProg Empty Bool) s = .ok true s')
    (hdone : hs.checkDone s'.clients = true) : s'.replyMsgInfo.isSome := by
  have hwp := sddfDriverPreInit_wp (J := fun _ => True) hh (fun _ _ _ _ _ _ => trivial) evs
    (PreInit.start n c) ⟨trivial, hn⟩ (meets_true ans hs evs _)
  have hwait : hs.checkDone s.clients = false := (Prog.wp_ok hwp hrun).2
  have hr : Received l ev s true s' := Prog.wp_ok (receive_wp (E := fun _ _ => True) hh ev) hrecv
  rcases hr.reply with hsome | hsame
  · exact hsome
  · rw [hsame, hwait] at hdone
    cases hdone

end Runs

/-! ## Invariants of single clients -/

/-- What every client has in its entry. -/
def EachClient (P : Nat → Holdings → Client → Prop) (s : PreInit) : Prop :=
  ∀ k c, s.clients[k]? = some (some c) → P k s.component.held c

theorem getElem?_of_set {clients : List (Option Client)} {k j : Nat} {c x : Client}
    (h : (clients.set k (some c))[j]? = some (some x)) :
    j ≠ k ∧ clients[j]? = some (some x) ∨ j = k ∧ x = c := by
  rw [List.getElem?_set] at h
  split at h
  · next hkj =>
    split at h
    · cases h
      exact .inr ⟨hkj.symm, rfl⟩
    · cases h
  · next hkj => exact .inl ⟨fun hjk => hkj hjk.symm, h⟩

theorem EachClient.start (P : Nat → Holdings → Client → Prop) (n : Nat) (c : Component) :
    EachClient P (PreInit.start n c) := by
  intro k x hk
  have hmem := List.mem_of_getElem? hk
  simp [PreInit.start] at hmem

/-- What new clients have, and every step of a client keeps, every message keeps. -/
theorem EachClient.step {P : Nat → Holdings → Client → Prop} {l : Layout} {s : PreInit}
    {ev : Event} {s' : PreInit}
    (hlast : ∀ k h h' c, Grown l.lowest h h' → P k h c → P k h' c)
    (hnew : ∀ k h id hndl, P k h (Client.new id hndl))
    (hkeep : ∀ k id inv client t, ev = .invocation id inv →
      s.clients[k]? = some (some client) → findClientFromId id s.clients = some k →
      P k s.component.held client → l.Step inv ⟨s.component, client, s.virtReg⟩ t →
      P k t.component.held t.client)
    (hs : EachClient P s) (hstep : LoopStep l ev s s') : EachClient P s' := by
  cases hstep with
  | kept hgrown hc hr =>
    intro j c hj
    exact hlast _ _ _ c hgrown (hs j c (hc ▸ hj))
  | opened slot id hndl hslot hid hgrown hc hr =>
    intro j c hj
    rcases getElem?_of_set (hc ▸ hj) with ⟨-, hold⟩ | ⟨rfl, rfl⟩
    · exact hlast _ _ _ c hgrown (hs j c hold)
    · exact hnew _ _ id hndl
  | handled k id inv client t hev hid hk hst hcomp hc hr =>
    intro j c hj
    rw [hcomp]
    rcases getElem?_of_set (hc ▸ hj) with ⟨-, hold⟩ | ⟨rfl, rfl⟩
    · exact hlast _ _ _ c hst.grown (hs j c hold)
    · exact hkeep j id inv client t hev hk hid (hs j client hk) hst

end Smos.Drivers
