/-
Smos.RootServer.NtfnBuffer — the notification buffer of a published server.

The root server tells a server about faults, destroyed windows and
destroyed connections through a ring in a page that the server has mapped.
Both sides read the ring's indices from the page at every call. The ring
buffer library is a parameter (`Ring`), and `Ring.Fifo` what it promises.

The root server only ever appends, and an append that is not taken is an
`expect`. How many messages wait is up to the server and its clients.
-/
import Smos.Base.Ring
import Smos.Base.Run
import Smos.RootServer.Window

namespace Smos.RootServer

open Smos.Base

/-! ## Messages -/

/-- An entry of the ring. -/
structure NtfnBufferData where
  label : Nat
  data0 : Nat
  data1 : Nat
  data2 : Nat
  deriving DecidableEq, Repr

/-- `NotificationLabel`. -/
inductive NotificationLabel where
  | vmFaultNotificationLabel
  | connDestroyNotificationLabel
  | windowDestroyNotificationLabel
  deriving DecidableEq, Repr

namespace NotificationLabel

/-- `IntoPrimitive`. -/
def toNat : NotificationLabel → Nat
  | vmFaultNotificationLabel => 0
  | connDestroyNotificationLabel => 1
  | windowDestroyNotificationLabel => 2

/-- `TryFromPrimitive`. -/
def ofNat? : Nat → Option NotificationLabel
  | 0 => some vmFaultNotificationLabel
  | 1 => some connDestroyNotificationLabel
  | 2 => some windowDestroyNotificationLabel
  | _ => none

@[simp] theorem ofNat?_toNat (label : NotificationLabel) : ofNat? label.toNat = some label := by
  cases label <;> rfl

end NotificationLabel

/-- `Into<NtfnBufferData>`. -/
def NotificationType.toData : NotificationType → NtfnBufferData
  | .vmFault clientId reference faultOffset =>
    ⟨NotificationLabel.toNat .vmFaultNotificationLabel, clientId, reference, faultOffset⟩
  | .connDestroy connId => ⟨NotificationLabel.toNat .connDestroyNotificationLabel, connId, 0, 0⟩
  | .windowDestroy clientId reference =>
    ⟨NotificationLabel.toNat .windowDestroyNotificationLabel, clientId, reference, 0⟩

/-- `Into<NotificationType>`; `none` is the panic at an unknown label. -/
def NtfnBufferData.toNotification (d : NtfnBufferData) : Option NotificationType :=
  (NotificationLabel.ofNat? d.label).map fun
    | .vmFaultNotificationLabel => .vmFault d.data0 d.data1 d.data2
    | .connDestroyNotificationLabel => .connDestroy d.data0
    | .windowDestroyNotificationLabel => .windowDestroy d.data0 d.data1

/-- A message survives the ring. -/
@[simp] theorem NotificationType.toNotification_toData (msg : NotificationType) :
    msg.toData.toNotification = some msg := by
  cases msg <;> simp [toData, NtfnBufferData.toNotification]

/-! ## The two ends of the ring -/

inductive NtfnPanic where
  | full
  | peerMisbehavior
  | unknownLabel
  deriving DecidableEq, Repr

section Ends

variable {μ ε : Type} (ring : Ring μ NtfnBufferData)

/-- `enqueue_ntfn_buffer_msg(..).expect(..)` on the page. -/
def enqueueMsg (msg : NotificationType) : Prog NtfnPanic μ ε Unit := fun page =>
  match ring.enqueue page msg.toData with
  | .ok page' => .ok () page'
  | .error .full => .panic .full
  | .error .peerMisbehavior => .panic .peerMisbehavior

/-- `dequeue_ntfn_buffer_msg` on the page. -/
def dequeueMsg : Prog NtfnPanic μ ε (Option NotificationType) := fun page =>
  match ring.dequeue page with
  | .ok none => .ok none page
  | .ok (some (d, page')) =>
    match d.toNotification with
    | some msg => .ok (some msg) page'
    | none => .panic .unknownLabel
  | .error _ => .panic .peerMisbehavior

end Ends

/-! ## Runs -/

/-- The page, and what went in and came out. -/
structure NtfnQueue (μ : Type) where
  page : μ
  enqueued : List NotificationType
  dequeued : List NotificationType

inductive NtfnOp (μ : Type) where
  /-- A fault is forwarded, or a window or a connection is destroyed. -/
  | enqueue (msg : NotificationType)
  | dequeue
  /-- The server writes its page. -/
  | write (page : μ)

variable {μ : Type} {ring : Ring μ NtfnBufferData} {capacity : Nat}

/-- One step; there is none after a panic. -/
def NtfnQueue.step (ring : Ring μ NtfnBufferData) (q : NtfnQueue μ) :
    NtfnOp μ → Option (NtfnQueue μ)
  | .enqueue msg =>
    match (enqueueMsg ring msg : Prog NtfnPanic μ Empty Unit) q.page with
    | .ok _ page => some { q with page := page, enqueued := q.enqueued ++ [msg] }
    | _ => none
  | .dequeue =>
    match (dequeueMsg ring : Prog NtfnPanic μ Empty (Option NotificationType)) q.page with
    | .ok msg page => some { q with page := page, dequeued := q.dequeued ++ msg.toList }
    | _ => none
  | .write page => some { q with page := page }

/-- `init_ntfn_buffer` has just run. -/
def NtfnQueue.Initial (ring : Ring μ NtfnBufferData) (q : NtfnQueue μ) : Prop :=
  (∃ page, q.page = ring.init page) ∧ q.enqueued = [] ∧ q.dequeued = []

/-- A message is only sent while there is room, and the server changes its page only by taking
messages. -/
def NtfnQueue.Orderly (fifo : ring.Fifo capacity) (q : NtfnQueue μ) : NtfnOp μ → Prop
  | .enqueue _ => (fifo.contents q.page).length < capacity
  | .dequeue => True
  | .write page => fifo.Intact page ∧ fifo.contents page = fifo.contents q.page

/-- What is in the ring is what went in and has not come out yet. -/
structure NtfnQueue.Delivers (fifo : ring.Fifo capacity) (q : NtfnQueue μ) : Prop where
  intact : fifo.Intact q.page
  order : ∃ pending : List NotificationType, q.enqueued = q.dequeued ++ pending ∧
    fifo.contents q.page = pending.map NotificationType.toData

namespace NtfnQueue

variable {fifo : ring.Fifo capacity} {q q' : NtfnQueue μ}

theorem enqueueMsg_room (ε : Type) {page : μ} (msg : NotificationType) (hint : fifo.Intact page)
    (hroom : (fifo.contents page).length < capacity) :
    ∃ page', (enqueueMsg ring msg : Prog NtfnPanic μ ε Unit) page = .ok () page' ∧
      fifo.Intact page' ∧ fifo.contents page' = fifo.contents page ++ [msg.toData] := by
  obtain ⟨page', hok, hint', hcontents⟩ := fifo.enqueue_room page msg.toData hint hroom
  refine ⟨page', ?_, hint', hcontents⟩
  simp [enqueueMsg, hok]

theorem enqueueMsg_ok {ε : Type} {page page' : μ} {msg : NotificationType}
    (h : (enqueueMsg ring msg : Prog NtfnPanic μ ε Unit) page = .ok () page') :
    ring.enqueue page msg.toData = .ok page' := by
  unfold enqueueMsg at h
  split at h <;> cases h
  assumption

theorem dequeueMsg_nil (ε : Type) {page : μ} (hint : fifo.Intact page)
    (hnil : fifo.contents page = []) :
    (dequeueMsg ring : Prog NtfnPanic μ ε (Option NotificationType)) page = .ok none page := by
  simp [dequeueMsg, fifo.dequeue_nil page hint hnil]

theorem dequeueMsg_cons (ε : Type) {page : μ} {msg : NotificationType} {ds : List NtfnBufferData}
    (hint : fifo.Intact page) (hcons : fifo.contents page = msg.toData :: ds) :
    ∃ page', (dequeueMsg ring : Prog NtfnPanic μ ε (Option NotificationType)) page =
      .ok (some msg) page' ∧ fifo.Intact page' ∧ fifo.contents page' = ds := by
  obtain ⟨page', hok, hint', hcontents⟩ := fifo.dequeue_cons page msg.toData ds hint hcons
  refine ⟨page', ?_, hint', hcontents⟩
  simp [dequeueMsg, hok]

/-- An orderly step exists and keeps the order. -/
theorem Delivers.step {op : NtfnOp μ} (h : q.Delivers fifo) (hop : q.Orderly fifo op) :
    ∃ q', q.step ring op = some q' ∧ q'.Delivers fifo := by
  obtain ⟨pending, horder, hcontents⟩ := h.order
  cases op with
  | enqueue msg =>
    obtain ⟨page, hok, hint, happend⟩ := enqueueMsg_room Empty msg h.intact hop
    refine ⟨{ q with page := page, enqueued := q.enqueued ++ [msg] }, ?_, hint, ?_⟩
    · simp [NtfnQueue.step, hok]
    · refine ⟨pending ++ [msg], ?_, ?_⟩
      · rw [horder, List.append_assoc]
      · simp [happend, hcontents]
  | dequeue =>
    cases pending with
    | nil =>
      refine ⟨q, ?_, h⟩
      simp [NtfnQueue.step, dequeueMsg_nil Empty h.intact hcontents]
    | cons msg rest =>
      obtain ⟨page, hok, hint, hrest⟩ := dequeueMsg_cons Empty h.intact hcontents
      refine ⟨{ q with page := page, dequeued := q.dequeued ++ [msg] }, ?_, hint, rest, ?_, hrest⟩
      · simp [NtfnQueue.step, hok]
      · simp [horder]
  | write page => exact ⟨_, rfl, hop.1, pending, horder, hop.2.trans hcontents⟩

end NtfnQueue

/-- The orderly runs of a buffer. -/
abbrev NtfnRun (fifo : ring.Fifo capacity) : List (NtfnOp μ) → NtfnQueue μ → Prop :=
  Run (NtfnQueue.Initial ring) (NtfnQueue.step ring) (NtfnQueue.Orderly fifo)

theorem NtfnRun.delivers {fifo : ring.Fifo capacity} {ops : List (NtfnOp μ)} {q : NtfnQueue μ}
    (run : NtfnRun fifo ops q) : q.Delivers fifo := by
  refine run.invariant (I := NtfnQueue.Delivers fifo) (fun q h => ?_) fun q op q' h hop hstep => ?_
  · obtain ⟨⟨page, hpage⟩, henq, hdeq⟩ := h
    refine ⟨hpage ▸ fifo.init_intact page, [], by simp [henq, hdeq], ?_⟩
    rw [hpage, fifo.init_contents]
    rfl
  · obtain ⟨q'', hq, hdel⟩ := h.step hop
    rw [hstep] at hq
    cases hq
    exact hdel

/-- **Delivery.** In a run in which messages are sent only while there is room and the server
changes its page only by taking messages, every message is taken once and in order: what was sent
is what was taken followed by what waits, the next message taken is the first that waits, and
sending a message panics exactly when the buffer is full. -/
theorem notifications_delivered {fifo : ring.Fifo capacity} {ops : List (NtfnOp μ)}
    {q : NtfnQueue μ} (run : NtfnRun fifo ops q) :
    ∃ pending : List NotificationType, q.enqueued = q.dequeued ++ pending ∧
      (∀ msg rest, pending = msg :: rest →
        ∃ q', q.step ring .dequeue = some q' ∧ q'.dequeued = q.dequeued ++ [msg]) ∧
      (∀ op, q.Orderly fifo op → (q.step ring op).isSome) ∧
      ∀ msg, q.step ring (.enqueue msg) = none ↔ pending.length = capacity := by
  have hdel := run.delivers
  obtain ⟨pending, horder, hcontents⟩ := hdel.order
  have hlen : (fifo.contents q.page).length = pending.length := by rw [hcontents, List.length_map]
  refine ⟨pending, horder, ?_, ?_, ?_⟩
  · intro msg rest hcons
    rw [hcons] at hcontents
    obtain ⟨page, hok, -⟩ := NtfnQueue.dequeueMsg_cons Empty hdel.intact hcontents
    exact ⟨{ q with page := page, dequeued := q.dequeued ++ [msg] }, by simp [NtfnQueue.step, hok],
      rfl⟩
  · intro op hop
    obtain ⟨q', hq, -⟩ := hdel.step hop
    rw [hq]
    rfl
  · intro msg
    have hle := fifo.length_le q.page hdel.intact
    constructor
    · intro hnone
      by_contra hne
      have hroom : q.Orderly fifo (.enqueue msg) :=
        show (fifo.contents q.page).length < capacity by omega
      obtain ⟨q', hq, -⟩ := hdel.step hroom
      rw [hnone] at hq
      cases hq
    · intro hfull
      have herr := fifo.enqueue_full q.page msg.toData hdel.intact (hlen.trans hfull)
      simp [NtfnQueue.step, enqueueMsg, herr]

/-- The ring of the build, as a list. -/
abbrev ListPage : Type := Option (Ring.Entries NtfnBufferData ntfnBufferCapacity)

abbrev listNtfnRing : Ring ListPage NtfnBufferData :=
  Ring.listRing NtfnBufferData ntfnBufferCapacity

/-- A buffer that nothing was sent through. -/
def emptyQueue : NtfnQueue ListPage := ⟨listNtfnRing.init none, [], []⟩

theorem emptyQueue_initial : NtfnQueue.Initial listNtfnRing emptyQueue := ⟨⟨none, rfl⟩, rfl, rfl⟩

theorem one_delivered : ∃ q, NtfnRun (Ring.listRing_fifo NtfnBufferData ntfnBufferCapacity)
    [.enqueue (.windowDestroy 3 1), .dequeue] q ∧ q.dequeued = [.windowDestroy 3 1] ∧
    ∃ pending, q.enqueued = q.dequeued ++ pending := by
  let fifo := Ring.listRing_fifo NtfnBufferData ntfnBufferCapacity
  let sent : NtfnOp ListPage := .enqueue (.windowDestroy 3 1)
  have hroom : emptyQueue.Orderly fifo sent := show 0 < ntfnBufferCapacity by decide
  have run : NtfnRun fifo [sent] _ := Run.step (.init emptyQueue_initial) hroom rfl
  have htake : ∀ q, NtfnQueue.Orderly fifo q .dequeue := fun _ => trivial
  have hrun : NtfnRun fifo [sent, .dequeue] _ := Run.step run (htake _) rfl
  obtain ⟨pending, horder, -⟩ := notifications_delivered hrun
  exact ⟨_, hrun, rfl, pending, horder⟩

/-- As many destroyed connections as the buffer holds, before the server runs. -/
def manyDestroyed : List (NtfnOp ListPage) :=
  (List.range ntfnBufferCapacity).map fun i => .enqueue (.connDestroy i)

/-- The next message panics; so does a message after the server has written invalid indices. -/
theorem enqueue_panics :
    (∃ q, Run (NtfnQueue.Initial listNtfnRing) (NtfnQueue.step listNtfnRing) (fun _ _ => True)
      manyDestroyed q ∧ q.step listNtfnRing (.enqueue (.connDestroy ntfnBufferCapacity)) = none) ∧
    ∃ q, Run (NtfnQueue.Initial listNtfnRing) (NtfnQueue.step listNtfnRing) (fun _ _ => True)
      [.write none] q ∧ q.step listNtfnRing (.enqueue (.connDestroy 0)) = none :=
  ⟨Run.exists_of_steps emptyQueue_initial (Run.guarded_true _ _) (by decide +kernel),
    Run.exists_of_steps emptyQueue_initial (Run.guarded_true _ _) (by decide)⟩

/-! ## The root server's buffers -/

section RootServer

variable {s : State} {srv : ServerRef} {page : μ} {ε : Type}

/-- What `State` keeps of a server's ring is what the page holds. -/
def HoldsNtfns (fifo : ring.Fifo ntfnBufferCapacity) (page : μ) (server : Server) : Prop :=
  fifo.Intact page ∧ fifo.contents page = server.ntfnBuffer.map NotificationType.toData

/-- Sending a message on the page and in `State` is the same, and panics in the same case. -/
theorem enqueueNtfnBufferMsg_refines {fifo : ring.Fifo ntfnBufferCapacity}
    (h : HoldsNtfns fifo page (s.servers srv)) (msg : NotificationType) :
    (∃ page' s', (enqueueMsg ring msg : Prog NtfnPanic μ ε Unit) page = .ok () page' ∧
      (enqueueNtfnBufferMsg srv msg : SProg ε Unit) s = .ok () s' ∧
      HoldsNtfns fifo page' (s'.servers srv)) ∨
    ((enqueueMsg ring msg : Prog NtfnPanic μ ε Unit) page = .panic .full ∧
      (enqueueNtfnBufferMsg srv msg : SProg ε Unit) s = .panic .notificationBufferFull) := by
  obtain ⟨hint, hcontents⟩ := h
  have hlen : (fifo.contents page).length = (s.servers srv).ntfnBuffer.length := by
    rw [hcontents, List.length_map]
  have hread : (enqueueNtfnBufferMsg srv msg : SProg ε Unit) s =
      (if (s.servers srv).ntfnBuffer.length < ntfnBufferCapacity then
        modifyServer srv fun server => { server with ntfnBuffer := server.ntfnBuffer ++ [msg] }
      else Prog.panic .notificationBufferFull : SProg ε Unit) s := rfl
  by_cases hroom : (fifo.contents page).length < ntfnBufferCapacity
  · obtain ⟨page', hok, hint', happend⟩ := NtfnQueue.enqueueMsg_room ε msg hint hroom
    refine .inl ⟨page', _, hok, by rw [hread, if_pos (hlen ▸ hroom)]; rfl, hint', ?_⟩
    simp [happend, hcontents]
  · have hfull : (fifo.contents page).length = ntfnBufferCapacity := by
      have hle := fifo.length_le page hint
      omega
    have herr := fifo.enqueue_full page msg.toData hint hfull
    refine .inr ⟨by simp [enqueueMsg, herr], ?_⟩
    rw [hread, if_neg (hlen ▸ hroom)]
    rfl

end RootServer

end Smos.RootServer
