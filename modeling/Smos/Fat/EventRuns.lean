/-
Smos.Fat.EventRuns — every command is answered once.

As long as the client never has more commands outstanding than a ring has
entries, no completion is overwritten before it is read: `Served` says where
each command of a known type is, answered, at a worker, or still in the ring.
`Paced` is about the control flow of `notified`, up to what holds when it
returns: with no notification left or still to be sent and a worker free, the
command ring is empty.
-/
import Mathlib.Data.List.Perm.Basic
import Smos.Base.Radix
import Smos.Base.Run
import Smos.Fat.EventLoop

namespace Smos.Fat

open Smos.Base

section Server

variable {ρ δ : Type} {handles : Handlers ρ δ} {s s' : FatServer ρ δ}

/-! ## The commands at the workers -/

section InFlight

variable {pool : Nat → FsRequest ρ δ} {i : Nat} {r : FsRequest ρ δ}

def inFlightOf (pool : Nat → FsRequest ρ δ) : List (FsCmd ρ) :=
  workerThreads.flatMap fun h => if (pool h).stat = .inUse then [(pool h).command] else []

theorem inFlightOf_take (hi : i ∈ workerThreads) (hfree : (pool i).stat = .free)
    (hr : r.stat = .inUse) :
    (inFlightOf (Function.update pool i r)).Perm (r.command :: inFlightOf pool) := by
  refine flatMap_perm_cons (by decide) hi ?_ ?_
  · simp [hfree, hr]
  · intro j hj
    rw [Function.update_of_ne hj]

theorem inFlightOf_put (hi : i ∈ workerThreads) (huse : (pool i).stat = .inUse)
    (hr : r.stat = .free) :
    (inFlightOf pool).Perm ((pool i).command :: inFlightOf (Function.update pool i r)) := by
  refine flatMap_perm_cons (by decide) hi ?_ ?_
  · simp [huse, hr]
  · intro j hj
    rw [Function.update_of_ne hj]

theorem inFlightOf_same (hstat : r.stat = (pool i).stat) (hcmd : r.command = (pool i).command) :
    inFlightOf (Function.update pool i r) = inFlightOf pool := by
  refine List.flatMap_congr fun j _ => ?_
  by_cases hj : j = i
  · subst hj
    rw [Function.update_self, hstat, hcmd]
  · rw [Function.update_of_ne hj]

end InFlight

/-! ## Where the commands are -/

/-- The completions written so far. -/
def FatServer.written (s : FatServer ρ δ) : List (FsCmpl δ) := s.answered.map Prod.snd

structure Served (handles : Handlers ρ δ) (s : FatServer ρ δ) : Prop where
  commands : s.commands.Mirrors fsQueueCapacity s.sent 0
  completions : s.completions.Mirrors fsQueueCapacity s.written s.enqueued
  received : s.received = s.written.take s.completions.head.toNat
  taken_le : s.taken ≤ s.sent.length
  published : s.completions.tail.toNat ≤ s.commands.head.toNat
  once : ((s.sent.take s.taken).filter FsCmd.valid).Perm (s.answered.map Prod.fst ++ s.inFlight)
  answers : ∀ p ∈ s.answered, Answers handles p.1 p.2
  finished : ∀ h, (s.pool h).stat = .inUse → s.active h = false →
    Answers handles (s.pool h).command (fillClientResponse (s.pool h))
  mem_workers : ∀ h, (s.pool h).stat = .inUse → h ∈ workerThreads
  outstanding : s.sent.length ≤ s.received.length + fsQueueCapacity
  replying : s.pc = .replying → s.dequeued = 0

namespace Served

theorem received_length (h : Served handles s) :
    s.received.length = s.completions.head.toNat := by
  have htail := h.completions.tail_add
  have hhead := h.completions.head_le
  rw [h.received, List.length_take]
  omega

theorem answered_length (h : Served handles s) :
    s.answered.length + s.inFlight.length ≤ s.taken := by
  have hlen := h.once.length_eq
  have hfilter := List.length_filter_le FsCmd.valid (s.sent.take s.taken)
  rw [List.length_append, List.length_map] at hlen
  rw [List.length_take] at hfilter
  omega

theorem written_length : s.written.length = s.answered.length := List.length_map _

/-- Only the control flow changes. -/
theorem control (h : Served handles s) (hcommands : s'.commands = s.commands)
    (hcompletions : s'.completions = s.completions) (hpool : s'.pool = s.pool)
    (hactive : s'.active = s.active) (hdequeued : s'.dequeued = s.dequeued)
    (henqueued : s'.enqueued = s.enqueued) (hsent : s'.sent = s.sent)
    (hreceived : s'.received = s.received) (hanswered : s'.answered = s.answered)
    (hpc : s'.pc = .replying → s.pc = .replying) : Served handles s' where
  commands := by rw [hcommands, hsent]; exact h.commands
  completions := by
    unfold FatServer.written
    rw [hcompletions, hanswered, henqueued]
    exact h.completions
  received := by
    unfold FatServer.written
    rw [hreceived, hanswered, hcompletions]
    exact h.received
  taken_le := by
    unfold FatServer.taken
    rw [hcommands, hdequeued, hsent]
    exact h.taken_le
  published := by rw [hcommands, hcompletions]; exact h.published
  once := by
    unfold FatServer.taken FatServer.inFlight
    rw [hcommands, hdequeued, hsent, hanswered, hpool]
    exact h.once
  answers := by rw [hanswered]; exact h.answers
  finished := by rw [hpool, hactive]; exact h.finished
  mem_workers := by rw [hpool]; exact h.mem_workers
  outstanding := by rw [hsent, hreceived]; exact h.outstanding
  replying hp := by rw [hdequeued]; exact h.replying (hpc hp)

/-- The client publishes a command. -/
theorem send (h : Served handles s) (c : FsCmd ρ)
    (hroom : s.sent.length < s.received.length + fsQueueCapacity)
    (hcount : s.sent.length + 1 < 2 ^ 64) (hn : s.next (.publish c) = some s') :
    Served handles s' := by
  cases hn
  have hhead := h.completions.head_le
  have hpublished := h.published
  have hfill : s.sent.length < s.commands.head.toNat + fsQueueCapacity := by
    have hlen := h.received_length
    omega
  exact
    { commands := SharedRing.Mirrors.publishProduction (k := 1) (j := 0)
        (h.commands.fill c hfill hcount)
      completions := h.completions
      received := h.received
      taken_le := by
        rw [List.length_append]
        exact Nat.le_trans h.taken_le (Nat.le_add_right _ _)
      published := h.published
      once := by
        have hle : s.commands.head.toNat + s.dequeued ≤ s.sent.length := h.taken_le
        show (((s.sent ++ [c]).take (s.commands.head.toNat + s.dequeued)).filter _).Perm _
        rw [List.take_append_of_le_length hle]
        exact h.once
      answers := h.answers
      finished := h.finished
      mem_workers := h.mem_workers
      outstanding := by
        rw [List.length_append, List.length_singleton]
        exact hroom
      replying := h.replying }

/-- The client reads a completion. -/
theorem receive (h : Served handles s) (hn : s.next .receive = some s') : Served handles s' := by
  unfold FatServer.next at hn
  by_cases hsome : 0 < fsQueueLengthConsumer s.completions
  · rw [if_pos hsome] at hn
    cases hn
    have hlen := h.completions.length_eq
    have hlt : s.completions.head.toNat + 0 < s.written.length := by
      unfold fsQueueLengthConsumer at hsome
      omega
    have hread : fsQueueIdxFilled s.completions 0 = s.written[s.completions.head.toNat + 0] :=
      h.completions.filled_eq hlt
    have hhead : (fsQueuePublishConsumption s.completions 1).head.toNat =
        s.completions.head.toNat + 1 := h.completions.toNat_head hsome
    exact
      { commands := h.commands
        completions := h.completions.publishConsumption hsome
        received := by
          show s.received ++ [_] = s.written.take
            (fsQueuePublishConsumption s.completions 1).head.toNat
          rw [hhead, hread, h.received]
          exact List.take_append_getElem hlt
        taken_le := h.taken_le
        published := h.published
        once := h.once
        answers := h.answers
        finished := h.finished
        mem_workers := h.mem_workers
        outstanding := by
          have hle := h.outstanding
          rw [List.length_append, List.length_singleton]
          show s.sent.length ≤ _
          omega
        replying := h.replying }
  · rw [if_neg hsome] at hn
    cases hn

/-- A worker ends its command. -/
theorem finish (h : Served handles s) {w status : Nat} {result : δ}
    (hop : ∃ op, operationFunctions[(s.pool w).cmd]? = some op ∧
      handles op (s.pool w).params status result)
    (hn : s.next (.finish w status result) = some s') : Served handles s' := by
  simp only [FatServer.next] at hn
  by_cases hact : s.pc = .yielding ∧ s.active w = true
  · rw [if_pos hact] at hn
    cases hn
    have hpc : s.pc ≠ .replying := by
      rw [hact.1]
      simp
    exact
      { commands := h.commands
        completions := h.completions
        received := h.received
        taken_le := h.taken_le
        published := h.published
        once := by
          have hsame : inFlightOf (Function.update s.pool w
              { s.pool w with status := status, result := result }) = s.inFlight :=
            inFlightOf_same rfl rfl
          show ((s.sent.take s.taken).filter _).Perm
            (s.answered.map Prod.fst ++ inFlightOf (Function.update s.pool w _))
          rw [hsame]
          exact h.once
        answers := h.answers
        finished := by
          intro w' huse hidle
          by_cases hw : w' = w
          · subst hw
            simp only [Function.update_self]
            exact ⟨rfl, hop⟩
          · simp only [Function.update_of_ne hw] at huse hidle ⊢
            exact h.finished w' huse hidle
        mem_workers := by
          intro w' huse
          by_cases hw : w' = w
          · subst hw
            simp only [Function.update_self] at huse
            exact h.mem_workers w' huse
          · simp only [Function.update_of_ne hw] at huse
            exact h.mem_workers w' huse
        outstanding := h.outstanding
        replying := fun hp => absurd hp hpc }
  · rw [if_neg hact] at hn
    cases hn

/-- The completion of a finished worker. -/
theorem collect (h : Served handles s) {i : Nat} (hpc : s.pc ≠ .replying) :
    Served handles (s.collect i) := by
  unfold FatServer.collect
  by_cases hdone : s.active i = false ∧ (s.pool i).stat = .inUse
  · rw [if_pos hdone]
    have hi := h.mem_workers i hdone.2
    have hput := inFlightOf_put (r := { s.pool i with stat := .free }) hi hdone.2 rfl
    have hlen : s.answered.length + 1 ≤ s.taken := by
      have hle := h.answered_length
      have hone : s.inFlight.length = _ + 1 := hput.length_eq
      omega
    have htaken := h.taken_le
    have hroom : s.written.length < s.completions.head.toNat + fsQueueCapacity := by
      have hreceived := h.received_length
      have hout := h.outstanding
      rw [written_length]
      omega
    have hcount : s.written.length + 1 < 2 ^ 64 := by
      have hbound := h.commands.bounded
      rw [written_length]
      omega
    have hwritten : (s.answered ++ [((s.pool i).command, fillClientResponse (s.pool i))]).map
        Prod.snd = s.written ++ [fillClientResponse (s.pool i)] := List.map_append
    exact
      { commands := h.commands
        completions := by
          show SharedRing.Mirrors _ _ (List.map _ _) _
          rw [hwritten]
          exact h.completions.fill _ hroom hcount
        received := by
          have htail := h.completions.tail_add
          have hhead := h.completions.head_le
          show s.received = List.take s.completions.head.toNat (List.map _ _)
          rw [hwritten, List.take_append_of_le_length (by omega)]
          exact h.received
        taken_le := h.taken_le
        published := h.published
        once := by
          show ((s.sent.take s.taken).filter _).Perm
            (List.map _ (s.answered ++ [_]) ++ inFlightOf (Function.update s.pool i _))
          rw [List.map_append, List.append_assoc]
          exact h.once.trans (hput.append_left _)
        answers := by
          intro p hp
          rcases List.mem_append.mp hp with hp | hp
          · exact h.answers p hp
          · rw [List.mem_singleton.mp hp]
            exact h.finished i hdone.2 hdone.1
        finished := by
          intro w huse hidle
          by_cases hw : w = i
          · subst hw
            simp at huse
          · simp only [Function.update_of_ne hw] at huse ⊢
            exact h.finished w huse hidle
        mem_workers := by
          intro w huse
          by_cases hw : w = i
          · rw [hw]
            exact hi
          · simp only [Function.update_of_ne hw] at huse
            exact h.mem_workers w huse
        outstanding := h.outstanding
        replying := fun hp => absurd hp hpc }
  · rw [if_neg hdone]
    exact h

/-- A command is taken off and given to a free worker. -/
theorem dequeue (h : Served handles s) {i : Nat} (hpc : s.pc ≠ .replying)
    (hi : i ∈ workerThreads) (hfree : (s.pool i).stat = .free)
    (hsome : s.taken < s.sent.length) : Served handles (s.dequeue i) := by
  have hread : fsQueueIdxFilled s.commands s.dequeued = s.sent[s.taken] :=
    h.commands.filled_eq hsome
  have htake : s.sent.take (s.taken + 1) = s.sent.take s.taken ++ [s.sent[s.taken]] :=
    (List.take_append_getElem hsome).symm
  unfold FatServer.dequeue
  simp only [hread]
  by_cases hvalid : fsNumCommands ≤ s.sent[s.taken].type
  · rw [if_pos hvalid]
    exact
      { commands := h.commands
        completions := h.completions
        received := h.received
        taken_le := hsome
        published := h.published
        once := by
          have hdrop : [s.sent[s.taken]].filter FsCmd.valid = [] := by
            simp [FsCmd.valid, hvalid]
          show ((s.sent.take (s.taken + 1)).filter _).Perm (_ ++ inFlightOf s.pool)
          rw [htake, List.filter_append, hdrop, List.append_nil]
          exact h.once
        answers := h.answers
        finished := h.finished
        mem_workers := h.mem_workers
        outstanding := h.outstanding
        replying := fun hp => absurd hp hpc }
  · rw [if_neg hvalid]
    have htook : (inFlightOf (Function.update s.pool i
        { s.pool i with
          cmd := s.sent[s.taken].type, requestId := s.sent[s.taken].id,
          params := s.sent[s.taken].params, stat := .inUse })).Perm
        (s.sent[s.taken] :: s.inFlight) := inFlightOf_take hi hfree rfl
    exact
      { commands := h.commands
        completions := h.completions
        received := h.received
        taken_le := hsome
        published := h.published
        once := by
          have hkeep : [s.sent[s.taken]].filter FsCmd.valid = [s.sent[s.taken]] := by
            simp [FsCmd.valid, Nat.not_le.mp hvalid]
          show ((s.sent.take (s.taken + 1)).filter _).Perm (_ ++ inFlightOf _)
          rw [htake, List.filter_append, hkeep]
          refine (h.once.append_right _).trans ?_
          rw [List.append_assoc]
          refine List.Perm.append_left _ ?_
          exact (List.perm_append_singleton _ _).trans htook.symm
        answers := h.answers
        finished := by
          intro w huse hidle
          by_cases hw : w = i
          · subst hw
            simp [FatServer.setupRequest] at hidle
          · simp only [FatServer.setupRequest, Function.update_of_ne hw] at huse hidle ⊢
            exact h.finished w huse hidle
        mem_workers := by
          intro w huse
          by_cases hw : w = i
          · rw [hw]
            exact hi
          · simp only [FatServer.setupRequest, Function.update_of_ne hw] at huse
            exact h.mem_workers w huse
        outstanding := h.outstanding
        replying := fun hp => absurd hp hpc }

/-- What was taken off is what is then published. -/
theorem toNat_head (h : Served handles s) :
    (fsQueuePublishConsumption s.commands s.dequeued).head.toNat = s.taken := by
  have hlen := h.commands.length_eq
  have htaken := h.taken_le
  unfold FatServer.taken at htaken
  exact h.commands.toNat_head (by omega)

/-- The commands taken off are published. -/
theorem publish (h : Served handles s) :
    Served handles { s with
      commands := fsQueuePublishConsumption s.commands s.dequeued
      dequeued := 0
      pc := .replying } := by
  have hlen := h.commands.length_eq
  have htaken := h.taken_le
  have hle : s.dequeued ≤ s.commands.length.toNat := by
    unfold FatServer.taken at htaken
    omega
  have hsame : FatServer.taken { s with
      commands := fsQueuePublishConsumption s.commands s.dequeued
      dequeued := 0
      pc := .replying } = s.taken := h.toNat_head
  exact
    { commands := h.commands.publishConsumption hle
      completions := h.completions
      received := h.received
      taken_le := by
        rw [hsame]
        exact htaken
      published := by
        show s.completions.tail.toNat ≤ _
        rw [h.toNat_head]
        exact Nat.le_trans h.published (Nat.le_add_right _ _)
      once := by
        rw [hsame]
        exact h.once
      answers := h.answers
      finished := h.finished
      mem_workers := h.mem_workers
      outstanding := h.outstanding
      replying := fun _ => rfl }

/-- And then the completions, of which there are not more. -/
theorem reply (h : Served handles s) (hpc : s.pc = .replying) :
    Served handles { s with
      completions := fsQueuePublishProduction s.completions s.enqueued
      enqueued := 0
      pc := .waiting } := by
  have hcompletions : SharedRing.Mirrors (fsQueuePublishProduction s.completions s.enqueued)
      fsQueueCapacity s.written 0 :=
    SharedRing.Mirrors.publishProduction (k := s.enqueued) (j := 0) h.completions
  have htail : _ = s.written.length := hcompletions.tail_add
  have hle := h.answered_length
  have hzero := h.replying hpc
  exact
    { commands := h.commands
      completions := hcompletions
      received := h.received
      taken_le := h.taken_le
      published := by
        rw [written_length] at htail
        unfold FatServer.taken at hle
        show (fsQueuePublishProduction s.completions s.enqueued).tail.toNat ≤
          s.commands.head.toNat
        omega
      once := h.once
      answers := h.answers
      finished := h.finished
      mem_workers := h.mem_workers
      outstanding := h.outstanding
      replying := fun hp => by cases hp }

end Served

/-! ## The control flow -/

/-- A finished worker may still wait for its completion only before its turn has come. -/
def Unsettled : EventPc → Nat → Prop
  | .yielding, _ => True
  | .collecting i, h => 1 ≤ i ∧ i ≤ h
  | _, _ => False

/-- `notified` has looked at the commands for the last time. -/
def EventPc.Over : EventPc → Prop
  | .publishing => True
  | .replying => True
  | .waiting => True
  | _ => False

structure Paced (s : FatServer ρ δ) : Prop where
  active_inUse : ∀ h, s.active h = true → (s.pool h).stat = .inUse
  settled : ∀ h, (s.pool h).stat = .inUse → s.active h = false → Unsettled s.pc h
  counted : s.pc = .sizing → s.queueSizeInit = false ∧
    s.taken + s.commandQueueSize ≤ s.sent.length ∧
    (s.silent = true → s.taken + s.commandQueueSize = s.sent.length)
  sized : s.queueSizeInit = true → s.taken + s.commandQueueSize ≤ s.sent.length ∧
    s.completionQueueSize + s.commandQueueSize ≤ fsQueueCapacity ∧
    (s.silent = true → s.taken + s.commandQueueSize = s.sent.length)
  unsized : s.queueSizeInit = false → s.dequeued = 0
  outside : s.pc = .waiting → s.dequeued = 0 ∧ s.enqueued = 0
  drained : s.pc.Over → s.silent = true → s.freeHandleAvailable = true →
    s.taken = s.sent.length

namespace Paced

/-- A client that has published has still to notify. -/
theorem send (h : Paced s) (c : FsCmd ρ) (hn : s.next (.publish c) = some s') : Paced s' := by
  cases hn
  have hle : s.sent.length ≤ (s.sent ++ [c]).length := by simp
  exact
    { active_inUse := h.active_inUse
      settled := h.settled
      counted := by
        intro hpc
        obtain ⟨hinit, hcount, -⟩ := h.counted hpc
        exact ⟨hinit, Nat.le_trans hcount hle, fun hno => by simp [FatServer.silent] at hno⟩
      sized := by
        intro hinit
        obtain ⟨hcount, hcap, -⟩ := h.sized hinit
        exact ⟨Nat.le_trans hcount hle, hcap, fun hno => by simp [FatServer.silent] at hno⟩
      unsized := h.unsized
      outside := h.outside
      drained := fun _ hno => by simp [FatServer.silent] at hno }

theorem receive (h : Paced s) (hn : s.next .receive = some s') : Paced s' := by
  simp only [FatServer.next] at hn
  split at hn
  · cases hn
    exact ⟨h.active_inUse, h.settled, h.counted, h.sized, h.unsized, h.outside, h.drained⟩
  · cases hn

/-- A notification comes, from the client or the block device. -/
theorem told (h : Paced s) (unnotified : Bool) :
    Paced { s with notified := true, unnotified := unnotified } where
  active_inUse := h.active_inUse
  settled := h.settled
  counted hpc := ⟨(h.counted hpc).1, (h.counted hpc).2.1, fun hno => by cases hno⟩
  sized hinit := ⟨(h.sized hinit).1, (h.sized hinit).2.1, fun hno => by cases hno⟩
  unsized := h.unsized
  outside := h.outside
  drained _ hno := by cases hno

theorem notify (h : Paced s) (hn : s.next .notify = some s') : Paced s' := by
  simp only [FatServer.next] at hn
  split at hn
  · cases hn
    exact h.told false
  · cases hn

theorem wake (h : Paced s) (hn : s.next .wake = some s') : Paced s' := by
  simp only [FatServer.next] at hn
  split at hn
  · cases hn
    exact
      { active_inUse := h.active_inUse
        settled := fun _ _ _ => trivial
        counted := fun hp => by cases hp
        sized := fun hinit => by cases hinit
        unsized := fun _ => rfl
        outside := fun hp => by cases hp
        drained := fun hp => False.elim hp }
  · cases hn

theorem finish (h : Paced s) {w status : Nat} {result : δ}
    (hn : s.next (.finish w status result) = some s') : Paced s' := by
  simp only [FatServer.next] at hn
  by_cases hact : s.pc = .yielding ∧ s.active w = true
  · rw [if_pos hact] at hn
    cases hn
    exact
      { active_inUse := by
          intro w' hw'
          by_cases heq : w' = w
          · subst heq
            simp at hw'
          · simp only [Function.update_of_ne heq] at hw' ⊢
            exact h.active_inUse w' hw'
        settled := by
          intro w' _ _
          show Unsettled s.pc w'
          rw [hact.1]
          trivial
        counted := h.counted
        sized := h.sized
        unsized := h.unsized
        outside := h.outside
        drained := by
          intro hp
          have hpc : s.pc.Over := hp
          rw [hact.1] at hpc
          cases hpc }
  · rw [if_neg hact] at hn
    cases hn

/-- Inside of `notified`, and nothing but the program counter changes. -/
theorem goes (h : Paced s) {pc : EventPc} (hpc : pc ≠ .waiting) (hsizing : pc ≠ .sizing)
    (hover : pc.Over → s.pc.Over)
    (hsettled : ∀ w ∈ workerThreads, Unsettled s.pc w → Unsettled pc w)
    (hmem : ∀ w, (s.pool w).stat = .inUse → w ∈ workerThreads) (popped : Bool) :
    Paced { s with pc := pc, newRequestPopped := popped } where
  active_inUse := h.active_inUse
  settled w huse hidle := hsettled w (hmem w huse) (h.settled w huse hidle)
  counted hp := absurd hp hsizing
  sized := h.sized
  unsized := h.unsized
  outside hp := absurd hp hpc
  drained hp := h.drained (hover hp)

theorem collect (h : Paced s) {i : Nat} (hpc : s.pc = .collecting i) :
    Paced { s.collect i with pc := .collecting (i + 1) } := by
  unfold FatServer.collect
  by_cases hdone : s.active i = false ∧ (s.pool i).stat = .inUse
  · rw [if_pos hdone]
    exact
      { active_inUse := by
          intro w hw
          by_cases heq : w = i
          · subst heq
            have hidle := hdone.1
            rw [show s.active w = true from hw] at hidle
            cases hidle
          · simp only [Function.update_of_ne heq]
            exact h.active_inUse w hw
        settled := by
          intro w huse hidle
          by_cases heq : w = i
          · subst heq
            simp at huse
          · simp only [Function.update_of_ne heq] at huse
            have hold := h.settled w huse hidle
            rw [hpc] at hold
            exact ⟨by omega, Nat.lt_of_le_of_ne hold.2 (Ne.symm heq)⟩
        counted := fun hp => by cases hp
        sized := h.sized
        unsized := h.unsized
        outside := fun hp => by cases hp
        drained := fun hp => False.elim hp }
  · rw [if_neg hdone]
    exact
      { active_inUse := h.active_inUse
        settled := by
          intro w huse hidle
          have hold := h.settled w huse hidle
          rw [hpc] at hold
          have hne : w ≠ i := fun heq => hdone ⟨heq ▸ hidle, heq ▸ huse⟩
          exact ⟨by omega, Nat.lt_of_le_of_ne hold.2 (Ne.symm hne)⟩
        counted := fun hp => by cases hp
        sized := h.sized
        unsized := h.unsized
        outside := fun hp => by cases hp
        drained := fun hp => False.elim hp }

/-- While the loop over commands runs, no worker is left unsettled. -/
theorem none_unsettled (h : Paced s) (hpc : s.pc = .popping ∨ s.pc = .sizing) {w : Nat}
    (huse : (s.pool w).stat = .inUse) (hidle : s.active w = false) : False := by
  have hold := h.settled w huse hidle
  rcases hpc with hpc | hpc
  · rw [hpc] at hold
    exact hold
  · rw [hpc] at hold
    exact hold

/-- The command ring is read first. -/
theorem readCommands (h : Paced s) (hs : Served handles s) (hpc : s.pc = .popping)
    (hinit : s.queueSizeInit = false) :
    Paced { s with commandQueueSize := fsQueueLengthConsumer s.commands, pc := .sizing } where
  active_inUse := h.active_inUse
  settled _ huse hidle := (h.none_unsettled (.inl hpc) huse hidle).elim
  counted _ := by
    have hzero := h.unsized hinit
    have hlen := hs.commands.length_eq
    have hsum : s.taken + fsQueueLengthConsumer s.commands = s.sent.length := by
      unfold FatServer.taken fsQueueLengthConsumer
      omega
    exact ⟨hinit, Nat.le_of_eq hsum, fun _ => hsum⟩
  sized hyes := by
    rw [show s.queueSizeInit = true from hyes] at hinit
    cases hinit
  unsized := h.unsized
  outside hp := by cases hp
  drained hp := False.elim hp

/-- Then the completion ring: both have room for all commands counted. -/
theorem readCompletions (h : Paced s) (hs : Served handles s) (hpc : s.pc = .sizing) :
    Paced { s with
      completionQueueSize := fsQueueLengthProducer s.completions
      queueSizeInit := true
      pc := .popping } where
  active_inUse := h.active_inUse
  settled _ huse hidle := (h.none_unsettled (.inr hpc) huse hidle).elim
  counted hp := by cases hp
  sized _ := by
    obtain ⟨hinit, hcount, heq⟩ := h.counted hpc
    have hzero := h.unsized hinit
    have hlen := hs.completions.toNat_length
    have hhead := hs.completions.head_le
    have hreceived := hs.received_length
    have hpublished := hs.published
    have hout := hs.outstanding
    have hcap : fsQueueLengthProducer s.completions + s.commandQueueSize ≤ fsQueueCapacity := by
      unfold fsQueueLengthProducer
      unfold FatServer.taken at hcount
      omega
    exact ⟨hcount, hcap, heq⟩
  unsized hno := by cases hno
  outside hp := by cases hp
  drained hp := False.elim hp

/-- The loop over commands ends: if a worker is free, no command that was counted is left. -/
theorem done (h : Paced s) (hpc : s.pc = .popping)
    (hinit : s.freeHandleAvailable = true → s.queueSizeInit = true)
    (hdone : s.freeHandleAvailable = false ∨ s.commandQueueSize = 0 ∨
      s.completionQueueSize = fsQueueCapacity) :
    Paced { s with pc := if s.newRequestPopped then .yielding else .publishing } where
  active_inUse := h.active_inUse
  settled _ huse hidle := (h.none_unsettled (.inl hpc) huse hidle).elim
  counted hp := by
    simp only at hp
    split at hp <;> cases hp
  sized := h.sized
  unsized := h.unsized
  outside hp := by
    simp only at hp
    split at hp <;> cases hp
  drained _ hno hfree := by
    obtain ⟨-, hcap, heq⟩ := h.sized (hinit hfree)
    have htaken := heq hno
    have hzero : s.commandQueueSize = 0 := by
      rcases hdone with hbusy | hzero | hfull
      · rw [show s.freeHandleAvailable = true from hfree] at hbusy
        cases hbusy
      · exact hzero
      · omega
    show s.taken = s.sent.length
    omega

theorem dequeue (h : Paced s) {i : Nat} (hpc : s.pc = .popping)
    (hinit : s.queueSizeInit = true) (hsome : s.commandQueueSize ≠ 0) :
    Paced (s.dequeue i) := by
  obtain ⟨hle, hcap, heq⟩ := h.sized hinit
  have hnotOver : ∀ q : Prop, s.pc.Over → q := by
    intro q hp
    rw [hpc] at hp
    cases hp
  have hsizing : ∀ q : Prop, s.pc = .sizing → q := by
    intro q hp
    rw [hpc] at hp
    cases hp
  have htaken : s.commands.head.toNat + (s.dequeued + 1) = s.taken + 1 := rfl
  unfold FatServer.dequeue
  by_cases hvalid : fsNumCommands ≤ (fsQueueIdxFilled s.commands s.dequeued).type
  · simp only [if_pos hvalid]
    exact
      { active_inUse := h.active_inUse
        settled := fun _ huse hidle => (h.none_unsettled (.inl hpc) huse hidle).elim
        counted := fun hp => hsizing _ hp
        sized := by
          intro _
          show s.commands.head.toNat + (s.dequeued + 1) + (s.commandQueueSize - 1) ≤
              s.sent.length ∧
            s.completionQueueSize + (s.commandQueueSize - 1) ≤ fsQueueCapacity ∧
            (s.silent = true → s.commands.head.toNat + (s.dequeued + 1) +
              (s.commandQueueSize - 1) = s.sent.length)
          exact ⟨by omega, by omega, fun hno => by have := heq hno; omega⟩
        unsized := fun hno => by rw [show s.queueSizeInit = false from hno] at hinit; cases hinit
        outside := fun hp => by rw [show s.pc = .waiting from hp] at hpc; cases hpc
        drained := fun hp => hnotOver _ hp }
  · simp only [if_neg hvalid]
    exact
      { active_inUse := by
          intro w hw
          by_cases heqw : w = i
          · subst heqw
            simp [FatServer.setupRequest]
          · simp only [FatServer.setupRequest, Function.update_of_ne heqw] at hw ⊢
            exact h.active_inUse w hw
        settled := by
          intro w huse hidle
          by_cases heqw : w = i
          · subst heqw
            simp [FatServer.setupRequest] at hidle
          · simp only [FatServer.setupRequest, Function.update_of_ne heqw] at huse hidle
            exact (h.none_unsettled (.inl hpc) huse hidle).elim
        counted := fun hp => hsizing _ hp
        sized := by
          intro _
          show s.commands.head.toNat + (s.dequeued + 1) + (s.commandQueueSize - 1) ≤
              s.sent.length ∧
            s.completionQueueSize + 1 + (s.commandQueueSize - 1) ≤ fsQueueCapacity ∧
            (s.silent = true → s.commands.head.toNat + (s.dequeued + 1) +
              (s.commandQueueSize - 1) = s.sent.length)
          exact ⟨by omega, by omega, fun hno => by have := heq hno; omega⟩
        unsized := fun hno => by rw [show s.queueSizeInit = false from hno] at hinit; cases hinit
        outside := fun hp => by rw [show s.pc = .waiting from hp] at hpc; cases hpc
        drained := fun hp => hnotOver _ hp }

theorem publish (h : Paced s) (hs : Served handles s) (hpc : s.pc = .publishing) :
    Paced { s with
      commands := fsQueuePublishConsumption s.commands s.dequeued
      dequeued := 0
      pc := .replying } := by
  have hsame : FatServer.taken { s with
      commands := fsQueuePublishConsumption s.commands s.dequeued
      dequeued := 0
      pc := .replying } = s.taken := hs.toNat_head
  exact
    { active_inUse := h.active_inUse
      settled := by
        intro w huse hidle
        have hold := h.settled w huse hidle
        rw [hpc] at hold
        cases hold
      counted := fun hp => by cases hp
      sized := by
        rw [hsame]
        exact h.sized
      unsized := fun _ => rfl
      outside := fun hp => by cases hp
      drained := by
        rw [hsame]
        exact fun _ => h.drained (by rw [hpc]; trivial) }

theorem reply (h : Paced s) (hs : Served handles s) (hpc : s.pc = .replying) :
    Paced { s with
      completions := fsQueuePublishProduction s.completions s.enqueued
      enqueued := 0
      pc := .waiting } where
  active_inUse := h.active_inUse
  settled w huse hidle := by
    have hold := h.settled w huse hidle
    rw [hpc] at hold
    cases hold
  counted hp := by cases hp
  sized := h.sized
  unsized := h.unsized
  outside _ := ⟨hs.replying hpc, rfl⟩
  drained _ := h.drained (by rw [hpc]; trivial)

end Paced

/-! ## Every run -/

theorem pop_keeps (hs : Served handles s) (hp : Paced s) (hpc : s.pc = .popping) {i : Nat}
    (hn : s.pop i = some s') : Served handles s' ∧ Paced s' := by
  have hreplying : s.pc ≠ .replying := by
    rw [hpc]
    simp
  unfold FatServer.pop at hn
  by_cases hread : s.queueSizeInit = false ∧ s.freeHandleAvailable = true
  · rw [if_pos hread] at hn
    cases hn
    exact ⟨hs.control rfl rfl rfl rfl rfl rfl rfl rfl rfl (fun h => by cases h),
      hp.readCommands hs hpc hread.1⟩
  rw [if_neg hread] at hn
  have hinit : s.freeHandleAvailable = true → s.queueSizeInit = true := by
    intro hfree
    cases hinit : s.queueSizeInit with
    | true => rfl
    | false => exact absurd ⟨hinit, hfree⟩ hread
  by_cases hdone : s.freeHandleAvailable = false ∨ s.commandQueueSize = 0 ∨
      s.completionQueueSize = fsQueueCapacity
  · rw [if_pos hdone] at hn
    cases hn
    refine ⟨hs.control rfl rfl rfl rfl rfl rfl rfl rfl rfl ?_, hp.done hpc hinit hdone⟩
    intro hpc
    simp only at hpc
    split at hpc <;> cases hpc
  · rw [if_neg hdone] at hn
    by_cases hi : i ∈ workerThreads ∧ s.active i = false
    · rw [if_pos hi] at hn
      cases hn
      have hsome : s.commandQueueSize ≠ 0 := fun hzero => hdone (.inr (.inl hzero))
      have hfree : s.freeHandleAvailable = true :=
        List.any_eq_true.mpr ⟨i, hi.1, by rw [hi.2]; rfl⟩
      have hsized := (hp.sized (hinit hfree)).1
      have hstat : (s.pool i).stat = .free := by
        cases hcase : (s.pool i).stat with
        | free => rfl
        | inUse => exact (hp.none_unsettled (.inl hpc) hcase hi.2).elim
      exact ⟨hs.dequeue hreplying hi.1 hstat (by omega), hp.dequeue hpc (hinit hfree) hsome⟩
    · rw [if_neg hi] at hn
      cases hn

theorem run_keeps (hs : Served handles s) (hp : Paced s) {i : Nat}
    (hn : s.next (.run i) = some s') : Served handles s' ∧ Paced s' := by
  have hmem := hs.mem_workers
  have hn' : s.run i = some s' := hn
  unfold FatServer.run at hn'
  cases hpc : s.pc with
  | waiting => simp [hpc] at hn'
  | yielding =>
    simp only [hpc] at hn'
    cases hn'
    refine ⟨hs.control rfl rfl rfl rfl rfl rfl rfl rfl rfl (fun h => by cases h),
      hp.goes (by simp) (by simp) False.elim ?_ hmem s.newRequestPopped⟩
    intro w hw _
    exact ⟨Nat.le_refl 1, (by decide : ∀ w ∈ workerThreads, 1 ≤ w) w hw⟩
  | collecting j =>
    simp only [hpc] at hn'
    by_cases hj : j ∈ workerThreads
    · rw [if_pos hj] at hn'
      cases hn'
      have hcollect := hs.collect (i := j) (by rw [hpc]; simp)
      exact ⟨hcollect.control rfl rfl rfl rfl rfl rfl rfl rfl rfl (fun h => by cases h),
        hp.collect hpc⟩
    · rw [if_neg hj] at hn'
      cases hn'
      refine ⟨hs.control rfl rfl rfl rfl rfl rfl rfl rfl rfl (fun h => by cases h),
        hp.goes (by simp) (by simp) False.elim ?_ hmem false⟩
      -- no worker is left after the last one
      intro w hw hunsettled
      rw [hpc] at hunsettled
      have hle : w ≤ 4 := (by decide : ∀ w ∈ workerThreads, w ≤ 4) w hw
      obtain ⟨hone, hjw⟩ := hunsettled
      have hall : ∀ j, j < 5 → 1 ≤ j → j ∈ workerThreads := by decide
      exact hj (hall j (by omega) hone)
  | popping =>
    simp only [hpc] at hn'
    exact pop_keeps hs hp hpc hn'
  | sizing =>
    simp only [hpc] at hn'
    cases hn'
    exact ⟨hs.control rfl rfl rfl rfl rfl rfl rfl rfl rfl (fun h => by cases h),
      hp.readCompletions hs hpc⟩
  | publishing =>
    simp only [hpc] at hn'
    cases hn'
    exact ⟨hs.publish, hp.publish hs hpc⟩
  | replying =>
    simp only [hpc] at hn'
    cases hn'
    exact ⟨hs.reply hpc, hp.reply hs hpc⟩

theorem wake_keeps (hs : Served handles s) (hp : Paced s) (hn : s.next .wake = some s') :
    Served handles s' := by
  simp only [FatServer.next] at hn
  by_cases hwake : s.pc = .waiting ∧ s.notified = true
  · rw [if_pos hwake] at hn
    cases hn
    obtain ⟨hdequeued, henqueued⟩ := hp.outside hwake.1
    exact hs.control rfl rfl rfl rfl hdequeued.symm henqueued.symm rfl rfl rfl
      (fun h => by cases h)
  · rw [if_neg hwake] at hn
    cases hn

theorem server_step (hs : Served handles s) (hp : Paced s) {a : EventStep ρ δ}
    (hguard : WithinCapacity handles s a) (hn : s.next a = some s') :
    Served handles s' ∧ Paced s' := by
  cases a with
  | publish c => exact ⟨hs.send c hguard.1 hguard.2 hn, hp.send c hn⟩
  | notify =>
    refine ⟨?_, hp.notify hn⟩
    simp only [FatServer.next] at hn
    split at hn
    · cases hn
      exact hs.control rfl rfl rfl rfl rfl rfl rfl rfl rfl id
    · cases hn
  | receive => exact ⟨hs.receive hn, hp.receive hn⟩
  | interrupt =>
    cases hn
    exact ⟨hs.control rfl rfl rfl rfl rfl rfl rfl rfl rfl id, hp.told s.unnotified⟩
  | wake => exact ⟨wake_keeps hs hp hn, hp.wake hn⟩
  | finish w status result => exact ⟨hs.finish hguard hn, hp.finish hn⟩
  | run i => exact run_keeps hs hp hn

theorem server_start (h : ServerStart s) : Served handles s ∧ Paced s := by
  obtain ⟨h₁, h₂, h₃, h₄, hfree, hidle, hpc, hinit, hdequeued, henqueued, -, -, hsent,
    hreceived, hanswered⟩ := h
  have hflight : s.inFlight = [] := by
    unfold FatServer.inFlight
    simp [hfree]
  have hmirrors : ∀ {α : Type} (q : FsQueue α), q.head = 0 → q.tail = 0 →
      q.Mirrors fsQueueCapacity [] 0 := by
    intro α q hhead htail
    cases q
    subst hhead htail
    exact .empty _ _
  have hnone : ∀ w, (s.pool w).stat ≠ .inUse := by
    intro w
    rw [hfree w]
    simp
  constructor
  · exact
      { commands := by rw [hsent]; exact hmirrors _ h₁ h₂
        completions := by
          unfold FatServer.written
          rw [hanswered, henqueued]
          exact hmirrors _ h₃ h₄
        received := by
          unfold FatServer.written
          rw [hreceived, hanswered, h₃]
          rfl
        taken_le := by
          unfold FatServer.taken
          rw [h₁, hdequeued]
          exact Nat.zero_le _
        published := by rw [h₄]; exact Nat.zero_le _
        once := by rw [hsent, hanswered, hflight]; simp
        answers := by rw [hanswered]; intro p hp; cases hp
        finished := fun w huse => absurd huse (hnone w)
        mem_workers := fun w huse => absurd huse (hnone w)
        outstanding := by rw [hsent]; exact Nat.zero_le _
        replying := fun _ => hdequeued }
  · exact
      { active_inUse := by
          intro w hw
          rw [hidle w] at hw
          cases hw
        settled := fun w huse => absurd huse (hnone w)
        counted := by intro h; rw [hpc] at h; cases h
        sized := by intro h; rw [hinit] at h; cases h
        unsized := fun _ => hdequeued
        outside := fun _ => ⟨hdequeued, henqueued⟩
        drained := by
          intro _ _ _
          unfold FatServer.taken
          rw [h₁, hdequeued, hsent]
          rfl }

theorem server_runs {ls : List (EventStep ρ δ)}
    (run : Run ServerStart FatServer.next (WithinCapacity handles) ls s) :
    Served handles s ∧ Paced s :=
  run.invariant (I := fun s => Served handles s ∧ Paced s) (fun _ h => server_start h)
    fun _ _ _ h hguard hn => server_step h.1 h.2 hguard hn

/--
Every command of a known type is answered once. In every run in which the
client has at most as many commands outstanding as a ring has entries: what the
client has read is the beginning of the completions written, in order and each
with the number and a result of its command; and the commands sent are the ones
answered, the ones that a worker has and the ones still in the ring.
-/
theorem commands_answered_once {ls : List (EventStep ρ δ)}
    (run : Run ServerStart FatServer.next (WithinCapacity handles) ls s) :
    s.received <+: s.answered.map Prod.snd ∧
      (∀ p ∈ s.answered, Answers handles p.1 p.2) ∧
      (s.sent.filter FsCmd.valid).Perm
        (s.answered.map Prod.fst ++ s.inFlight ++
          (s.sent.drop s.taken).filter FsCmd.valid) := by
  obtain ⟨hs, -⟩ := server_runs run
  refine ⟨?_, hs.answers, ?_⟩
  · rw [hs.received]
    exact List.take_prefix _ _
  · have hsplit : s.sent.filter FsCmd.valid =
        (s.sent.take s.taken).filter FsCmd.valid ++ (s.sent.drop s.taken).filter FsCmd.valid := by
      rw [← List.filter_append, List.take_append_drop]
    rw [hsplit]
    exact hs.once.append_right _

/--
The server waits only when there is nothing it could do: every worker is free
with its last completion published, or blocked; and with no notification left
or still to be sent and a worker free, the command ring is empty.
-/
theorem waiting_drained {ls : List (EventStep ρ δ)}
    (run : Run ServerStart FatServer.next (WithinCapacity handles) ls s)
    (hpc : s.pc = .waiting) :
    (∀ w, (s.pool w).stat = .inUse ↔ s.active w = true) ∧
      s.completions.tail.toNat = s.answered.length ∧
      (s.notified = false → s.unnotified = false → s.freeHandleAvailable = true →
        s.commands.head = s.commands.tail) := by
  obtain ⟨hs, hp⟩ := server_runs run
  obtain ⟨hdequeued, henqueued⟩ := hp.outside hpc
  refine ⟨?_, ?_, ?_⟩
  · intro w
    constructor
    · intro huse
      cases hactive : s.active w with
      | true => rfl
      | false =>
        have hunsettled := hp.settled w huse hactive
        rw [hpc] at hunsettled
        cases hunsettled
    · exact hp.active_inUse w
  · have htail := hs.completions.tail_add
    rw [henqueued, Served.written_length] at htail
    exact htail
  · intro hno hunsent hfree
    have hsilent : s.silent = true := by simp [FatServer.silent, hno, hunsent]
    have htaken := hp.drained (by rw [hpc]; trivial) hsilent hfree
    have htail := hs.commands.tail_add
    unfold FatServer.taken at htaken
    exact BitVec.eq_of_toNat_eq (by omega)

end Server

/-! ## One call -/

def demoServer : FatServer Nat Nat where
  commands := ⟨0, 0, fun _ => ⟨0, 0, 0⟩⟩
  completions := ⟨0, 0, fun _ => ⟨0, 0, 0⟩⟩
  pool _ := ⟨0, 0, 0, 0, 0, .free⟩
  active _ := false
  pc := .waiting
  newRequestPopped := false
  queueSizeInit := false
  commandQueueSize := 0
  completionQueueSize := 0
  dequeued := 0
  enqueued := 0
  notified := false
  unnotified := false
  sent := []
  received := []
  answered := []

/-- Every operation succeeds and counts one up. -/
def demoHandlers : Handlers Nat Nat := fun _ params status result =>
  status = 0 ∧ result = params + 1

instance (op : Operation) (params status result : Nat) :
    Decidable (demoHandlers op params status result) := inferInstanceAs (Decidable (_ ∧ _))

/-- One call for a command to open a file and one of an unknown type. -/
def demoCall : List (EventStep Nat Nat) :=
  [.publish ⟨7, 2, 40⟩, .publish ⟨8, 25, 0⟩, .notify, .wake] ++ List.replicate 8 (.run 0) ++
    [.run 1, .run 2, .run 2, .finish 1 0 41] ++ List.replicate 7 (.run 0) ++
    [.run 0, .run 0, .receive]

theorem demoServer_start : ServerStart demoServer :=
  ⟨rfl, rfl, rfl, rfl, fun _ => rfl, fun _ => rfl, rfl, rfl, rfl, rfl, rfl, rfl, rfl, rfl, rfl⟩

theorem demoServer_reaches (as : List (EventStep Nat Nat)) {P : FatServer Nat Nat → Prop}
    [DecidablePred P]
    (hg : Run.Guarded FatServer.next (WithinCapacity demoHandlers) demoServer as)
    (h : (Run.steps FatServer.next demoServer as).any (fun s => decide (P s)) = true) :
    ∃ s, Run ServerStart FatServer.next (WithinCapacity demoHandlers) as s ∧ P s :=
  Run.exists_of_steps demoServer_start hg h

theorem commands_answered_once_demo : ∃ s : FatServer Nat Nat,
    s.received = [⟨7, 0, 41⟩] ∧ s.received <+: s.answered.map Prod.snd := by
  obtain ⟨s, run, hreceived⟩ := demoServer_reaches demoCall
    (P := fun s => s.received = [⟨7, 0, 41⟩]) (by decide +kernel) (by decide +kernel)
  exact ⟨s, hreceived, (commands_answered_once run).1⟩

theorem waiting_drained_demo : ∃ s : FatServer Nat Nat,
    s.sent.length = 2 ∧ s.notified = false ∧ s.commands.head = s.commands.tail := by
  obtain ⟨s, run, hpc, hsent, hno, hunsent, hfree⟩ := demoServer_reaches demoCall
    (P := fun s => s.pc = .waiting ∧ s.sent.length = 2 ∧ s.notified = false ∧
      s.unnotified = false ∧ s.freeHandleAvailable = true) (by decide +kernel) (by decide +kernel)
  exact ⟨s, hsent, hno, (waiting_drained run hpc).2.2 hno hunsent hfree⟩

end Smos.Fat
