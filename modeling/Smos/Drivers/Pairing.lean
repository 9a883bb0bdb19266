/-
Smos.Drivers.Pairing — the two virtualizers of the Ethernet and serial drivers.

`virt_reg` has the kind of every client that has one, so two clients never
have the same kind. A client can register again with the other kind; then
both kinds are taken, no other client gets one, and the loop never returns.
Otherwise each client's regions are at the addresses of its kind. What the
addresses do not settle is how long a data region of the serial driver is.
-/
import Smos.Drivers.Covered

namespace Smos.Drivers

open Smos.Base
open Smos.RootServer (InvocationError HandleOrHandleCap)
open Smos.Ipc (QueueType VirtType)

/-! ## Clients that a driver serves -/

def RegionResource.Disjoint (r r' : RegionResource) : Prop :=
  r.vaddr + r.size ≤ r'.vaddr ∨ r'.vaddr + r'.size ≤ r.vaddr

/-- The address that a driver reserves for a queue of a kind of virtualizer. -/
def Kind.queueAddress : Kind → VirtType → QueueSlot → Option Nat
  | .ethDriver, .rx, .active => some EthDriver.virtRxActive
  | .ethDriver, .rx, .free => some EthDriver.virtRxFree
  | .ethDriver, .tx, .active => some EthDriver.virtTxActive
  | .ethDriver, .tx, .free => some EthDriver.virtTxFree
  | .serialDriver, .rx, .serial => some SerialDriver.virtRxQueue
  | .serialDriver, .tx, .serial => some SerialDriver.virtTxQueue
  | _, _, _ => none

/-- The address that a driver reserves for the data region of a kind of virtualizer. -/
def Kind.dataAddress : Kind → VirtType → Option Nat
  | .serialDriver, .rx => some SerialDriver.virtRxData
  | .serialDriver, .tx => some SerialDriver.virtTxData
  | _, _ => none

/-- An initialised virtualizer of a kind, with its regions where they belong. -/
structure Client.Serves (c : Client) (kind : Kind) (v : VirtType) (h : Holdings) : Prop where
  virtType : c.virtType = some v
  initialized : kind.initialized c = true
  channel : c.channel.isSome
  queue : ∀ slot q, c.queue slot = some q → q.MappedIn h ∧ kind.queueAddress v slot = some q.vaddr
  data : ∀ r, c.data = some r → r.MappedIn h ∧ kind.dataAddress v = some r.vaddr

/-- One virtualizer of each kind, with regions apart, and assigned as what they are. -/
structure Paired (kind : Kind) (h : Holdings) (clients : List (Option Client))
    (rx tx : Client) : Prop where
  both : clients = [some rx, some tx] ∨ clients = [some tx, some rx]
  receives : rx.Serves kind .rx h
  transmits : tx.Serves kind .tx h
  disjoint : ∀ r r' : RegionResource, rx.Region r → tx.Region r' → r.Disjoint r'
  assigned : ∀ c, assignVirts clients c = .ok (rx, tx) c

/-! ## The invariant -/

/-- A client in an entry. -/
def PreInit.At (s : PreInit) (k : Nat) (c : Client) : Prop := s.clients[k]? = some (some c)

/-- A client's regions are where its present kind has them. -/
structure Client.Placed (l : Layout) (c : Client) : Prop where
  queue : ∀ slot q, c.queue slot = some q → l.queueAt c slot = some q.vaddr
  data : ∀ r, c.data = some r → r.vaddr = l.dataAt c

/-- Both kinds are taken, and at most one client has one. -/
def Spent (s : PreInit) : Prop :=
  (∀ v, v ∈ s.virtReg) ∧ ∃ k, ∀ j c, j ≠ k → s.At j c → c.virtType = none

structure Pairs (l : Layout) (s : PreInit) : Prop where
  status : ∀ k c v, s.At k c → c.virtType = some v → v ∈ s.virtReg
  differ : ∀ j k c d v, s.At j c → s.At k d → c.virtType = some v → d.virtType = some v → j = k
  placed : (∀ k c, s.At k c → c.Placed l) ∨ Spent s

/-- A layout in which a region says that its client has a kind. -/
structure Layout.Kinded (l : Layout) : Prop where
  queue : ∀ c, l.queueReady c = true → c.virtType.isSome
  data : ∀ c, l.dataReady c = true → ∃ slot, (c.queue slot).isSome
  queueAt : ∀ c c' : Client, c.virtType = c'.virtType → l.queueAt c = l.queueAt c'
  dataAt : ∀ c c' : Client, c.virtType = c'.virtType → l.dataAt c = l.dataAt c'

theorem virtType_eq {u v w : VirtType} (hu : u ≠ v) (hw : w ≠ v) : w = u := by
  cases u <;> cases v <;> cases w <;> simp_all

/-- Whether a step gives its client a new kind. -/
theorem kind_step {l : Layout} {inv : Invocation} {t t' : Turn} (h : ClientStep l inv t t') :
    t'.client.virtType = t.client.virtType ∧ t'.virtReg = t.virtReg ∨
      ∃ v, v ∉ t.virtReg ∧ t'.client.virtType = some v ∧ t'.virtReg = v :: t.virtReg ∧
        t'.client.queue = t.client.queue ∧ t'.client.data = t.client.data := by
  cases h with
  | unchanged hc hr => exact .inl ⟨(congrArg Client.virtType hc).trans rfl, hr⟩
  | channel ch virtType hbit hcap hfresh hc hr =>
    cases virtType with
    | none => exact .inl ⟨(congrArg Client.virtType hc).trans rfl, hr⟩
    | some v =>
      exact .inr ⟨v, hfresh v rfl, (congrArg Client.virtType hc).trans rfl, hr,
        (congrArg Client.queue hc).trans rfl, (congrArg Client.data hc).trans rfl⟩
  | queue slot q hready hat hsize hnone hm hc hr =>
    exact .inl ⟨(congrArg Client.virtType hc).trans rfl, hr⟩
  | data cap size r hinv hready hat hsize hm hw hc hr =>
    exact .inl ⟨(congrArg Client.virtType hc).trans rfl, hr⟩
  | flagged hready hc hr => exact .inl ⟨(congrArg Client.virtType hc).trans rfl, hr⟩

/-- A client that keeps its kind keeps its regions in place. -/
theorem placed_step {l : Layout} (hl : l.Kinded) {inv : Invocation} {t t' : Turn}
    (hp : t.client.Placed l) (hkind : t'.client.virtType = t.client.virtType)
    (h : ClientStep l inv t t') : t'.client.Placed l := by
  have hqueueAt := hl.queueAt _ _ hkind
  have hdataAt := hl.dataAt _ _ hkind
  refine ⟨fun slot q hq => ?_, fun r hr => ?_⟩
  · rw [hqueueAt]
    cases h with
    | unchanged hc _ => exact hp.queue slot q (hc ▸ hq)
    | channel ch virtType hbit hcap hfresh hc _ =>
      exact hp.queue slot q (by rw [hc] at hq; exact hq)
    | queue slot' q' hready hat hsize hnone hm hc _ =>
      rw [hc] at hq
      by_cases hs : slot = slot'
      · rw [hs, setQueue_self] at hq
        cases hq
        rw [hs, hat]
      · rw [setQueue_of_ne _ hs] at hq
        exact hp.queue slot q hq
    | data cap size r hinv hready hat hsize hm hw hc _ =>
      exact hp.queue slot q (by rw [hc] at hq; exact hq)
    | flagged hready hc _ => exact hp.queue slot q (by rw [hc] at hq; exact hq)
  · rw [hdataAt]
    cases h with
    | unchanged hc _ => exact hp.data r (hc ▸ hr)
    | channel ch virtType hbit hcap hfresh hc _ => exact hp.data r (by rw [hc] at hr; exact hr)
    | queue slot q hready hat hsize hnone hm hc _ => exact hp.data r (by rw [hc] at hr; exact hr)
    | data cap size r' hinv hready hat hsize hm hw hc _ =>
      rw [hc] at hr
      cases hr
      exact hat
    | flagged hready hc _ => exact hp.data r (by rw [hc] at hr; exact hr)

/-- A client without a kind has no regions. -/
theorem no_regions {l : Layout} (hl : l.Kinded) {c : Client} (hr : c.Ready l)
    (hkind : c.virtType = none) : (∀ slot, c.queue slot = none) ∧ c.data = none := by
  have hqueue : ∀ slot, c.queue slot = none := by
    intro slot
    cases hq : c.queue slot with
    | none => rfl
    | some q =>
      have hsome := hl.queue c (hr.queue slot (by rw [hq]; rfl))
      rw [hkind] at hsome
      cases hsome
  refine ⟨hqueue, ?_⟩
  cases hd : c.data with
  | none => rfl
  | some r =>
    obtain ⟨slot, hslot⟩ := hl.data c (hr.data (by rw [hd]; rfl))
    rw [hqueue slot] at hslot
    cases hslot

theorem pairs_handled {l : Layout} (hl : l.Kinded) {s s' : PreInit} {k : Nat} {client : Client}
    {inv : Invocation} {t : Turn} (hs : Pairs l s) (hready : client.Ready l) (hk : s.At k client)
    (hstep : ClientStep l inv ⟨s.component, client, s.virtReg⟩ t)
    (hc : s'.clients = s.clients.set k (some t.client)) (hr : s'.virtReg = t.virtReg) :
    Pairs l s' := by
  have hat : ∀ j c, s'.At j c → j ≠ k ∧ s.At j c ∨ j = k ∧ c = t.client := by
    intro j c hj
    unfold PreInit.At at hj
    rw [hc] at hj
    exact getElem?_of_set hj
  rcases kind_step hstep with ⟨hkind, hreg⟩ | ⟨v, hfresh, hkind, hreg, hqueue, hdata⟩
  · -- the kinds are as before
    have hold : ∀ j c, s'.At j c → ∃ d, s.At j d ∧ d.virtType = c.virtType := by
      intro j c hj
      rcases hat j c hj with ⟨-, ho⟩ | ⟨rfl, rfl⟩
      · exact ⟨c, ho, rfl⟩
      · exact ⟨client, hk, hkind.symm⟩
    refine ⟨fun j c v hj hv => ?_, fun i j c d v hi hj hv hv' => ?_, ?_⟩
    · obtain ⟨d, hd, hsame⟩ := hold j c hj
      rw [hr, hreg]
      exact hs.status j d v hd (hsame.trans hv)
    · obtain ⟨c₀, hc₀, hsame⟩ := hold i c hi
      obtain ⟨d₀, hd₀, hsame'⟩ := hold j d hj
      exact hs.differ i j c₀ d₀ v hc₀ hd₀ (hsame.trans hv) (hsame'.trans hv')
    · rcases hs.placed with hplaced | ⟨hall, k₀, hnone⟩
      · refine .inl fun j c hj => ?_
        rcases hat j c hj with ⟨-, ho⟩ | ⟨rfl, rfl⟩
        · exact hplaced j c ho
        · exact placed_step hl (hplaced j client hk) hkind hstep
      · refine .inr ⟨fun v => ?_, k₀, fun j c hne hj => ?_⟩
        · rw [hr, hreg]
          exact hall v
        · obtain ⟨d, hd, hsame⟩ := hold j c hj
          rw [← hsame]
          exact hnone j d hne hd
  · -- the client has a kind that no client had
    have hreg' : s'.virtReg = v :: s.virtReg := hr.trans hreg
    have hother : ∀ j c, s'.At j c → c.virtType = some v → j = k := by
      intro j c hj hv
      rcases hat j c hj with ⟨-, ho⟩ | ⟨rfl, -⟩
      · exact absurd (hs.status j c v ho hv) hfresh
      · rfl
    refine ⟨fun j c w hj hw => ?_, fun i j c d w hi hj hw hw' => ?_, ?_⟩
    · rw [hreg']
      rcases hat j c hj with ⟨-, ho⟩ | ⟨rfl, rfl⟩
      · exact List.mem_cons_of_mem _ (hs.status j c w ho hw)
      · rw [hkind] at hw
        cases hw
        exact List.mem_cons_self ..
    · by_cases hwv : w = v
      · rw [hwv] at hw hw'
        exact (hother i c hi hw).trans (hother j d hj hw').symm
      · have hold : ∀ j c, s'.At j c → c.virtType = some w → s.At j c := by
          intro j c hj hw
          rcases hat j c hj with ⟨-, ho⟩ | ⟨rfl, rfl⟩
          · exact ho
          · rw [hkind] at hw
            exact absurd (Option.some.inj hw).symm hwv
        exact hs.differ i j c d w (hold i c hi hw) (hold j d hj hw') hw hw'
    · rcases hs.placed with hplaced | ⟨hall, -⟩
      · cases hclient : client.virtType with
        | none =>
          obtain ⟨hnoqueue, hnodata⟩ := no_regions hl hready hclient
          refine .inl fun j c hj => ?_
          rcases hat j c hj with ⟨-, ho⟩ | ⟨rfl, rfl⟩
          · exact hplaced j c ho
          · refine ⟨fun slot q hq => ?_, fun r hr => ?_⟩
            · rw [hqueue, hnoqueue slot] at hq
              cases hq
            · rw [hdata, hnodata] at hr
              cases hr
        | some u =>
          have hu := hs.status k client u hk hclient
          have huv : u ≠ v := fun h => hfresh (h ▸ hu)
          refine .inr ⟨fun w => ?_, k, fun j c hne hj => ?_⟩
          · rw [hreg']
            by_cases hwv : w = v
            · exact hwv ▸ List.mem_cons_self ..
            · exact List.mem_cons_of_mem _ (virtType_eq huv hwv ▸ hu)
          · rcases hat j c hj with ⟨-, ho⟩ | ⟨hjk, -⟩
            · cases hcv : c.virtType with
              | none => rfl
              | some w =>
                have hwv : w ≠ v := fun h => hfresh (h ▸ hs.status j c w ho hcv)
                rw [virtType_eq huv hwv] at hcv
                exact absurd (hs.differ j k c client u ho hk hcv hclient) hne
            · exact absurd hjk hne
      · exact absurd (hall v) hfresh

theorem pairs_step {l : Layout} (hl : l.Kinded) {s s' : PreInit} {ev : Event} (hs : Pairs l s)
    (hsound : EachClient (Client.Sound l) s) (hstep : LoopStep l ev s s') : Pairs l s' := by
  cases hstep with
  | kept hg hc hr =>
    have hat : ∀ j c, s'.At j c ↔ s.At j c := fun j c => by unfold PreInit.At; rw [hc]
    refine ⟨fun j c v hj hv => ?_, fun i j c d v hi hj hv hv' => ?_, ?_⟩
    · exact hr ▸ hs.status j c v ((hat j c).mp hj) hv
    · exact hs.differ i j c d v ((hat i c).mp hi) ((hat j d).mp hj) hv hv'
    · rcases hs.placed with hplaced | ⟨hall, k, hnone⟩
      · exact .inl fun j c hj => hplaced j c ((hat j c).mp hj)
      · exact .inr ⟨fun v => hr ▸ hall v, k, fun j c hne hj => hnone j c hne ((hat j c).mp hj)⟩
  | opened slot id hndl hslot hid hg hc hr =>
    have hat : ∀ j c, s'.At j c → s.At j c ∨ c = Client.new id hndl := by
      intro j c hj
      unfold PreInit.At at hj
      rw [hc] at hj
      rcases getElem?_of_set hj with ⟨-, ho⟩ | ⟨-, hnew⟩
      · exact .inl ho
      · exact .inr hnew
    have hkinded : ∀ j c v, s'.At j c → c.virtType = some v → s.At j c := by
      intro j c v hj hv
      rcases hat j c hj with ho | rfl
      · exact ho
      · cases hv
    refine ⟨fun j c v hj hv => ?_, fun i j c d v hi hj hv hv' => ?_, ?_⟩
    · exact hr ▸ hs.status j c v (hkinded j c v hj hv) hv
    · exact hs.differ i j c d v (hkinded i c v hi hv) (hkinded j d v hj hv') hv hv'
    · rcases hs.placed with hplaced | ⟨hall, k, hnone⟩
      · refine .inl fun j c hj => ?_
        rcases hat j c hj with ho | rfl
        · exact hplaced j c ho
        · exact ⟨nofun, nofun⟩
      · refine .inr ⟨fun v => hr ▸ hall v, k, fun j c hne hj => ?_⟩
        rcases hat j c hj with ho | rfl
        · exact hnone j c hne ho
        · rfl
  | handled k id inv client t hev hid hk hst hcomp hc hr =>
    exact pairs_handled hl hs (hsound k client hk).1 hk hst.client hc hr

/-! ## The data regions of the serial driver -/

/-- A client that is registered for receiving does not provide a data region that would reach the
address of the transmit one while that one is there. -/
def Kind.fitsData (kind : Kind) (s : PreInit) (ev : Event) : Bool :=
  match kind, ev with
  | .serialDriver, .invocation id (.provideDataRegion _ size) =>
    !(s.clients.any (fun entry => entry.any fun c => c.id == id && c.virtType == some .rx) &&
      s.clients.any fun entry => entry.any fun c => c.virtType == some .tx && c.data.isSome) ||
    decide (SerialDriver.virtRxData + size ≤ SerialDriver.virtTxData)
  | _, _ => true

/-- The receive region ends where the transmit region begins, or before. -/
def DataApart (s : PreInit) : Prop :=
  ∀ j k c d r r', s.At j c → s.At k d → c.virtType = some .rx → d.virtType = some .tx →
    c.data = some r → d.data = some r' →
    SerialDriver.virtRxData + r.size ≤ SerialDriver.virtTxData

theorem data_step {l : Layout} {inv : Invocation} {t t' : Turn} (h : ClientStep l inv t t') :
    t'.client.data = t.client.data ∨
      ∃ cap size r, inv = .provideDataRegion cap size ∧ t'.client.data = some r ∧
        r.vaddr = l.dataAt t.client ∧ r.size = l.dataSize size ∧
        r.Opened t.component.held t'.component.held := by
  cases h with
  | unchanged hc _ => exact .inl (congrArg Client.data hc)
  | channel ch virtType hbit hcap hfresh hc _ => exact .inl ((congrArg Client.data hc).trans rfl)
  | queue slot q hready hat hsize hnone hm hc _ => exact .inl ((congrArg Client.data hc).trans rfl)
  | data cap size r hinv hready hat hsize hm hw hc _ =>
    exact .inr ⟨cap, size, r, hinv, (congrArg Client.data hc).trans rfl, hat, hsize, hw⟩
  | flagged hready hc _ => exact .inl ((congrArg Client.data hc).trans rfl)

theorem at_mem {s : PreInit} {k : Nat} {c : Client} (h : s.At k c) : some c ∈ s.clients :=
  List.mem_of_getElem? h

namespace SerialDriver

theorem kinded : layout.Kinded where
  queue _ h := h
  data _ h := ⟨.serial, h⟩
  queueAt c c' h := by
    funext slot
    cases slot <;> simp [layout, byKind, h]
  dataAt c c' h := by simp [layout, dataAddress, h]

/-- What the guard says about the client that makes the step. -/
theorem fits_of_guard {s : PreInit} {id cap size k k' : Nat} {client d : Client} {r : DMARegion}
    (hguard : Kind.serialDriver.fitsData s (.invocation id (.provideDataRegion cap size)) = true)
    (hid : findClientFromId id s.clients = some k) (hk : s.At k client) (hd : s.At k' d)
    (hrx : client.virtType = some .rx) (htx : d.virtType = some .tx) (hr : d.data = some r) :
    virtRxData + size ≤ virtTxData := by
  have hmem := findClientFromId_id hid hk
  have hany : s.clients.any (fun entry => entry.any fun c => c.id == id && c.virtType == some .rx)
      = true := List.any_eq_true.mpr ⟨some client, at_mem hk, by simp [hmem, hrx]⟩
  have hany' : s.clients.any (fun entry => entry.any fun c => c.virtType == some .tx &&
      c.data.isSome) = true := List.any_eq_true.mpr ⟨some d, at_mem hd, by simp [htx, hr]⟩
  simpa [Kind.fitsData, hany, hany'] using hguard

/-- A client with a data region has the kind that it had before it got another one. -/
theorem old_kind {s : PreInit} {k : Nat} {client : Client}
    (hsound : EachClient (Client.Sound layout) s) (hk : s.At k client) {r : DMARegion}
    (hr : client.data = some r) : ∃ u, client.virtType = some u := by
  cases hkind : client.virtType with
  | some u => exact ⟨u, rfl⟩
  | none =>
    have hnone := (no_regions kinded (hsound k client hk).1 hkind).2
    rw [hnone] at hr
    cases hr

/-- In a state with a client of each kind, the regions are in place. -/
theorem placed_of_both {s : PreInit} (hs : Pairs layout s) {j k : Nat} {c d : Client}
    (hj : s.At j c) (hk : s.At k d) (hc : c.virtType = some .rx) (hd : d.virtType = some .tx) :
    c.Placed layout := by
  rcases hs.placed with hplaced | ⟨-, k₀, hnone⟩
  · exact hplaced j c hj
  · by_cases hjk : j = k₀
    · by_cases hkk : k = k₀
      · -- one client does not have both kinds
        subst hjk hkk
        cases hj.symm.trans hk
        rw [hc] at hd
        cases hd
      · rw [hnone k d hkk hk] at hd
        cases hd
    · rw [hnone j c hjk hj] at hc
      cases hc

theorem dataApart_handled {s s' : PreInit} {k id : Nat} {client : Client} {inv : Invocation}
    {t : Turn} (hs : DataApart s) (hpairs : Pairs layout s)
    (hsound : EachClient (Client.Sound layout) s)
    (hguard : Kind.serialDriver.fitsData s (.invocation id inv) = true)
    (hid : findClientFromId id s.clients = some k) (hk : s.At k client)
    (hstep : ClientStep layout inv ⟨s.component, client, s.virtReg⟩ t)
    (hc : s'.clients = s.clients.set k (some t.client)) : DataApart s' := by
  have hat : ∀ j c, s'.At j c → j ≠ k ∧ s.At j c ∨ j = k ∧ c = t.client := by
    intro j c hj
    unfold PreInit.At at hj
    rw [hc] at hj
    exact getElem?_of_set hj
  -- a new kind and a data region leave the other client without a kind
  have hfirst : ∀ {v w j d r}, v ∉ s.virtReg → client.data = some r → j ≠ k → s.At j d →
      d.virtType = some w → v ≠ w → False := by
    intro v w j d r hfresh hr hne hd hw hvw
    obtain ⟨u, hu⟩ := old_kind hsound hk hr
    have huv : u ≠ v := fun h => hfresh (h ▸ hpairs.status k client u hk hu)
    rw [← virtType_eq (Ne.symm hvw) huv] at hw
    exact hne (hpairs.differ j k d client u hd hk hw hu)
  intro i j c d r r' hi hj hrx htx hr hr'
  rcases hat i c hi with ⟨hik, hi⟩ | ⟨rfl, rfl⟩
  · rcases hat j d hj with ⟨hjk, hj⟩ | ⟨rfl, rfl⟩
    · exact hs i j c d r r' hi hj hrx htx hr hr'
    · -- the transmit client has made the step
      rcases kind_step hstep with ⟨hkind, -⟩ | ⟨v, hfresh, hkind, -, -, hdata⟩
      · have htx' : client.virtType = some .tx := hkind.symm.trans htx
        rcases data_step hstep with hdata | ⟨cap, size, r₀, -, hnew, hvaddr, -, hopened⟩
        · exact hs i j c client r r' hi hk hrx htx' hr (hdata.symm.trans hr')
        · rw [hnew] at hr'
          cases hr'
          have hplaced := placed_of_both hpairs hi hk hrx htx'
          have hmapped := (hsound i c hi).2.data r hr
          have hapart := hopened.apart _ hmapped.window
          have hat₁ : r.vaddr = virtRxData := by
            rw [hplaced.data r hr]
            simp [layout, dataAddress, hrx]
          have hat₂ : r'.vaddr = virtTxData := by
            rw [hvaddr]
            simp [layout, dataAddress, htx']
          simp only [Window.overlaps, Bool.or_eq_false_iff, Bool.and_eq_false_iff,
            decide_eq_false_iff_not, hat₁, hat₂] at hapart
          have hle : virtRxData ≤ virtTxData := by decide
          omega
      · rw [hkind] at htx
        cases htx
        exact (hfirst hfresh (hdata.symm.trans hr') hik hi hrx (by decide)).elim
  · rcases hat j d hj with ⟨hjk, hj⟩ | ⟨-, rfl⟩
    · -- the receive client has made the step
      rcases kind_step hstep with ⟨hkind, -⟩ | ⟨v, hfresh, hkind, -, -, hdata⟩
      · have hrx' : client.virtType = some .rx := hkind.symm.trans hrx
        rcases data_step hstep with hdata | ⟨cap, size, r₀, hinv, hnew, -, hsize, -⟩
        · exact hs i j client d r r' hk hj hrx' htx (hdata.symm.trans hr) hr'
        · rw [hnew] at hr
          cases hr
          rw [hsize]
          exact fits_of_guard (hinv ▸ hguard) hid hk hj hrx' htx hr'
      · rw [hkind] at hrx
        cases hrx
        exact (hfirst hfresh (hdata.symm.trans hr) hjk hj htx (by decide)).elim
    · rw [hrx] at htx
      cases htx

theorem dataApart_step {s s' : PreInit} {ev : Event} (hs : DataApart s)
    (hpairs : Pairs layout s) (hsound : EachClient (Client.Sound layout) s)
    (hguard : Kind.serialDriver.fitsData s ev = true) (hstep : LoopStep layout ev s s') :
    DataApart s' := by
  cases hstep with
  | kept hg hc hr =>
    intro i j c d r r' hi hj
    unfold PreInit.At at hi hj
    rw [hc] at hi hj
    exact hs i j c d r r' hi hj
  | opened slot id hndl hslot hid hg hc hr =>
    have hold : ∀ j c r, s'.At j c → c.data = some r → s.At j c := by
      intro j c r hj hr
      unfold PreInit.At at hj
      rw [hc] at hj
      rcases getElem?_of_set hj with ⟨-, ho⟩ | ⟨-, rfl⟩
      · exact ho
      · cases hr
    intro i j c d r r' hi hj hrx htx hr hr'
    exact hs i j c d r r' (hold i c r hi hr) (hold j d r' hj hr') hrx htx hr hr'
  | handled k id inv client t hev hid hk hst hcomp hc hr =>
    exact dataApart_handled hs hpairs hsound (hev ▸ hguard) hid hk hst.client hc

end SerialDriver

/-! ## What the loop returns -/

/-- The drivers that wait for two virtualizers. -/
def Kind.Two (kind : Kind) : Prop := kind = .ethDriver ∨ kind = .serialDriver

theorem EthDriver.kinded : layout.Kinded where
  queue _ h := h
  data _ h := nomatch h
  queueAt c c' h := by
    funext slot
    cases slot <;> simp [layout, byKind, h]
  dataAt _ _ _ := rfl

theorem Kind.Two.kinded {kind : Kind} (h : kind.Two) : kind.layout.Kinded := by
  rcases h with rfl | rfl
  · exact EthDriver.kinded
  · exact SerialDriver.kinded

/-- The layout gives a client of a kind the addresses of this kind. -/
theorem Kind.Two.queueAt {kind : Kind} (h : kind.Two) {c : Client} {v : VirtType}
    (hv : c.virtType = some v) (slot : QueueSlot) :
    kind.layout.queueAt c slot = kind.queueAddress v slot := by
  rcases h with rfl | rfl <;> cases slot <;> cases v <;>
    simp [Kind.layout, EthDriver.layout, SerialDriver.layout, byKind, hv, Kind.queueAddress]

theorem Kind.Two.serves {kind : Kind} (h : kind.Two) {k : Nat} {held : Holdings} {c : Client}
    {v : VirtType} (hsound : Client.Sound kind.layout k held c) (hplaced : c.Placed kind.layout)
    (hv : c.virtType = some v) (hi : kind.initialized c = true) : c.Serves kind v held where
  virtType := hv
  initialized := hi
  channel := hsound.1.kind (by rw [hv]; rfl)
  queue slot q hq :=
    ⟨(hsound.2.queue slot q hq).1, h.queueAt hv slot ▸ hplaced.queue slot q hq⟩
  data r hr := by
    refine ⟨hsound.2.data r hr, ?_⟩
    rcases h with rfl | rfl
    · have hready := hsound.1.data (by rw [hr]; rfl)
      cases hready
    · rw [hplaced.data r hr]
      cases v <;> simp [Kind.layout, SerialDriver.layout, SerialDriver.dataAddress, hv,
        Kind.dataAddress]

theorem EthDriver.region_of_serves {v : VirtType} {k : Nat} {held : Holdings} {c : Client}
    (hsound : Client.Sound layout k held c) (hs : c.Serves .ethDriver v held)
    {r : RegionResource} (hr : c.Region r) :
    ∃ slot, Kind.ethDriver.queueAddress v slot = some r.vaddr ∧ r.size = rxQueueSize := by
  cases hr with
  | queue slot q hq => exact ⟨slot, (hs.queue slot q hq).2, (hsound.2.queue slot q hq).2⟩
  | data r hr => exact absurd (hs.data r hr).2 nofun

theorem EthDriver.disjoint {j k : Nat} {held : Holdings} {rx tx : Client}
    (hsrx : Client.Sound layout j held rx) (hstx : Client.Sound layout k held tx)
    (hrx : rx.Serves .ethDriver .rx held) (htx : tx.Serves .ethDriver .tx held)
    (r r' : RegionResource) (hr : rx.Region r) (hr' : tx.Region r') : r.Disjoint r' := by
  obtain ⟨slot, hat, hsize⟩ := region_of_serves hsrx hrx hr
  obtain ⟨slot', hat', hsize'⟩ := region_of_serves hstx htx hr'
  left
  cases slot <;> simp only [Kind.queueAddress, reduceCtorEq, Option.some.injEq] at hat <;>
    cases slot' <;> simp only [Kind.queueAddress, reduceCtorEq, Option.some.injEq] at hat' <;>
    rw [← hat, ← hat', hsize] <;> decide

theorem SerialDriver.region_of_serves {v : VirtType} {k : Nat} {held : Holdings} {c : Client}
    (hsound : Client.Sound layout k held c) (hs : c.Serves .serialDriver v held)
    {r : RegionResource} (hr : c.Region r) :
    (Kind.serialDriver.queueAddress v .serial = some r.vaddr ∧ r.size = rxQueueSize) ∨
      ∃ d, c.data = some d ∧ r = d.region ∧ Kind.serialDriver.dataAddress v = some r.vaddr := by
  cases hr with
  | queue slot q hq =>
    obtain ⟨-, hat⟩ := hs.queue slot q hq
    cases slot with
    | serial => exact .inl ⟨hat, (hsound.2.queue .serial q hq).2⟩
    | active | free | request | response => cases v <;> cases hat
  | data d hd => exact .inr ⟨d, hd, rfl, (hs.data d hd).2⟩

theorem SerialDriver.disjoint {j k : Nat} {held : Holdings} {rx tx : Client}
    (hsrx : Client.Sound layout j held rx) (hstx : Client.Sound layout k held tx)
    (hrx : rx.Serves .serialDriver .rx held) (htx : tx.Serves .serialDriver .tx held)
    (hfits : ∀ d d', rx.data = some d → tx.data = some d' → virtRxData + d.size ≤ virtTxData)
    (r r' : RegionResource) (hr : rx.Region r) (hr' : tx.Region r') : r.Disjoint r' := by
  unfold RegionResource.Disjoint
  rcases region_of_serves hsrx hrx hr with ⟨hat, hsize⟩ | ⟨d, hd, rfl, hat⟩
  · rcases region_of_serves hstx htx hr' with ⟨hat', -⟩ | ⟨d', -, rfl, hat'⟩
    · left
      rw [← Option.some.inj hat, ← Option.some.inj hat', hsize]
      decide
    · left
      rw [← Option.some.inj hat, ← Option.some.inj hat', hsize]
      decide
  · rcases region_of_serves hstx htx hr' with ⟨hat', hsize'⟩ | ⟨d', hd', rfl, hat'⟩
    · right
      rw [← Option.some.inj hat, ← Option.some.inj hat', hsize']
      decide
    · left
      rw [← Option.some.inj hat, ← Option.some.inj hat']
      exact hfits d d' hd hd'

/-- The match on the first client's kind finds the two kinds, in either order. -/
theorem assignVirts_eq {rx tx : Client} (hrx : rx.virtType = some .rx)
    (htx : tx.virtType = some .tx) {clients : List (Option Client)}
    (h : clients = [some rx, some tx] ∨ clients = [some tx, some rx]) (c : Component) :
    assignVirts clients c = .ok (rx, tx) c := by
  rcases h with rfl | rfl
  · show (Prog.unwrap .unwrapNone rx.virtType >>= _ : MainProg (Client × Client)) c = _
    rw [hrx]
    rfl
  · show (Prog.unwrap .unwrapNone tx.virtType >>= _ : MainProg (Client × Client)) c = _
    rw [htx]
    rfl

/-- What holds at any time in the drivers with two virtualizers. -/
structure Pairing (kind : Kind) (s : PreInit) : Prop where
  sound : EachClient (Client.Sound kind.layout) s
  pairs : Pairs kind.layout s
  apart : kind = .serialDriver → DataApart s

theorem pairing_start (kind : Kind) (n : Nat) (c : Component) :
    Pairing kind (PreInit.start n c) := by
  have hnone : ∀ k x, ¬ (PreInit.start n c).At k x := by
    intro k x hx
    have hmem := at_mem hx
    simp [PreInit.start] at hmem
  exact ⟨.start _ n c, ⟨fun k x _ hx => absurd hx (hnone k x),
    fun j _ x _ _ hx => absurd hx (hnone j x), .inl fun k x hx => absurd hx (hnone k x)⟩,
    fun _ j _ x _ _ _ hx => absurd hx (hnone j x)⟩

theorem pairing_step {kind : Kind} (h : kind.Two) {s s' : PreInit} {ev : Event}
    (hs : Pairing kind s) (hguard : kind.fitsData s ev = true)
    (hstep : LoopStep kind.layout ev s s') : Pairing kind s' where
  sound := sound_step kind.monotone hs.sound hstep
  pairs := pairs_step h.kinded hs.pairs hs.sound hstep
  apart := by
    rintro rfl
    exact SerialDriver.dataApart_step (hs.apart rfl) hs.pairs hs.sound hguard hstep

theorem Kind.Two.kind_of_initialized {kind : Kind} (h : kind.Two) {c : Client}
    (hr : c.Ready kind.layout) (hi : kind.initialized c = true) : ∃ v, c.virtType = some v := by
  rcases h with rfl | rfl
  · obtain ⟨hfree, -⟩ := (Bool.and_eq_true _ _).mp hi
    exact Option.isSome_iff_exists.mp (hr.queue .free hfree)
  · obtain ⟨hqueue, -⟩ := (Bool.and_eq_true _ _).mp hi
    exact Option.isSome_iff_exists.mp (hr.queue .serial hqueue)

/-- A receive and a transmit client in the two entries. -/
theorem Kind.Two.paired_of {kind : Kind} (h : kind.Two) {s : PreInit} (hs : Pairing kind s)
    {i j : Nat} {rx tx : Client} (hi : s.At i rx) (hj : s.At j tx)
    (hboth : s.clients = [some rx, some tx] ∨ s.clients = [some tx, some rx])
    (hrx : rx.virtType = some .rx) (htx : tx.virtType = some .tx)
    (hirx : kind.initialized rx = true) (hitx : kind.initialized tx = true) :
    Paired kind s.component.held s.clients rx tx := by
  have hplaced : ∀ k c, s.At k c → c.Placed kind.layout := by
    rcases hs.pairs.placed with hp | ⟨-, k, hnone⟩
    · exact hp
    · -- two clients have a kind, so it is not spent
      have hik : i = k := by
        by_contra hne
        rw [hnone i rx hne hi] at hrx
        cases hrx
      have hjk : j = k := by
        by_contra hne
        rw [hnone j tx hne hj] at htx
        cases htx
      subst hik hjk
      cases hi.symm.trans hj
      rw [hrx] at htx
      cases htx
  have hsrx := hs.sound i rx hi
  have hstx := hs.sound j tx hj
  have hserves := h.serves hsrx (hplaced i rx hi) hrx hirx
  have hserves' := h.serves hstx (hplaced j tx hj) htx hitx
  refine ⟨hboth, hserves, hserves', ?_, assignVirts_eq hrx htx hboth⟩
  rcases h with rfl | rfl
  · exact EthDriver.disjoint hsrx hstx hserves hserves'
  · refine SerialDriver.disjoint hsrx hstx hserves hserves' fun d d' hd hd' => ?_
    exact hs.apart rfl i j rx tx d d' hi hj hrx htx hd hd'

/-- Two initialised clients are one of each kind. -/
theorem Kind.Two.paired {kind : Kind} (h : kind.Two) {s : PreInit} (hs : Pairing kind s)
    {a b : Client} (hab : s.clients = [some a, some b]) (ha : kind.initialized a = true)
    (hb : kind.initialized b = true) :
    ∃ rx tx, Paired kind s.component.held s.clients rx tx := by
  have hat₀ : s.At 0 a := by simp [PreInit.At, hab]
  have hat₁ : s.At 1 b := by simp [PreInit.At, hab]
  obtain ⟨u, hu⟩ := h.kind_of_initialized (hs.sound 0 a hat₀).1 ha
  obtain ⟨w, hw⟩ := h.kind_of_initialized (hs.sound 1 b hat₁).1 hb
  cases u with
  | rx =>
    cases w with
    | rx => exact absurd (hs.pairs.differ 0 1 a b .rx hat₀ hat₁ hu hw) nofun
    | tx => exact ⟨a, b, h.paired_of hs hat₀ hat₁ (.inl hab) hu hw ha hb⟩
  | tx =>
    cases w with
    | rx => exact ⟨b, a, h.paired_of hs hat₁ hat₀ (.inr hab) hw hu hb ha⟩
    | tx => exact absurd (hs.pairs.differ 0 1 a b .tx hat₀ hat₁ hu hw) nofun

/-- Whenever the loop of the Ethernet or serial driver returns, there is one virtualizer of each
kind, each with its own regions. The serial driver needs the receive data region to fit. -/
theorem preInit_paired (kind : Kind) (h : kind.Two) (ans : Answers) (own : kind.component.Own)
    (c c' : Component) (events : List Event) (clients : List (Option Client))
    (hfits : Meets ans (kind.component.handlers ans own)
      (fun s ev => kind.fitsData s ev = true) (PreInit.start kind.component.slots c) events)
    (hrun : preInit ans (kind.component.handlers ans own) kind.component.slots events c =
      .ok (some clients) c') :
    ∃ rx tx, Paired kind c'.held clients rx tx := by
  obtain ⟨s, hloop, rfl⟩ := preInit_ok hrun
  have hstart : Waiting (kind.component.handlers ans own) (Pairing kind)
      (PreInit.start kind.component.slots c) := ⟨pairing_start kind _ c, kind.waits ans own⟩
  have hwp := sddfDriverPreInit_wp (kind.handles ans own)
    (fun s ev s' hw hguard hstep => pairing_step h hw.1 hguard hstep) events _ hstart hfits
  obtain ⟨hpairing, rfl, hdone⟩ := Prog.wp_ok hwp hloop
  have hboth : ∃ a b, s.clients = [some a, some b] ∧ kind.initialized a = true ∧
      kind.initialized b = true := by
    rcases h with rfl | rfl
    · exact checkBoth_true hdone
    · exact checkBoth_true hdone
  obtain ⟨a, b, hab, ha, hb⟩ := hboth
  exact h.paired hpairing hab ha hb

/-- The virtualizers of the serial driver, up to the receive data region. -/
def serialVirts : List Event := [
  .invocation 7 (.connOpen none),
  .invocation 7 (.channelRegisterBidirectional 4 (some .rx)),
  .invocation 8 (.connOpen none),
  .invocation 8 (.channelRegisterBidirectional 5 (some .tx)),
  .invocation 7 (.queueRegister 1 0x1000 .none),
  .invocation 8 (.queueRegister 1 0x1000 .none),
  .invocation 8 (.provideDataRegion 3 0x1000)]

/-- The last object is longer than the others. -/
def lastLonger : Answers :=
  { granted with objStat := fun n => .ok ⟨if n < 34 then 0x1000 else 0x202000, some 0x60000000⟩ }

/-- A receive data region that goes past the whole transmit one is let through. -/
theorem preInit_not_paired :
    ∃ own c clients c', SerialDriver.setUp lastLonger published = .ok own c ∧
      preInit lastLonger (SerialDriver.handlers lastLonger) 2
        (serialVirts ++ [.invocation 7 (.provideDataRegion 3 0x202000)]) c =
          .ok (some clients) c' ∧
      ¬ ∃ rx tx, Paired .serialDriver c'.held clients rx tx := by
  have hrun : (SerialDriver.setUp lastLonger published).toOption.any (fun x =>
      (preInit lastLonger (SerialDriver.handlers lastLonger) 2
        (serialVirts ++ [.invocation 7 (.provideDataRegion 3 0x202000)]) x.2).toOption.any fun y =>
          y.1.any fun clients =>
            decide (clients.map (Option.map fun a => (a.virtType, a.data.map DMARegion.region)) =
              [some (some .rx, some ⟨0xD000000, 0x202000⟩),
                some (some .tx, some ⟨0xD200000, 0x1000⟩)])) = true := by
    decide +kernel
  obtain ⟨⟨own, c⟩, hown, hrun⟩ := (Option.any_eq_true _ _).mp hrun
  obtain ⟨⟨r, c'⟩, hloop, hrun⟩ := (Option.any_eq_true _ _).mp hrun
  obtain ⟨clients, rfl, hfound⟩ := (Option.any_eq_true _ _).mp hrun
  refine ⟨own, c, clients, c', Outcome.toOption_eq_some.mp hown,
    Outcome.toOption_eq_some.mp hloop, ?_⟩
  rintro ⟨rx, tx, hp⟩
  -- the loop has left two clients, with these kinds and data regions
  obtain ⟨x, xs, rfl, ha, hxs⟩ := List.map_eq_cons_iff.mp (of_decide_eq_true hfound)
  obtain ⟨y, ys, rfl, hb, hys⟩ := List.map_eq_cons_iff.mp hxs
  obtain rfl := List.map_eq_nil_iff.mp hys
  obtain ⟨a, rfl, hshape⟩ := Option.map_eq_some_iff.mp ha
  obtain ⟨b, rfl, hshape'⟩ := Option.map_eq_some_iff.mp hb
  obtain ⟨hkind, hd⟩ := Prod.ext_iff.mp hshape
  obtain ⟨-, hd'⟩ := Prod.ext_iff.mp hshape'
  obtain ⟨d, hd, hdr⟩ := Option.map_eq_some_iff.mp hd
  obtain ⟨d', hd', hdr'⟩ := Option.map_eq_some_iff.mp hd'
  rcases hp.both with hab | hab
  · cases hab
    have hdisjoint := hp.disjoint _ _ (.data d hd) (.data d' hd')
    rw [hdr, hdr'] at hdisjoint
    revert hdisjoint
    unfold RegionResource.Disjoint
    decide
  · cases hab
    have htx : some VirtType.rx = some .tx := hkind.symm.trans hp.transmits.virtType
    cases htx

theorem preInit_paired_serialVirts :
    ∃ own c clients c', SerialDriver.setUp granted published = .ok own c ∧
      preInit granted (SerialDriver.handlers granted) 2
        (serialVirts ++ [.invocation 7 (.provideDataRegion 3 0x1000)]) c =
          .ok (some clients) c' ∧
      ∃ rx tx, Paired .serialDriver c'.held clients rx tx := by
  have hrun : (SerialDriver.setUp granted published).toOption.any (fun x => decide
      (Meets granted (SerialDriver.handlers granted)
        (fun s ev => Kind.serialDriver.fitsData s ev = true) (PreInit.start 2 x.2)
        (serialVirts ++ [.invocation 7 (.provideDataRegion 3 0x1000)]) ∧
      (preInit granted (SerialDriver.handlers granted) 2
        (serialVirts ++ [.invocation 7 (.provideDataRegion 3 0x1000)]) x.2).toOption.any
          (fun y => y.1.isSome) = true)) = true := by
    decide +kernel
  obtain ⟨⟨own, c⟩, hown, hok⟩ := (Option.any_eq_true _ _).mp hrun
  obtain ⟨hmeets, hrun⟩ := of_decide_eq_true hok
  obtain ⟨⟨r, c'⟩, hloop, hsome⟩ := (Option.any_eq_true _ _).mp hrun
  obtain ⟨clients, rfl⟩ := Option.isSome_iff_exists.mp hsome
  have hloop := Outcome.toOption_eq_some.mp hloop
  exact ⟨own, c, clients, c', Outcome.toOption_eq_some.mp hown, hloop,
    preInit_paired .serialDriver (.inr rfl) granted own c c' _ clients hmeets hloop⟩

end Smos.Drivers
