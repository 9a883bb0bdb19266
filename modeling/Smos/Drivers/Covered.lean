/-
Smos.Drivers.Covered — the configured regions and the windows they lie in.

Every region that a client registers, and every region that a component
makes, is all of a window with a view over all of it (`MappedIn`), so it is
covered wherever its own address and size are handed on. The drivers hand on
the device's registers at an offset with the size of the whole page, and the
serial virtualizers the client's data region with its address for a size.
-/
import Smos.Drivers.Configured

namespace Smos.Drivers

open Smos.Base
open Smos.RootServer (InvocationError HandleOrHandleCap)
open Smos.Ipc (QueueType VirtType)

/-! ## Ranges -/

def Window.Contains (w : Window) (r : RegionResource) : Prop :=
  w.start ≤ r.vaddr ∧ r.vaddr + r.size ≤ w.start + w.size

instance (w : Window) (r : RegionResource) : Decidable (w.Contains r) :=
  inferInstanceAs (Decidable (_ ∧ _))

/-- A range lies in a window that is held, and in a view of this window. -/
def Holdings.Covers (h : Holdings) (r : RegionResource) : Prop :=
  ∃ w ∈ h.windows, ∃ v ∈ h.views, v.2.window = w.1 ∧ w.2.Contains r ∧
    (Window.mk (w.2.start + v.2.winOffset) v.2.size).Contains r

instance (h : Holdings) (r : RegionResource) : Decidable (h.Covers r) :=
  inferInstanceAs (Decidable (∃ w ∈ h.windows, ∃ v ∈ h.views, v.2.window = w.1 ∧
    w.2.Contains r ∧ (Window.mk (w.2.start + v.2.winOffset) v.2.size).Contains r))

theorem Holdings.Maps.covers {h : Holdings} {win vh vaddr size : Nat}
    (hm : h.Maps win vh vaddr size) {r : RegionResource} (hlo : vaddr ≤ r.vaddr)
    (hhi : r.vaddr + r.size ≤ vaddr + size) : h.Covers r :=
  ⟨_, hm.window, _, hm.view, rfl, ⟨hlo, hhi⟩, hlo, hhi⟩

theorem Queue.MappedIn.covers {q : Queue} {h : Holdings} (hm : q.MappedIn h) :
    h.Covers q.region :=
  Holdings.Maps.covers hm (Nat.le_refl _) (Nat.le_refl _)

theorem DMARegion.MappedIn.covers {r : DMARegion} {h : Holdings} (hm : r.MappedIn h) :
    h.Covers r.region :=
  Holdings.Maps.covers hm (Nat.le_refl _) (Nat.le_refl _)

/-- No window contains the range. -/
def Holdings.Misses (h : Holdings) (r : RegionResource) : Prop :=
  ∀ w ∈ h.windows, ¬ w.2.Contains r

theorem Holdings.Misses.not_covers {h : Holdings} {r : RegionResource} (hm : h.Misses r) :
    ¬ h.Covers r := by
  rintro ⟨w, hw, v, hv, hwin, hcontains, -⟩
  exact hm w hw hcontains

/-- Windows further up do not help. -/
theorem Grown.misses {lo : Nat} {h h' : Holdings} {r : RegionResource} (hg : Grown lo h h')
    (hr : r.vaddr < lo) (hm : h.Misses r) : h'.Misses r := by
  intro w hw hcontains
  rcases hg.fresh w hw with hold | hnew
  · exact hm w hold hcontains
  · have := hcontains.1
    omega

/-! ## The clients' regions -/

/-- Every region of a client is mapped. -/
structure Client.Mapped (l : Layout) (h : Holdings) (c : Client) : Prop where
  queue : ∀ slot q, c.queue slot = some q → q.MappedIn h ∧ q.size = l.queueSize
  data : ∀ r, c.data = some r → r.MappedIn h

theorem Client.Mapped.grown {l : Layout} {lo : Nat} {h h' : Holdings} {c : Client}
    (hm : c.Mapped l h) (hg : Grown lo h h') : c.Mapped l h' where
  queue slot q hq := ⟨hg.maps (hm.queue slot q hq).1, (hm.queue slot q hq).2⟩
  data r hr := hg.maps (hm.data r hr)

theorem mapped_step {l : Layout} {inv : Invocation} {t t' : Turn}
    (hm : t.client.Mapped l t.component.held) (hstep : l.Step inv t t') :
    t'.client.Mapped l t'.component.held := by
  have hgrown := hm.grown hstep.grown
  cases hstep.client with
  | unchanged hc _ => exact hc ▸ hgrown
  | channel ch virtType hbit hcap hfresh hc _ => exact hc ▸ ⟨hgrown.queue, hgrown.data⟩
  | queue slot q hready hat hsize hnone hq hc _ =>
    rw [hc]
    refine ⟨fun slot' q' hq' => ?_, hgrown.data⟩
    by_cases hs : slot' = slot
    · rw [hs, setQueue_self] at hq'
      cases hq'
      exact ⟨hq, hsize⟩
    · rw [setQueue_of_ne _ hs] at hq'
      exact hgrown.queue slot' q' hq'
  | data cap size r hinv hready hat hsize hr hw hc _ =>
    rw [hc]
    refine ⟨hgrown.queue, ?_⟩
    rintro _ ⟨⟩
    exact hr
  | flagged hready hc _ => exact hc ▸ ⟨hgrown.queue, hgrown.data⟩

/-- What every client has, in every component. -/
def Client.Sound (l : Layout) (_ : Nat) (h : Holdings) (c : Client) : Prop :=
  c.Ready l ∧ c.Mapped l h

theorem sound_step {l : Layout} (hl : l.Monotone) {s : PreInit} {ev : Event} {s' : PreInit}
    (hs : EachClient (Client.Sound l) s) (hstep : LoopStep l ev s s') :
    EachClient (Client.Sound l) s' := by
  refine EachClient.step ?_ ?_ ?_ hs hstep
  · intro k h h' c hg hc
    exact ⟨hc.1, hc.2.grown hg⟩
  · intro k h id hndl
    exact ⟨ready_new l id hndl, nofun, nofun⟩
  · intro k id inv client t _ _ _ hc hst
    exact ⟨ready_step hl hc.1 hst.client, mapped_step hc.2 hst⟩

/-! ## The components' own regions -/

/-- What a run that returns has made. -/
theorem Makes.run {lo : Nat} {ε α : Type} {Q : α → Holdings → Prop}
    {m : Prog SddfPanic Component ε α} (hm : Makes lo Q m) {c c' : Component} {a : α}
    (hrun : m c = .ok a c') : Grown lo c.held c'.held ∧ Q a c'.held := by
  have hmade := Prog.wp_ok (hm c) hrun
  exact hmade

section Own

variable {lo : Nat} {ans : Answers} {c c' : Component}

theorem queueNew_run {vaddr size : Nat} {q : Queue} (hlo : lo ≤ vaddr)
    (hrun : Queue.new ans vaddr size c = .ok q c') :
    Grown lo c.held c'.held ∧ q.MappedIn c'.held := by
  obtain ⟨win, c₁, hwin, hrest⟩ := Prog.bind_ok hrun
  obtain ⟨slot, c₂, hslot, hrest⟩ := Prog.bind_ok hrest
  obtain ⟨obj, c₃, hobj, hrest⟩ := Prog.bind_ok hrest
  obtain ⟨vh, c₄, hview, hrest⟩ := Prog.bind_ok hrest
  cases hrest
  obtain ⟨hg₁, hw⟩ := (windowCreate_makes ans size hlo).run hwin
  have hg₂ : Grown lo c₁.held c₂.held := ((allocSlot_makes ans).run hslot).1
  have hg₃ : Grown lo c₂.held c₃.held := ((objCreate_makes ans none size .default _).run hobj).1
  obtain ⟨hg₄, hv⟩ : Grown lo c₃.held c'.held ∧ _ := (view_makes ans win obj 0 0 size).run hview
  have hlater := hg₂.trans (hg₃.trans hg₄)
  exact ⟨hg₁.trans hlater, hlater.windows _ hw, hv⟩

theorem queuePairNew_run {active free size : Nat} {q : QueuePair} (ha : lo ≤ active)
    (hf : lo ≤ free) (hrun : QueuePair.new ans active free size c = .ok q c') :
    Grown lo c.held c'.held ∧ q.active.MappedIn c'.held ∧ q.free.MappedIn c'.held := by
  obtain ⟨a, c₁, hactive, hrest⟩ := Prog.bind_ok hrun
  obtain ⟨f, c₂, hfree, hrest⟩ := Prog.bind_ok hrest
  cases hrest
  obtain ⟨hg₁, hma⟩ := queueNew_run ha hactive
  obtain ⟨hg₂, hmf⟩ := queueNew_run hf hfree
  exact ⟨hg₁.trans hg₂, hg₂.maps hma, hmf⟩

/-- `DMARegion::new` once it has its window and, if it is to have one, the slot for its handle. -/
theorem dmaNewRest_run {vaddr size win : Nat} {cap : Option Nat} {r : DMARegion}
    (hw : (win, ⟨vaddr, size⟩) ∈ c.held.windows)
    (hrun : (do
      let objHndl ← objCreate ans none size .contiguous cap
      let viewHndl ← view ans win objHndl 0 0 size
      let stat ← objStat ans objHndl
      let paddr ← stat.paddr |> Prog.unwrap .paddr
      pure ⟨vaddr, paddr, size, win, objHndl, viewHndl⟩ : SddfProg DMARegion) c = .ok r c') :
    Grown lo c.held c'.held ∧ r.vaddr = vaddr ∧ r.size = size ∧ r.MappedIn c'.held := by
  obtain ⟨obj, c₁, hobj, hrest⟩ := Prog.bind_ok hrun
  obtain ⟨vh, c₂, hview, hrest⟩ := Prog.bind_ok hrest
  obtain ⟨stat, c₃, hstat, hrest⟩ := Prog.bind_ok hrest
  obtain ⟨paddr, c₄, hpaddr, hrest⟩ := Prog.bind_ok hrest
  cases hrest
  have hg₁ : Grown lo c.held c₁.held := ((objCreate_makes ans none size .contiguous cap).run hobj).1
  obtain ⟨hg₂, hv⟩ : Grown lo c₁.held c₂.held ∧ _ := (view_makes ans win obj 0 0 size).run hview
  have hg₃ : Grown lo c₂.held c₃.held := ((objStat_makes ans obj).run hstat).1
  have hg₄ : Grown lo c₃.held c'.held :=
    ((Makes.unwrap .paddr stat.paddr fun _ _ _ => trivial).run hpaddr).1
  have hlater := hg₃.trans hg₄
  exact ⟨hg₁.trans (hg₂.trans hlater), rfl, rfl, (hg₁.trans (hg₂.trans hlater)).windows _ hw,
    hlater.views _ hv⟩

theorem dmaNew_run {vaddr size : Nat} {allocCap : Bool} {r : DMARegion} (hlo : lo ≤ vaddr)
    (hrun : DMARegion.new ans vaddr size allocCap c = .ok r c') :
    Grown lo c.held c'.held ∧ r.vaddr = vaddr ∧ r.size = size ∧ r.MappedIn c'.held := by
  obtain ⟨win, c₁, hwin, hrest⟩ := Prog.bind_ok hrun
  obtain ⟨hg₁, hw⟩ := (windowCreate_makes ans size hlo).run hwin
  cases allocCap with
  | true =>
    obtain ⟨cap, c₂, hcap, hrest⟩ := Prog.bind_ok (m := some <$> allocSlot ans) hrest
    obtain ⟨slot, c₃, hslot, hsome⟩ := Prog.bind_ok (m := allocSlot ans) hcap
    cases hsome
    have hg₂ : Grown lo c₁.held _ := ((allocSlot_makes ans).run hslot).1
    obtain ⟨hg₃, hmade⟩ : Grown lo _ c'.held ∧ _ := dmaNewRest_run (hg₂.windows _ hw) hrest
    exact ⟨hg₁.trans (hg₂.trans hg₃), hmade⟩
  | false =>
    obtain ⟨hg₂, hmade⟩ : Grown lo c₁.held c'.held ∧ _ := dmaNewRest_run hw hrest
    exact ⟨hg₁.trans hg₂, hmade⟩

/-- The device's registers are in a window of their own, and nothing reaches past its end. -/
theorem deviceNew_run {vaddr size paddr : Nat} {r : DeviceRegion}
    (hrun : DeviceRegion.new ans vaddr size paddr c = .ok r c') :
    r.vaddr = vaddr ∧ r.size = size ∧
      ∀ off, 0 < off → off < size → c'.held.Misses ⟨vaddr + off, size⟩ := by
  obtain ⟨win, c₁, hwin, hrest⟩ := Prog.bind_ok hrun
  obtain ⟨obj, c₂, hobj, hrest⟩ := Prog.bind_ok hrest
  obtain ⟨vh, c₃, hview, hrest⟩ := Prog.bind_ok hrest
  cases hrest
  obtain ⟨hadmits, hw⟩ := Prog.wp_ok (windowCreate_wp ans vaddr size c) hwin
  have hobj' : c₂.held.windows = c₁.held.windows := by
    unfold objCreate at hobj
    split at hobj
    · cases hobj
      rfl
    · cases hobj
  have hv := Prog.wp_ok (view_wp ans win obj 0 0 size c₂) hview
  refine ⟨rfl, rfl, fun off hpos hlt w hmem hcontains => ?_⟩
  rw [hv, hobj', hw] at hmem
  obtain ⟨hstart, hend⟩ := hcontains
  simp only at hstart hend
  rcases List.mem_cons.mp hmem with rfl | hold
  · simp only at hend
    omega
  · -- the end of the new window would lie in the old one
    apply hadmits.2 w hold
    simp only [Window.overlaps, Bool.or_eq_true, Bool.and_eq_true, decide_eq_true_eq]
    omega

end Own

theorem Grown.covers {lo : Nat} {h h' : Holdings} {r : RegionResource} (hg : Grown lo h h')
    (hr : h.Covers r) : h'.Covers r := by
  obtain ⟨w, hw, v, hv, hrest⟩ := hr
  exact ⟨w, hg.windows w hw, v, hg.views v hv, hrest⟩

/-- What a component makes itself and hands on. -/
def Kind.ownRegions : (kind : Kind) → kind.component.Own → List RegionResource
  | .ethVirtRx, own => [own.drvQueues.free.region, own.drvQueues.active.region,
      ⟨EthVirtRx.rcvDma, EthVirtRx.rcvDmaRegionSize⟩,
      ⟨EthVirtRx.bufferMetadata, EthVirtRx.bufferMetadataSize⟩]
  | .ethVirtTx, own => [own.free.region, own.active.region]
  | .serialVirtRx, own | .serialVirtTx, own => [own.drvQueue.region, own.drvDataRegion.region]
  | .ethDriver, _ | .serialDriver, _ | .blkDriver, _ => []

theorem EthVirtRx.setUp_covers {ans : Answers} {regions : Regions} {c c' : Component}
    (hrun : setUp ans c = .ok regions c') :
    ∀ r ∈ Kind.ethVirtRx.ownRegions regions, c'.held.Covers r := by
  obtain ⟨pair, c₁, hpair, hrest⟩ := Prog.bind_ok hrun
  obtain ⟨ring, c₂, hring, hrest⟩ := Prog.bind_ok hrest
  obtain ⟨win, c₃, hwin, hrest⟩ := Prog.bind_ok hrest
  obtain ⟨obj, c₄, hobj, hrest⟩ := Prog.bind_ok hrest
  obtain ⟨vh, c₅, hview, hrest⟩ := Prog.bind_ok hrest
  cases hrest
  have hpair' := queuePairNew_run (Nat.zero_le _) (Nat.zero_le _) (expect_ok hpair)
  have hring' := dmaNew_run (Nat.zero_le _) (expect_ok hring)
  obtain ⟨hg₃, hw⟩ : Grown 0 c₂.held c₃.held ∧ _ :=
    (windowCreate_makes ans _ (Nat.zero_le _)).run (expect_ok hwin)
  have hg₄ : Grown 0 c₃.held c₄.held := ((objCreate_makes ans _ _ _ _).run (expect_ok hobj)).1
  obtain ⟨hg₅, hv⟩ : Grown 0 c₄.held c'.held ∧ _ :=
    (view_makes ans _ _ _ _ _).run (expect_ok hview)
  obtain ⟨hg₂, hvaddr, hsize, hmring⟩ := hring'
  obtain ⟨-, hactive, hfree⟩ := hpair'
  have hlater := hg₃.trans (hg₄.trans hg₅)
  have hringc := hlater.covers hmring.covers
  unfold DMARegion.region at hringc
  rw [hvaddr, hsize] at hringc
  have hmeta : c'.held.Maps win vh bufferMetadata bufferMetadataSize :=
    ⟨(hg₄.trans hg₅).windows _ hw, hv⟩
  simp only [Kind.ownRegions, List.forall_mem_cons]
  exact ⟨(hg₂.trans hlater).covers hfree.covers, (hg₂.trans hlater).covers hactive.covers, hringc,
    hmeta.covers (Nat.le_refl _) (Nat.le_refl _), nofun⟩

theorem EthVirtTx.setUp_covers {ans : Answers} {q : QueuePair} {c c' : Component}
    (hrun : setUp ans c = .ok q c') : ∀ r ∈ Kind.ethVirtTx.ownRegions q, c'.held.Covers r := by
  obtain ⟨-, hactive, hfree⟩ := queuePairNew_run (Nat.zero_le _) (Nat.zero_le _) (expect_ok hrun)
  simp only [Kind.ownRegions, List.forall_mem_cons]
  exact ⟨hfree.covers, hactive.covers, nofun⟩

theorem SerialVirt.setUp_covers {ans : Answers} {regions : Regions} {c c' : Component}
    (hrun : setUp ans c = .ok regions c') :
    ∀ r ∈ Kind.serialVirtRx.ownRegions regions, c'.held.Covers r := by
  obtain ⟨q, c₁, hqueue, hrest⟩ := Prog.bind_ok hrun
  obtain ⟨data, c₂, hdata, hrest⟩ := Prog.bind_ok hrest
  cases hrest
  obtain ⟨-, hmq⟩ := queueNew_run (Nat.zero_le _) (expect_ok hqueue)
  obtain ⟨hg, -, -, hmd⟩ := dmaNew_run (Nat.zero_le _) (expect_ok hdata)
  simp only [Kind.ownRegions, List.forall_mem_cons]
  exact ⟨hg.covers hmq.covers, hmd.covers, nofun⟩

/-- A component's own regions are covered once it has set itself up. -/
theorem ownRegions_covered {kind : Kind} {ans : Answers} {own : kind.component.Own}
    {c c' : Component} (hrun : kind.component.setUp ans c = .ok own c') :
    ∀ r ∈ kind.ownRegions own, c'.held.Covers r := by
  cases kind with
  | ethDriver => nofun
  | serialDriver => nofun
  | blkDriver => nofun
  | ethVirtRx => exact EthVirtRx.setUp_covers hrun
  | ethVirtTx => exact EthVirtTx.setUp_covers hrun
  | serialVirtRx => exact SerialVirt.setUp_covers hrun
  | serialVirtTx => exact SerialVirt.setUp_covers hrun

/-! ## What the configuration hands on -/

/-- A region that the client has registered. -/
inductive Client.Region (c : Client) : RegionResource → Prop
  | queue (slot : QueueSlot) (q : Queue) (hq : c.queue slot = some q) : Region c q.region
  | data (r : DMARegion) (hr : c.data = some r) : Region c r.region

theorem Client.Mapped.covers {l : Layout} {h : Holdings} {c : Client} (hm : c.Mapped l h)
    {r : RegionResource} (hr : c.Region r) : h.Covers r := by
  cases hr with
  | queue slot q hq => exact (hm.queue slot q hq).1.covers
  | data r hr => exact (hm.data r hr).covers

theorem clientAt_ok {clients : List (Option Client)} {k : Nat} {c c' : Component} {a : Client}
    (h : clientAt clients k c = .ok a c') : clients[k]? = some (some a) := by
  have hjoin := unwrap_ok h
  exact Option.join_eq_some_iff.mp hjoin

theorem netConnection_regions {client : Client} {conn : NetConnectionResource} {c c' : Component}
    (h : netConnection client c = .ok conn c') : ∀ r ∈ conn.regions, client.Region r := by
  obtain ⟨free, c₁, hfree, hrest⟩ := Prog.bind_ok h
  obtain ⟨active, c₂, hactive, hrest⟩ := Prog.bind_ok hrest
  obtain ⟨id, c₃, hid, hrest⟩ := Prog.bind_ok hrest
  cases hrest
  simp only [NetConnectionResource.regions, List.forall_mem_cons]
  exact ⟨.queue .free free (unwrap_ok hfree), .queue .active active (unwrap_ok hactive), nofun⟩

theorem connection_regions {q : QueuePair} {channel : NotificationChannel}
    {conn : NetConnectionResource} {c c' : Component} (h : q.connection channel c = .ok conn c') :
    conn.regions = [q.free.region, q.active.region] := by
  obtain ⟨id, c₁, hid, hrest⟩ := Prog.bind_ok h
  cases hrest
  rfl

theorem EthVirtRx.configure_regions {ans : Answers} {regions : Regions}
    {clients : List (Option Client)} {cfg : Config} {c c' : Component}
    (h : configure ans regions clients c = .ok cfg c') :
    ∃ copier, clients[0]? = some (some copier) ∧
      ∀ r ∈ cfg.regions, r ∈ Kind.ethVirtRx.ownRegions regions ∨ copier.Region r := by
  obtain ⟨copier, c₁, hcopier, hrest⟩ := Prog.bind_ok h
  obtain ⟨drvChannel, c₂, -, hrest⟩ := Prog.bind_ok hrest
  obtain ⟨_, c₃, -, hrest⟩ := Prog.bind_ok hrest
  obtain ⟨_, c₄, -, hrest⟩ := Prog.bind_ok hrest
  obtain ⟨b, c₅, -, hrest⟩ := Prog.bind_ok hrest
  obtain ⟨_, c₆, -, hrest⟩ := Prog.bind_ok hrest
  obtain ⟨client, c₇, hclient, hrest⟩ := Prog.bind_ok hrest
  obtain ⟨driver, c₈, hdriver, hrest⟩ := Prog.bind_ok hrest
  cases hrest
  refine ⟨copier, clientAt_ok hcopier, fun r hr => ?_⟩
  have hcopied := netConnection_regions hclient r
  simp only [Config.regions, connection_regions hdriver, List.mem_append, List.mem_cons,
    List.not_mem_nil, or_false] at hr
  simp only [Kind.ownRegions, List.mem_cons, List.not_mem_nil, or_false]
  tauto

theorem EthVirtTx.configure_regions {ans : Answers} {drvQueues : QueuePair}
    {clients : List (Option Client)} {cfg : Config} {c c' : Component}
    (h : configure ans drvQueues clients c = .ok cfg c') :
    ∃ client, clients[0]? = some (some client) ∧
      ∀ r ∈ cfg.regions, r ∈ Kind.ethVirtTx.ownRegions drvQueues ∨ client.Region r := by
  obtain ⟨client, c₁, hclient, hrest⟩ := Prog.bind_ok h
  obtain ⟨drvChannel, c₂, -, hrest⟩ := Prog.bind_ok hrest
  obtain ⟨_, c₃, -, hrest⟩ := Prog.bind_ok hrest
  obtain ⟨_, c₄, -, hrest⟩ := Prog.bind_ok hrest
  obtain ⟨b, c₅, -, hrest⟩ := Prog.bind_ok hrest
  obtain ⟨_, c₆, -, hrest⟩ := Prog.bind_ok hrest
  obtain ⟨conn, c₇, hconn, hrest⟩ := Prog.bind_ok hrest
  obtain ⟨data, c₈, hdata, hrest⟩ := Prog.bind_ok hrest
  obtain ⟨driver, c₉, hdriver, hrest⟩ := Prog.bind_ok hrest
  cases hrest
  refine ⟨client, clientAt_ok hclient, fun r hr => ?_⟩
  have hregistered := netConnection_regions hconn r
  have hgiven : client.Region data.region := .data data (unwrap_ok hdata)
  simp only [Config.regions, connection_regions hdriver, List.mem_append, List.mem_cons,
    List.not_mem_nil, or_false] at hr
  simp only [Kind.ownRegions, List.mem_cons, List.not_mem_nil, or_false]
  rcases hr with (hown | hconn') | rfl
  · exact .inl hown
  · exact .inr (hregistered hconn')
  · exact .inr hgiven

/-- All but the client's data region, for which the address stands twice. -/
theorem SerialVirt.configure_regions {ans : Answers} {virtType : VirtType} {regions : Regions}
    {clients : List (Option Client)} {cfg : Config} {c c' : Component}
    (h : configure ans virtType regions clients c = .ok cfg c') :
    ∃ client data, clients[0]? = some (some client) ∧ client.data = some data ∧
      ⟨data.vaddr, data.vaddr⟩ ∈ cfg.regions ∧
      ∀ r ∈ cfg.regions, r = ⟨data.vaddr, data.vaddr⟩ ∨
        r ∈ Kind.serialVirtRx.ownRegions regions ∨ client.Region r := by
  obtain ⟨client, c₁, hclient, hrest⟩ := Prog.bind_ok h
  obtain ⟨drvChannel, c₂, -, hrest⟩ := Prog.bind_ok hrest
  obtain ⟨_, c₃, -, hrest⟩ := Prog.bind_ok hrest
  obtain ⟨_, c₄, -, hrest⟩ := Prog.bind_ok hrest
  obtain ⟨b, c₅, -, hrest⟩ := Prog.bind_ok hrest
  obtain ⟨_, c₆, -, hrest⟩ := Prog.bind_ok hrest
  obtain ⟨queue, c₇, hqueue, hrest⟩ := Prog.bind_ok hrest
  obtain ⟨data, c₈, hdata, hrest⟩ := Prog.bind_ok hrest
  obtain ⟨id, c₉, -, hrest⟩ := Prog.bind_ok hrest
  obtain ⟨drvId, c₁₀, -, hrest⟩ := Prog.bind_ok hrest
  cases hrest
  have hregistered : client.Region queue.region := .queue .serial queue (unwrap_ok hqueue)
  refine ⟨client, data, clientAt_ok hclient, unwrap_ok hdata, ?_, fun r hr => ?_⟩
  · simp [Config.regions, SerialConnectionResource.regions]
  · simp only [Config.regions, SerialConnectionResource.regions, List.mem_append, List.mem_cons,
      List.not_mem_nil, or_false] at hr
    simp only [Kind.ownRegions, List.mem_cons, List.not_mem_nil, or_false]
    rcases hr with hown | rfl | rfl
    · exact .inr (.inl hown)
    · exact .inr (.inr hregistered)
    · exact .inl rfl

/-! ### The drivers -/

/-- The registers of a driver's device, as it hands them on. -/
def Kind.registers : (kind : Kind) → kind.component.Own → Option RegionResource
  | .ethDriver, own => some ⟨own.region.vaddr + EthDriver.virtioNetOffset, own.region.size⟩
  | .serialDriver, own => some ⟨own.region.vaddr + SerialDriver.serialOffset, own.region.size⟩
  | .blkDriver, own => some ⟨own.region.vaddr + BlkDriver.blkOffset, own.region.size⟩
  | _, _ => none

theorem EthDriver.configure_registers (device : Device) (virts : List (Option Client)) :
    Prog.Returns (fun cfg => ⟨device.region.vaddr + virtioNetOffset, device.region.size⟩ ∈
      cfg.regions) (configure device virts) := by
  refine .bind fun x => ?_
  refine .bind fun _ => .bind fun _ => .bind fun _ => .bind fun _ => .bind fun _ => .pure ?_
  simp [Config.regions, DeviceResources.regions]

theorem SerialDriver.configure_registers (device : Device) (virts : List (Option Client)) :
    Prog.Returns (fun cfg => ⟨device.region.vaddr + serialOffset, device.region.size⟩ ∈
      cfg.regions) (configure device virts) := by
  refine .bind fun x => ?_
  refine .bind fun _ => .bind fun _ => .bind fun _ => .bind fun _ => .bind fun _ => .pure ?_
  simp [Config.regions, DeviceResources.regions]

theorem BlkDriver.configure_registers (device : Device) (virts : List (Option Client)) :
    Prog.Returns (fun cfg => ⟨device.region.vaddr + blkOffset, device.region.size⟩ ∈
      cfg.regions) (configure device virts) := by
  refine .bind fun _ => .bind fun _ => .bind fun _ => .bind fun _ => .bind fun _ => ?_
  refine .bind fun _ => .bind fun _ => .pure ?_
  simp [Config.regions, DeviceResources.regions]

/-- Every driver hands on its registers. -/
theorem registers_mem {kind : Kind} {ans : Answers} {own : kind.component.Own}
    {clients : List (Option Client)} {cfg : Config} {c c' : Component} {r : RegionResource}
    (hr : kind.registers own = some r)
    (hcfg : kind.component.configure ans own clients c = .ok cfg c') : r ∈ cfg.regions := by
  cases kind with
  | ethDriver =>
    cases hr
    exact EthDriver.configure_registers own clients c cfg c' hcfg
  | serialDriver =>
    cases hr
    exact SerialDriver.configure_registers own clients c cfg c' hcfg
  | blkDriver =>
    cases hr
    exact BlkDriver.configure_registers own clients c cfg c' hcfg
  | ethVirtRx | ethVirtTx | serialVirtRx | serialVirtTx => cases hr

theorem irqNew_makes {lo : Nat} (ans : Answers) (irqNumber : Nat) :
    Makes lo (fun _ _ => True) (IrqChannel.new ans irqNumber) :=
  (allocSlot_makes ans).then_ fun _ =>
    .then_ (.ask fun _ _ => ⟨.of_eq rfl rfl, trivial⟩) fun _ => .pure fun _ => trivial

/-- The registers at an offset are missed for as long as the new windows are further up. -/
theorem registers_missed_later {ans : Answers} {vaddr size paddr off lo : Nat}
    {region : DeviceRegion} {c c₁ c' : Component}
    (hregion : DeviceRegion.new ans vaddr size paddr c = .ok region c₁)
    (hg : Grown lo c₁.held c'.held) (hpos : 0 < off) (hoff : off < size) (hlo : vaddr + off < lo) :
    c'.held.Misses ⟨region.vaddr + off, region.size⟩ ∧ region.vaddr + off < lo := by
  obtain ⟨hvaddr, hsize, hmiss⟩ := deviceNew_run hregion
  rw [hvaddr, hsize]
  exact ⟨hg.misses hlo (hmiss off hpos hoff), hlo⟩

/-- The set-up of a driver: the registers first, everything else far above them. -/
theorem registers_missed {kind : Kind} {ans : Answers} {own : kind.component.Own}
    {c c' : Component} {r : RegionResource}
    (hrun : kind.component.setUp ans c = .ok own c') (hr : kind.registers own = some r) :
    c'.held.Misses r ∧ r.vaddr < kind.layout.lowest := by
  cases kind with
  | ethDriver =>
    obtain ⟨region, c₁, hregion, hrest⟩ := Prog.bind_ok hrun
    obtain ⟨irq, c₂, hirq, hrest⟩ := Prog.bind_ok hrest
    obtain ⟨ring, c₃, hring, hrest⟩ := Prog.bind_ok hrest
    cases hrest
    cases hr
    have hg₂ : Grown 0xC000000 c₁.held c₂.held := ((irqNew_makes ans _).run (expect_ok hirq)).1
    have hg₃ : Grown 0xC000000 c₂.held c'.held := (dmaNew_run (by decide) (expect_ok hring)).1
    exact registers_missed_later (expect_ok hregion) (hg₂.trans hg₃) (by decide) (by decide)
      (by decide)
  | serialDriver =>
    obtain ⟨region, c₁, hregion, hrest⟩ := Prog.bind_ok hrun
    obtain ⟨irq, c₂, hirq, hrest⟩ := Prog.bind_ok hrest
    obtain ⟨ring, c₃, hring, hrest⟩ := Prog.bind_ok hrest
    obtain ⟨rxCharBuf, c₄, hrx, hrest⟩ := Prog.bind_ok hrest
    obtain ⟨txCharBuf, c₅, htx, hrest⟩ := Prog.bind_ok hrest
    cases hrest
    cases hr
    have hg₂ : Grown 0xC000000 c₁.held c₂.held := ((irqNew_makes ans _).run (expect_ok hirq)).1
    have hg₃ : Grown 0xC000000 c₂.held c₃.held := (dmaNew_run (by decide) (expect_ok hring)).1
    have hg₄ : Grown 0xC000000 c₃.held c₄.held := (dmaNew_run (by decide) (expect_ok hrx)).1
    have hg₅ : Grown 0xC000000 c₄.held c'.held := (dmaNew_run (by decide) (expect_ok htx)).1
    exact registers_missed_later (expect_ok hregion) (hg₂.trans (hg₃.trans (hg₄.trans hg₅)))
      (by decide) (by decide) (by decide)
  | blkDriver =>
    obtain ⟨region, c₁, hregion, hrest⟩ := Prog.bind_ok hrun
    obtain ⟨irq, c₂, hirq, hrest⟩ := Prog.bind_ok hrest
    obtain ⟨requestsBuffer, c₃, hreq, hrest⟩ := Prog.bind_ok hrest
    obtain ⟨virtCharBuf, c₄, hvirt, hrest⟩ := Prog.bind_ok hrest
    cases hrest
    cases hr
    have hg₂ : Grown 0xC000000 c₁.held c₂.held := ((irqNew_makes ans _).run (expect_ok hirq)).1
    have hg₃ : Grown 0xC000000 c₂.held c₃.held := (dmaNew_run (by decide) (expect_ok hreq)).1
    have hg₄ : Grown 0xC000000 c₃.held c'.held := (dmaNew_run (by decide) (expect_ok hvirt)).1
    exact registers_missed_later (expect_ok hregion) (hg₂.trans (hg₃.trans hg₄)) (by decide)
      (by decide) (by decide)
  | ethVirtRx | ethVirtTx | serialVirtRx | serialVirtTx => cases hr

/-! ### The configuration makes no window -/

section Makes

variable {lo : Nat} (ans : Answers)

theorem expected_makes {α : Type} {m : SddfProg α} (hm : Makes lo (fun _ _ => True) m) :
    Makes lo (fun _ _ => True) (m.expect .callFailed : MainProg α) := hm.expect _

theorem unwrapped_makes {α : Type} (p : SddfPanic) (o : Option α) :
    Makes lo (fun _ _ => True) (Prog.unwrap p o : MainProg α) := .unwrap p o fun _ _ _ => trivial

theorem channelBit_makes (c : Client) : Makes lo (fun _ _ => True) (channelBit c) :=
  (unwrapped_makes _ _).then_ fun _ => unwrapped_makes _ _

theorem setClientChannel_makes (b : Bindings) (c : Client) :
    Makes lo (fun _ _ => True) (setClientChannel b c) :=
  (channelBit_makes c).then_ fun _ => (unwrapped_makes _ _).then_ fun _ => unwrapped_makes _ _

theorem setDriverChannel_makes (b : Bindings) (ch : NotificationChannel) :
    Makes lo (fun _ _ => True) (setDriverChannel b ch) :=
  (unwrapped_makes _ _).then_ fun _ => unwrapped_makes _ _

theorem newBidirectional_makes (virtType : Option VirtType) :
    Makes lo (fun _ _ => True) (NotificationChannel.newBidirectional ans virtType) := by
  refine (allocSlot_makes ans).then_ fun _ => ?_
  refine (serverChannelCreate_makes ans _).then_ fun _ => ?_
  refine (allocSlot_makes ans).then_ fun _ => ?_
  refine (registerBidirectional_makes ans _ virtType _).then_ fun _ => ?_
  refine (allocSlot_makes ans).then_ fun _ => ?_
  exact (channelOpen_makes ans _ _).then_ fun _ => .pure fun _ => trivial

theorem connectDriver_makes (virtType : Option VirtType) :
    Makes lo (fun _ _ => True) (connectDriver ans virtType) := by
  refine (expected_makes (allocSlot_makes ans)).then_ fun _ => ?_
  refine (expected_makes (peerCall_makes ans)).then_ fun _ => ?_
  refine (expected_makes (peerCall_makes ans)).then_ fun _ => ?_
  exact expected_makes (newBidirectional_makes ans virtType)

theorem registerQueue_makes (q : Queue) : Makes lo (fun _ _ => True) (registerQueue ans q) :=
  (unwrapped_makes _ _).then_ fun _ => expected_makes (peerCall_makes ans)

theorem assignVirts_makes (virts : List (Option Client)) :
    Makes lo (fun _ _ => True) (assignVirts virts) := by
  refine (unwrapped_makes _ _).then_ fun first => (unwrapped_makes _ _).then_ fun virtType => ?_
  cases virtType <;> exact (unwrapped_makes _ _).then_ fun _ => .pure fun _ => trivial

theorem netConnection_makes (c : Client) : Makes lo (fun _ _ => True) (netConnection c) :=
  (unwrapped_makes _ _).then_ fun _ => (unwrapped_makes _ _).then_ fun _ =>
    (channelBit_makes c).then_ fun _ => .pure fun _ => trivial

theorem connection_makes (q : QueuePair) (ch : NotificationChannel) :
    Makes lo (fun _ _ => True) (q.connection ch) :=
  (unwrapped_makes _ _).then_ fun _ => .pure fun _ => trivial

theorem EthDriver.connection_makes (c : Client) : Makes lo (fun _ _ => True) (connection c) :=
  (unwrapped_makes _ _).then_ fun _ => (unwrapped_makes _ _).then_ fun _ =>
    (channelBit_makes c).then_ fun _ => .pure fun _ => trivial

theorem SerialDriver.connection_makes (c : Client) : Makes lo (fun _ _ => True) (connection c) :=
  (unwrapped_makes _ _).then_ fun _ => (unwrapped_makes _ _).then_ fun _ =>
    (channelBit_makes c).then_ fun _ => .pure fun _ => trivial

theorem configure_makes (kind : Kind) (own : kind.component.Own)
    (clients : List (Option Client)) :
    Makes lo (fun _ _ => True) (kind.component.configure ans own clients) := by
  cases kind with
  | ethDriver =>
    refine (assignVirts_makes clients).then_ fun x => ?_
    refine (unwrapped_makes _ _).then_ fun _ => (setClientChannel_makes _ _).then_ fun _ => ?_
    refine (setClientChannel_makes _ _).then_ fun _ => ?_
    refine (EthDriver.connection_makes _).then_ fun _ => ?_
    exact (EthDriver.connection_makes _).then_ fun _ => .pure fun _ => trivial
  | serialDriver =>
    refine (assignVirts_makes clients).then_ fun x => ?_
    refine (unwrapped_makes _ _).then_ fun _ => (setClientChannel_makes _ _).then_ fun _ => ?_
    refine (setClientChannel_makes _ _).then_ fun _ => ?_
    refine (SerialDriver.connection_makes _).then_ fun _ => ?_
    exact (SerialDriver.connection_makes _).then_ fun _ => .pure fun _ => trivial
  | blkDriver =>
    refine (unwrapped_makes _ _).then_ fun _ => (unwrapped_makes _ _).then_ fun _ => ?_
    refine (setClientChannel_makes _ _).then_ fun _ => (unwrapped_makes _ _).then_ fun _ => ?_
    refine (unwrapped_makes _ _).then_ fun _ => (unwrapped_makes _ _).then_ fun _ => ?_
    exact (channelBit_makes _).then_ fun _ => .pure fun _ => trivial
  | ethVirtRx =>
    refine (unwrapped_makes _ _).then_ fun _ => (connectDriver_makes ans _).then_ fun _ => ?_
    refine (registerQueue_makes ans _).then_ fun _ => (registerQueue_makes ans _).then_ fun _ => ?_
    refine (setDriverChannel_makes _ _).then_ fun _ => ?_
    refine (setClientChannel_makes _ _).then_ fun _ => ?_
    refine (netConnection_makes _).then_ fun _ => (connection_makes _ _).then_ fun _ => ?_
    exact .pure fun _ => trivial
  | ethVirtTx =>
    refine (unwrapped_makes _ _).then_ fun _ => (connectDriver_makes ans _).then_ fun _ => ?_
    refine (registerQueue_makes ans _).then_ fun _ => (registerQueue_makes ans _).then_ fun _ => ?_
    refine (setDriverChannel_makes _ _).then_ fun _ => ?_
    refine (setClientChannel_makes _ _).then_ fun _ => ?_
    refine (netConnection_makes _).then_ fun _ => (unwrapped_makes _ _).then_ fun _ => ?_
    exact (connection_makes _ _).then_ fun _ => .pure fun _ => trivial
  | serialVirtRx | serialVirtTx =>
    refine (unwrapped_makes _ _).then_ fun _ => (connectDriver_makes ans _).then_ fun _ => ?_
    refine (registerQueue_makes ans _).then_ fun _ => ?_
    refine (expected_makes (peerCall_makes ans)).then_ fun _ => ?_
    refine (setDriverChannel_makes _ _).then_ fun _ => ?_
    refine (setClientChannel_makes _ _).then_ fun _ => ?_
    refine (unwrapped_makes _ _).then_ fun _ => (unwrapped_makes _ _).then_ fun _ => ?_
    exact (channelBit_makes _).then_ fun _ => (unwrapped_makes _ _).then_ fun _ =>
      .pure fun _ => trivial

end Makes

/-! ## The data region of the serial virtualizers -/

namespace SerialVirt

/-- While the loop waits, the client has no data region. -/
theorem no_data_waiting {s : PreInit} {c : Client}
    (hs : EachClient (Client.Sound layout) s) (hwait : checkDone s.clients = false)
    (hc : s.clients[0]? = some (some c)) : c.data = none := by
  cases hdata : c.data with
  | none => rfl
  | some r =>
    have hr := (hs 0 c hc).1
    have hqueue : (c.queue .serial).isSome := hr.data (by rw [hdata]; rfl)
    have hch : c.channel.isSome := hr.queue .serial hqueue
    obtain ⟨rest, hrest⟩ : ∃ rest, s.clients = some c :: rest := by
      cases hs : s.clients with
      | nil => simp [hs] at hc
      | cons x rest => exact ⟨rest, by simpa [hs] using hc⟩
    simp [checkDone, checkFirst, hrest, initialized, hdata, hqueue, hch] at hwait

/-- The client's data region is the only one that can reach as far as its own address again. -/
def Reaches (s : PreInit) : Prop :=
  ∀ c r, s.clients[0]? = some (some c) → c.data = some r → r.vaddr = cliData ∧
    ∀ w ∈ s.component.held.windows, w.2.Contains ⟨cliData, cliData⟩ → cliData ≤ r.size

theorem reaches_step {s s' : PreInit} {ev : Event}
    (hs : EachClient (Client.Sound layout) s) (hwait : checkDone s.clients = false)
    (hstep : LoopStep layout ev s s') : Reaches s' := by
  intro c r hc hr
  have hnone : ∀ c', s.clients[0]? = some (some c') → c'.data = none :=
    fun c' => no_data_waiting hs hwait
  cases hstep with
  | kept hg hclients _ =>
    rw [hclients] at hc
    rw [hnone c hc] at hr
    cases hr
  | opened slot id hndl hslot hid hg hclients _ =>
    rw [hclients] at hc
    rcases getElem?_of_set hc with ⟨-, hold⟩ | ⟨-, rfl⟩
    · rw [hnone c hold] at hr
      cases hr
    · cases hr
  | handled k id inv client t hev hid hk hst hcomp hclients _ =>
    rw [hclients] at hc
    rcases getElem?_of_set hc with ⟨-, hold⟩ | ⟨rfl, rfl⟩
    · rw [hnone c hold] at hr
      cases hr
    · have hdata := hnone client hk
      cases hst.client with
      | unchanged hclient _ => rw [hclient, hdata] at hr; cases hr
      | channel ch virtType hbit hcap hfresh hclient _ =>
        rw [hclient] at hr
        exact absurd (hdata.symm.trans hr) nofun
      | queue slot q hready hat hsize hnone' hm hclient _ =>
        rw [hclient] at hr
        exact absurd (hdata.symm.trans hr) nofun
      | data cap size r' hinv hready hat hsize hm hw hclient _ =>
        rw [hclient] at hr
        cases hr
        refine ⟨hat, fun w hmem hcontains => ?_⟩
        rw [hcomp, hw.windows] at hmem
        obtain ⟨hstart, hend⟩ := hcontains
        simp only at hstart hend
        have hat : r.vaddr = cliData := hat
        rcases List.mem_cons.mp hmem with rfl | hold
        · simp only [hat] at hend
          omega
        · -- the region's window would start in this one
          have hapart := hw.apart w hold
          simp only [Window.overlaps, Bool.or_eq_false_iff, Bool.and_eq_false_iff,
            decide_eq_false_iff_not, hat] at hapart
          have hpos : 0 < cliData := by decide
          omega
      | flagged hready hclient _ =>
        rw [hclient] at hr
        exact absurd (hdata.symm.trans hr) nofun

end SerialVirt

/-! ## Every run -/

theorem LoopStep.grown {l : Layout} {ev : Event} {s s' : PreInit} (h : LoopStep l ev s s') :
    Grown l.lowest s.component.held s'.component.held := by
  cases h with
  | kept hg _ _ => exact hg
  | opened slot id hndl _ _ hg _ _ => exact hg
  | handled k id inv client t _ _ _ hst hcomp _ _ => exact hcomp ▸ hst.grown

/-- What the start-up loop leaves, at any time. -/
structure Left (kind : Kind) (c : Component) (s : PreInit) : Prop where
  grown : Grown kind.layout.lowest c.held s.component.held
  sound : EachClient (Client.Sound kind.layout) s
  reaches : kind = .serialVirtRx ∨ kind = .serialVirtTx → SerialVirt.Reaches s

theorem left_step {kind : Kind} {ans : Answers} {own : kind.component.Own} {c : Component}
    {s s' : PreInit} {ev : Event} (hs : Left kind c s)
    (hwait : (kind.component.handlers ans own).checkDone s.clients = false)
    (hstep : LoopStep kind.layout ev s s') : Left kind c s' where
  grown := hs.grown.trans hstep.grown
  sound := sound_step kind.monotone hs.sound hstep
  reaches := by
    rintro (rfl | rfl)
    · exact SerialVirt.reaches_step hs.sound hwait hstep
    · exact SerialVirt.reaches_step hs.sound hwait hstep

theorem left_start (kind : Kind) (n : Nat) (c : Component) : Left kind c (PreInit.start n c) where
  grown := .refl _ _
  sound := .start _ n c
  reaches _ x r hx := by
    have hmem := List.mem_of_getElem? hx
    simp [PreInit.start] at hmem

theorem preInit_left {kind : Kind} {ans : Answers} {own : kind.component.Own} {c c' : Component}
    {events : List Event} {clients : List (Option Client)}
    (hrun : preInit ans (kind.component.handlers ans own) kind.component.slots events c =
      .ok (some clients) c') :
    ∃ s, Left kind c s ∧ s.clients = clients ∧ s.component = c' := by
  obtain ⟨s, hloop, hc⟩ := preInit_ok hrun
  have hstart : Waiting (kind.component.handlers ans own) (Left kind c)
      (PreInit.start kind.component.slots c) := ⟨left_start kind _ c, kind.waits ans own⟩
  have hwp := sddfDriverPreInit_wp (kind.handles ans own)
    (fun s ev s' hw _ hstep => left_step hw.1 hw.2 hstep) events _ hstart
    (meets_true ans _ events _)
  obtain ⟨hleft, hclients, -⟩ := Prog.wp_ok hwp hloop
  exact ⟨s, hleft, hclients, hc⟩

/-- The components whose configurations are covered, and when. -/
def Kind.coversAll (kind : Kind) (clients : List (Option Client)) : Prop :=
  match kind with
  | .ethVirtRx | .ethVirtTx => True
  | .serialVirtRx | .serialVirtTx => ∀ c r, clients[0]? = some (some c) → c.data = some r →
      SerialVirt.cliData ≤ r.size
  | .ethDriver | .serialDriver | .blkDriver => False

theorem SerialVirt.covered_iff {l : Layout} {ownRegions : List RegionResource} {client : Client}
    {data : DMARegion} {cfg : Config} {clients : List (Option Client)} {k : Nat}
    {h h' : Holdings} (hc : clients[0]? = some (some client)) (hd : client.data = some data)
    (hsound : Client.Sound l k h client) (hgrown : ∀ lo, Grown lo h h')
    (hat : data.vaddr = cliData)
    (hreach : ∀ w ∈ h.windows, w.2.Contains ⟨cliData, cliData⟩ → cliData ≤ data.size)
    (hmem : ⟨data.vaddr, data.vaddr⟩ ∈ cfg.regions)
    (hregions : ∀ r ∈ cfg.regions, r = ⟨data.vaddr, data.vaddr⟩ ∨ r ∈ ownRegions ∨
      client.Region r)
    (howned : ∀ r ∈ ownRegions, h'.Covers r) :
    (∀ r ∈ cfg.regions, h'.Covers r) ↔
      ∀ c r, clients[0]? = some (some c) → c.data = some r → cliData ≤ r.size := by
  constructor
  · rintro hall c r hc' hr
    cases hc.symm.trans hc'
    cases hd.symm.trans hr
    obtain ⟨w, hw, v, -, -, hcontains, -⟩ := hall _ hmem
    rw [hat] at hcontains
    rcases (hgrown (cliData + 1)).fresh w hw with hold | hnew
    · exact hreach w hold hcontains
    · have hstart : w.2.start ≤ cliData := hcontains.1
      omega
  · intro hlong r hr
    have hsize : cliData ≤ data.size := hlong client data hc hd
    rcases hregions r hr with rfl | ho | hclient
    · refine (hgrown 0).covers (Holdings.Maps.covers (hsound.2.data data hd) (Nat.le_refl _) ?_)
      simp only
      omega
    · exact howned r ho
    · exact (hgrown 0).covers (hsound.2.covers hclient)

/-- Every configured region is covered exactly in the network virtualizers, and in the serial ones
when the client's data region is as long as its own address is high. -/
theorem config_covered_iff (kind : Kind) (ans : Answers) (own : kind.component.Own)
    (c₀ c₁ c₂ c₃ : Component) (events : List Event) (clients : List (Option Client))
    (cfg : Config) (hown : kind.component.setUp ans c₀ = .ok own c₁)
    (hrun : preInit ans (kind.component.handlers ans own) kind.component.slots events c₁ =
      .ok (some clients) c₂)
    (hcfg : kind.component.configure ans own clients c₂ = .ok cfg c₃) :
    (∀ r ∈ cfg.regions, c₃.held.Covers r) ↔ kind.coversAll clients := by
  obtain ⟨s, hleft, rfl, rfl⟩ := preInit_left hrun
  have hgrown : ∀ lo, Grown lo s.component.held c₃.held := fun lo =>
    ((configure_makes ans kind own s.clients).run hcfg).1
  -- what is covered by the time the loop returns
  have howned : ∀ r ∈ kind.ownRegions own, c₃.held.Covers r := fun r hr =>
    (hgrown 0).covers (hleft.grown.covers (ownRegions_covered hown r hr))
  have hclient : ∀ client r, s.clients[0]? = some (some client) → client.Region r →
      c₃.held.Covers r := fun client r hc hr =>
    (hgrown 0).covers ((hleft.sound 0 client hc).2.covers hr)
  have hdriver : ∀ r, kind.registers own = some r → ¬ ∀ r ∈ cfg.regions, c₃.held.Covers r := by
    intro r hr hall
    obtain ⟨hmiss, hlow⟩ := registers_missed hown hr
    have hmiss' := (hgrown kind.layout.lowest).misses hlow (hleft.grown.misses hlow hmiss)
    exact hmiss'.not_covers (hall r (registers_mem hr hcfg))
  cases kind with
  | ethDriver | serialDriver | blkDriver => exact ⟨hdriver _ rfl, False.elim⟩
  | ethVirtRx =>
    obtain ⟨copier, hcopier, hregions⟩ := EthVirtRx.configure_regions hcfg
    refine ⟨fun _ => trivial, fun _ r hr => ?_⟩
    rcases hregions r hr with ho | hc
    · exact howned r ho
    · exact hclient copier r hcopier hc
  | ethVirtTx =>
    obtain ⟨client, hclient', hregions⟩ := EthVirtTx.configure_regions hcfg
    refine ⟨fun _ => trivial, fun _ r hr => ?_⟩
    rcases hregions r hr with ho | hc
    · exact howned r ho
    · exact hclient client r hclient' hc
  | serialVirtRx =>
    obtain ⟨client, data, hc, hd, hmem, hregions⟩ := SerialVirt.configure_regions hcfg
    obtain ⟨hat, hreach⟩ := hleft.reaches (.inl rfl) client data hc hd
    exact SerialVirt.covered_iff hc hd (hleft.sound 0 client hc) hgrown hat hreach hmem hregions
      howned
  | serialVirtTx =>
    obtain ⟨client, data, hc, hd, hmem, hregions⟩ := SerialVirt.configure_regions hcfg
    obtain ⟨hat, hreach⟩ := hleft.reaches (.inr rfl) client data hc hd
    exact SerialVirt.covered_iff hc hd (hleft.sound 0 client hc) hgrown hat hreach hmem hregions
      howned

/-! ## Three runs -/

/-- A client of a serial virtualizer. -/
def serialClient : List Event := [
  .invocation 7 (.connOpen none),
  .invocation 7 (.channelRegisterBidirectional 4 none),
  .invocation 7 (.queueRegister 1 0x1000 .none),
  .invocation 7 (.provideDataRegion 3 0x1000)]

/-- The two virtualizers of the Ethernet driver. -/
def ethVirts : List Event := [
  .invocation 7 (.connOpen none),
  .invocation 7 (.channelRegisterBidirectional 4 (some .rx)),
  .invocation 8 (.connOpen none),
  .invocation 8 (.channelRegisterBidirectional 5 (some .tx)),
  .invocation 7 (.queueRegister 1 0x200000 .active),
  .invocation 7 (.queueRegister 2 0x200000 .free),
  .invocation 8 (.queueRegister 1 0x200000 .active),
  .invocation 8 (.queueRegister 2 0x200000 .free)]

/-- The serial virtualizers hand on 64 MiB for the client's page, and the Ethernet driver registers
that end 0xe00 bytes behind the device's page. -/
theorem config_not_covered :
    (∃ cfg c, (SerialVirt.component .rx).main granted serialClient published = .ok (some cfg) c ∧
      ⟨SerialVirt.cliData, 0x4002000⟩ ∈ cfg.regions ∧
      ¬ ∀ r ∈ cfg.regions, c.held.Covers r) ∧
    ∃ cfg c, EthDriver.component.main granted ethVirts published = .ok (some cfg) c ∧
      ⟨EthDriver.regsBase + 0xe00, 0x1000⟩ ∈ cfg.regions ∧
      ¬ ∀ r ∈ cfg.regions, c.held.Covers r := by
  have hserial : ((SerialVirt.component .rx).main granted serialClient published).toOption.any
      (fun x => x.1.any fun cfg => decide (⟨SerialVirt.cliData, 0x4002000⟩ ∈ cfg.regions ∧
        ¬ ∀ r ∈ cfg.regions, x.2.held.Covers r)) = true := by decide +kernel
  have heth : (EthDriver.component.main granted ethVirts published).toOption.any
      (fun x => x.1.any fun cfg => decide (⟨EthDriver.regsBase + 0xe00, 0x1000⟩ ∈ cfg.regions ∧
        ¬ ∀ r ∈ cfg.regions, x.2.held.Covers r)) = true := by decide +kernel
  have hrun : ∀ {m : SddfComponent} {events : List Event} {P : Config → Component → Prop}
      [∀ cfg c, Decidable (P cfg c)], (m.main granted events published).toOption.any
        (fun x => x.1.any fun cfg => decide (P cfg x.2)) = true →
      ∃ cfg c, m.main granted events published = .ok (some cfg) c ∧ P cfg c := by
    intro m events P _ h
    obtain ⟨⟨r, c⟩, hrun, hr⟩ := (Option.any_eq_true _ _).mp h
    obtain ⟨cfg, rfl, hp⟩ := (Option.any_eq_true _ _).mp hr
    exact ⟨cfg, c, Outcome.toOption_eq_some.mp hrun, of_decide_eq_true hp⟩
  exact ⟨hrun hserial, hrun heth⟩

/-- A client of the receive virtualizer. -/
def copierClient : List Event := [
  .invocation 7 (.connOpen none),
  .invocation 7 (.channelRegisterBidirectional 4 none),
  .invocation 7 (.queueRegister 1 0x200000 .active),
  .invocation 7 (.queueRegister 2 0x200000 .free),
  .invocation 7 .getDataRegion]

theorem config_covered_copierClient :
    ∃ own c₁ clients c₂ cfg c₃, EthVirtRx.setUp granted published = .ok own c₁ ∧
      preInit granted (EthVirtRx.handlers granted own.rcvDmaRegion) 1 copierClient c₁ =
        .ok (some clients) c₂ ∧
      EthVirtRx.configure granted own clients c₂ = .ok cfg c₃ ∧
      ∀ r ∈ cfg.regions, c₃.held.Covers r := by
  have hrun : (EthVirtRx.setUp granted published).toOption.any (fun x =>
      (preInit granted (EthVirtRx.handlers granted x.1.rcvDmaRegion) 1 copierClient
        x.2).toOption.any fun y => y.1.any fun clients =>
          (EthVirtRx.configure granted x.1 clients y.2).toOption.isSome) = true := by
    decide +kernel
  obtain ⟨⟨own, c₁⟩, hown, hrun⟩ := (Option.any_eq_true _ _).mp hrun
  obtain ⟨⟨r, c₂⟩, hloop, hrun⟩ := (Option.any_eq_true _ _).mp hrun
  obtain ⟨clients, rfl, hrun⟩ := (Option.any_eq_true _ _).mp hrun
  obtain ⟨⟨cfg, c₃⟩, hcfg⟩ := Option.isSome_iff_exists.mp hrun
  have hown := Outcome.toOption_eq_some.mp hown
  have hloop := Outcome.toOption_eq_some.mp hloop
  have hcfg := Outcome.toOption_eq_some.mp hcfg
  exact ⟨own, c₁, clients, c₂, cfg, c₃, hown, hloop, hcfg,
    (config_covered_iff .ethVirtRx granted own published c₁ c₂ c₃ copierClient clients cfg hown
      hloop hcfg).mpr trivial⟩

end Smos.Drivers
