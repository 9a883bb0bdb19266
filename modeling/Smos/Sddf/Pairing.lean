/-
Smos.Sddf.Pairing — what holds of the channels, however the handshakes interleave.

Nothing a channel rests on is ever taken away: an entry of the handle
capability table stays as it is, a capability stays in its slot, and a bit
that a dispatcher has given is not given again. So a handle capability that
has been handed out always opens the same bit of the same process.

The one thing that does change is what a server has recorded for a client:
a second registration replaces it.
-/
import Smos.Sddf.Channel

namespace Smos.Sddf

open Smos.Base Smos.RootServer
open Smos.Ipc (decodeEntryType ntfnWord ntfnWordBits)

variable {s s' s'' : State} {srv : ServerRef} {p : Nat}

/-- Nothing that a channel rests on is lost. -/
structure Kept (s s' : State) : Prop where
  caps : ∀ c cap, s.res.kernel.caps c = some cap → s'.res.kernel.caps c = some cap
  auth : ∀ i x, s.handleAt (.cap i) = some x → s'.handleAt (.cap i) = some x
  handles : ∀ x idx, s'.handleAt (.table x idx) = s.handleAt (.table x idx)
  ntfn : ∀ srv, (s'.servers srv).ntfn = (s.servers srv).ntfn

namespace Kept

protected theorem refl (s : State) : Kept s s :=
  ⟨fun _ _ h => h, fun _ _ h => h, fun _ _ => rfl, fun _ => rfl⟩

protected theorem trans (h : Kept s s') (h' : Kept s' s'') : Kept s s'' where
  caps c cap hcap := h'.caps c cap (h.caps c cap hcap)
  auth i x hx := h'.auth i x (h.auth i x hx)
  handles x idx := (h'.handles x idx).trans (h.handles x idx)
  ntfn srv := (h'.ntfn srv).trans (h.ntfn srv)

/-- The resources change, but no capability is lost. -/
theorem onRes {r : Res} (h : Kept s s') (hcaps : ∀ c cap, s'.res.kernel.caps c = some cap →
    r.kernel.caps c = some cap) : Kept s { s' with res := r } :=
  h.trans ⟨hcaps, fun i x => by cases s'; exact id, fun x idx => by cases s'; rfl, fun _ => rfl⟩

/-- A dispatcher changes. -/
theorem modifyDispatch {f : NotificationDispatch → NotificationDispatch} (h : Kept s s') :
    Kept s { s' with
      servers := s'.servers.update srv fun server =>
        { server with ntfnDispatch := f server.ntfnDispatch } } := by
  refine h.trans ⟨fun _ _ h => h, fun i x => ?_, fun x idx => rfl, fun srv' => ?_⟩
  · intro hx; exact hx
  · by_cases heq : srv' = srv
    · simp [heq]
    · simp [Heap.update_of_ne _ heq]

/-- An entry of the handle capability table is filled. -/
theorem setHandleCap {i : Nat} {x : RootServerResource} (h : Kept s s')
    (hnone : s'.handleAt (.cap i) = none) :
    Kept s (s'.setHandleAt (.cap i) (some x)) := by
  refine h.trans ⟨fun _ _ h => h, fun j y hy => ?_, fun y idx => ?_, fun _ => rfl⟩
  · by_cases hj : j = i
    · subst hj
      rw [hnone] at hy
      cases hy
    · have : s'.handleAt (.cap j) = (s'.setHandleAt (.cap i) (some x)).handleAt (.cap j) := by
        simp [State.handleAt, State.setHandleAt, Function.update_of_ne hj]
      rw [← this]
      exact hy
  · rfl

/-- A process changes, but not its handles. -/
theorem modifyProc {f : UserProcess → UserProcess} (h : Kept s s')
    (hf : ∀ u, (f u).handleTable = u.handleTable) :
    Kept s { s' with procCells := s'.procCells.update p (ProcessType.map f) } := by
  refine h.trans ⟨fun _ _ h => h, fun _ _ h => h, fun x idx => ?_, fun _ => rfl⟩
  simp only [State.handleAt, Heap.update_apply]
  by_cases hx : x = p
  · subst hx
    rw [if_pos rfl]
    cases hcell : s'.procCells x with
    | activeProcess u => simp [ProcessType.map, hf]
    | zombieProcess pid => simp [ProcessType.map]
  · rw [if_neg hx]

end Kept

/-- A registration takes nothing away, and leaves the other dispatchers alone. -/
structure KeptBut (srv : ServerRef) (s s' : State) : Prop where
  kept : Kept s s'
  others : ∀ srv', srv' ≠ srv → (s'.servers srv').ntfnDispatch = (s.servers srv').ntfnDispatch
  table : s'.handleCaps = s.handleCaps

namespace KeptBut

theorem onRes {r : Res} (h : KeptBut srv s s') (hcaps : ∀ c cap,
    s'.res.kernel.caps c = some cap → r.kernel.caps c = some cap) :
    KeptBut srv s { s' with res := r } := ⟨h.kept.onRes hcaps, h.others, h.table⟩

theorem modifyDispatch {f : NotificationDispatch → NotificationDispatch} (h : KeptBut srv s s') :
    KeptBut srv s { s' with
      servers := s'.servers.update srv fun server =>
        { server with ntfnDispatch := f server.ntfnDispatch } } := by
  refine ⟨h.kept.modifyDispatch, fun srv' hne => ?_, h.table⟩
  rw [← h.others srv' hne]
  simp [Heap.update_of_ne _ hne]

end KeptBut

theorem allocSlot_caps (r : Res) : allocSlot.wp (fun _ r' => r'.kernel = r.kernel)
    (fun _ r' => r'.kernel = r.kernel) (fun _ => True) r := by
  unfold allocSlot
  rw [Prog.wp_zoom]
  exact Prog.wp_mono Prog.wp_trivial (fun _ _ _ => rfl) (fun _ _ _ => rfl) fun _ _ => trivial

section Steps

variable {ε : Type} {s₀ : State}

theorem modifyDispatch_kept {f : NotificationDispatch → NotificationDispatch}
    {E : ε → State → Prop} (h : KeptBut srv s₀ s) :
    (modifyDispatch srv f : SProg ε Unit).wp (fun _ s' => KeptBut srv s₀ s' ∧ s'.res = s.res) E
      (fun _ => True) s := by
  simp only [modifyDispatch, wp_modifyServer]
  exact ⟨h.modifyDispatch, trivial⟩

theorem allocNtfnBit_kept (h : KeptBut srv s₀ s) :
    (allocNtfnBit srv).wp (fun _ s' => KeptBut srv s₀ s' ∧ s'.res = s.res)
      (fun _ => KeptBut srv s₀) (fun _ => True) s := by
  simp only [allocNtfnBit, Prog.wp_bind, wp_getServer, Prog.wp_okOr, Prog.wp_unwrap, Prog.wp_pure]
  refine ⟨fun bit _ => ⟨fun bits _ => modifyDispatch_kept h, fun _ => trivial⟩, fun _ => h⟩

theorem freeNtfnBit_kept (bit : Nat) (h : KeptBut srv s₀ s) :
    (freeNtfnBit srv bit : SProg ε Unit).wp (fun _ => KeptBut srv s₀) (fun _ _ => False)
      (fun _ => True) s := by
  simp only [freeNtfnBit, Prog.wp_bind, wp_getServer, Prog.wp_unwrap]
  refine ⟨fun bits _ => ?_, fun _ => trivial⟩
  exact Prog.wp_mono (modifyDispatch_kept h) (fun _ _ h => h.1) (fun _ _ h => h) fun _ h => h

theorem onRes_kept {α : Type} {m : RProg ε α} (hm : m.wp (fun _ r => r.kernel = s.res.kernel)
    (fun _ r => r.kernel = s.res.kernel) (fun _ => True) s.res) (h : KeptBut srv s₀ s) :
    (onRes m).wp (fun _ s' => KeptBut srv s₀ s' ∧ s'.res.kernel = s.res.kernel)
      (fun _ => KeptBut srv s₀) (fun _ => True) s := by
  rw [wp_onRes]
  refine Prog.wp_mono hm (fun _ r hr => ⟨h.onRes ?_, hr⟩) (fun _ r hr => h.onRes ?_)
    fun _ h => h
  all_goals
    intro c cap hcap
    rw [hr]
    exact hcap

/-- The new notification is minted into a slot that was empty. -/
theorem mintNtfn_kept (ntfn : Slot) (bit : Nat) (h : KeptBut srv s₀ s) :
    (mintNtfn srv ntfn bit : SProg ε Unit).wp
      (fun _ s' => KeptBut srv s₀ s' ∧ ∃ obj kind,
        s.res.kernel.caps (s.servers srv).ntfn.1 = some (.object obj kind) ∧
        s'.res.kernel.caps ntfn = some (.badged obj kind (ntfnBadge bit) .writeOnly))
      (fun _ _ => False) (fun _ => True) s := by
  simp only [mintNtfn, mintCap, kcall, Prog.wp_bind, wp_getServer, wp_onRes, Prog.wp_expect,
    Prog.wp_zoom, Prog.wp_ofExcept]
  refine ⟨fun k hk => ?_, fun _ _ => trivial⟩
  obtain ⟨obj, kind, hsrc, hdst, rfl⟩ := Kernel.mint_ok hk
  refine ⟨h.onRes ?_, obj, kind, hsrc, by simp [Kernel.setCap]⟩
  intro c cap hcap
  by_cases hc : c = ntfn
  · subst hc
    rw [hdst] at hcap
    cases hcap
  · simpa [Kernel.setCap, Function.update_of_ne hc] using hcap

end Steps

theorem dispatchNtfnRegister_kept (s : State) (srv : ServerRef) :
    (dispatchNtfnRegister srv).wp
      (fun x s' => KeptBut srv s s' ∧ ∃ obj kind,
        s.res.kernel.caps (s.servers srv).ntfn.1 = some (.object obj kind) ∧
        s'.res.kernel.caps x.2 = some (.badged obj kind (ntfnBadge x.1) .writeOnly))
      (fun _ => KeptBut srv s) (fun _ => True) s := by
  have hrefl : KeptBut srv s s := ⟨.refl s, fun _ _ => rfl, rfl⟩
  simp only [dispatchNtfnRegister, Prog.wp_bind, Prog.wp_catchErr, Prog.wp_fail, Prog.wp_pure]
  refine Prog.wp_mono (allocNtfnBit_kept hrefl) ?_ (fun _ _ h => h) fun _ h => h
  intro bit s₁ hpost
  rcases hpost with ⟨h₁, hres₁⟩
  refine Prog.wp_mono (onRes_kept (allocSlot_caps _) h₁) ?_ ?_ fun _ h => h
  · intro ntfn s₂ hpost
    rcases hpost with ⟨h₂, hkernel⟩
    refine Prog.wp_mono (mintNtfn_kept ntfn bit h₂) ?_ (fun _ _ => False.elim) fun _ h => h
    intro _ s₃ hpost
    rcases hpost with ⟨h₃, obj, kind, hsrc, hcap⟩
    refine Prog.wp_mono (modifyDispatch_kept (E := fun _ => KeptBut srv s) h₃) ?_
      (fun _ _ h => h) fun _ h => h
    intro _ s₄ hpost
    rcases hpost with ⟨h₄, hres⟩
    refine ⟨h₄, obj, kind, ?_, by rw [hres]; exact hcap⟩
    rw [← h₂.kept.ntfn, ← hres₁, ← hkernel]
    exact hsrc
  · intro _ s₂ h₂
    exact Prog.wp_mono (freeNtfnBit_kept bit h₂) (fun _ _ h => h) (fun _ _ => False.elim)
      fun _ h => h

/-- What a new channel authority leaves behind: the entry, and the badged notification. -/
structure Made (p hndl bit hndlCap : Nat) (s s' : State) : Prop where
  kept : Kept s s'
  held : ∃ srv, s.handleAt (.table p hndl) = some (.server srv) ∧
    TookBit srv (s.servers srv).ntfnDispatch.allocatedBits bit s' ∧
    (∀ srv', srv' ≠ srv → (s'.servers srv').ntfnDispatch = (s.servers srv').ntfnDispatch) ∧
    ∃ slot obj kind, s.res.kernel.caps (s.servers srv).ntfn.1 = some (.object obj kind) ∧
      s'.handleAt (.cap hndlCap) = some (.channelAuthority slot bit) ∧
      s'.res.kernel.caps slot = some (.badged obj kind (ntfnBadge bit) .writeOnly)

/-- What is left after an error. -/
structure Refused (s s' : State) : Prop where
  kept : Kept s s'
  bits : ∀ srv, SameBits (s.servers srv).ntfnDispatch.allocatedBits
    (s'.servers srv).ntfnDispatch.allocatedBits

theorem Refused.refl (s : State) : Refused s s := ⟨.refl s, fun _ => .refl _⟩

theorem handleServerCreateChannel_spec (p hndl : Nat) (s : State) :
    (handleServerCreateChannel p hndl).wp
      (fun reply s' => ∃ bit hndlCap, reply = .serverCreateChannel bit hndlCap ∧
        Made p hndl bit hndlCap s s')
      (fun _ => Refused s) (fun _ => True) s := by
  simp only [handleServerCreateChannel, Prog.wp_bind, Prog.wp_catchErr, Prog.wp_fail]
  refine Prog.wp_mono (getHandle_spec s p hndl) ?_ ?_ fun _ _ => trivial
  swap
  · intro _ s' hs
    exact hs ▸ .refl s
  intro x s₁ hpost
  rcases hpost with ⟨hs₁, -, hx⟩
  subst hs₁
  rw [Prog.wp_unwrap]
  refine ⟨fun y hy => ?_, fun _ => trivial⟩
  rw [hy] at hx
  cases y with
  | server srv =>
    simp only [Prog.wp_bind, Prog.wp_pure]
    have hempty := genericAllocateHandle_spec s₁ p true
    refine Prog.wp_mono hempty ?_ ?_ fun _ _ => trivial
    swap
    · intro _ s' hs
      exact hs ▸ .refl s₁
    intro hndlCap s₂ hpost
    rcases hpost with ⟨hs₂, hvalid, hnone⟩
    subst hs₂
    have hbits : HasBits srv (s₂.servers srv).ntfnDispatch.allocatedBits s₂ := rfl
    have hboth := Prog.wp_and (dispatchNtfnRegister_spec hbits) (dispatchNtfnRegister_kept s₂ srv)
    refine Prog.wp_mono hboth ?_ ?_ fun _ _ => trivial
    · intro x' s₃ hpost
      rcases x' with ⟨bit, slot⟩
      rcases hpost with ⟨⟨htook, -⟩, hkept, obj, kind, hsrc, hcap⟩
      simp only [wp_setHandleCap, wp_modifyProc]
      have hnone₃ : s₃.handleAt (.cap hndlCap) = none := by
        rw [← hnone]
        simp only [State.handleAt, allocatedLoc, hkept.table, if_true]
      have hvalid₃ : s₃.ValidLoc (.cap hndlCap) := hvalid
      have hentry := State.handleAt_setHandleAt hvalid₃ (some (.channelAuthority slot bit))
        (.cap hndlCap)
      rw [if_pos rfl] at hentry
      refine ⟨bit, hndlCap, rfl, (hkept.kept.setHandleCap hnone₃).modifyProc fun _ => rfl, srv,
        hx.symm, htook, hkept.others, slot, obj, kind, hsrc, hentry, hcap⟩
    · intro _ s₃ hpost
      rcases hpost with ⟨⟨bits, hsame, hbits⟩, hkept⟩
      refine ⟨hkept.kept, fun srv' => ?_⟩
      by_cases heq : srv' = srv
      · rw [heq]
        unfold HasBits at hbits
        rw [hbits]
        exact hsame
      · rw [hkept.others srv' heq]
        exact .refl _
  | _ => exact .refl s₁

theorem handleChannelOpen_spec (hndlCap : Nat) (s : State) :
    (handleChannelOpen hndlCap).wp
      (fun reply s' => s' = s ∧ ∃ slot bit, reply = .channelOpen slot ∧
        s.handleAt (.cap hndlCap) = some (.channelAuthority slot bit))
      (fun _ => Refused s) (fun _ => True) s := by
  simp only [handleChannelOpen, Prog.wp_bind, Prog.wp_catchErr, Prog.wp_fail]
  refine Prog.wp_mono (getHandleCap_spec s hndlCap) ?_ (fun _ _ h => h ▸ .refl s)
    fun _ _ => trivial
  intro x s₁ hpost
  rcases hpost with ⟨hs₁, -, hx⟩
  subst hs₁
  rw [Prog.wp_unwrap]
  refine ⟨fun y hy => ?_, fun _ => trivial⟩
  rw [hy] at hx
  cases y with
  | channelAuthority slot bit => exact ⟨rfl, slot, bit, rfl, hx.symm⟩
  | _ => exact .refl s₁

/-! ## Progress of the root server -/

/-- What the invocations of a handshake do to the root server, whether or not they succeed. -/
structure Advance (s s' : State) : Prop where
  kept : Kept s s'
  taken : ∀ srv i, Taken srv s i → Taken srv s' i
  dispatching : ∀ srv given, Dispatching srv given s → ∃ given', Dispatching srv given' s'

theorem Refused.advance (h : Refused s s') : Advance s s' where
  kept := h.kept
  taken srv i hi := ((h.bits srv).has i).mpr hi
  dispatching srv given hd := ⟨given, hd.sameBits (h.bits srv)⟩

theorem Made.advance {hndl bit hndlCap : Nat} (h : Made p hndl bit hndlCap s s') :
    Advance s s' := by
  obtain ⟨srv, -, htook, hothers, -⟩ := h.held
  refine ⟨h.kept, fun srv' i hi => ?_, fun srv' given hd => ?_⟩
  · by_cases heq : srv' = srv
    · subst heq
      obtain ⟨bits, -, hset, hbits⟩ := htook
      unfold Taken HasBits at *
      rw [hbits, Bitfield.bfSetBit_has hset]
      exact .inl hi
    · unfold Taken at *
      rw [hothers srv' heq]
      exact hi
  · by_cases heq : srv' = srv
    · subst heq
      exact ⟨_, hd.tookBit htook⟩
    · exact ⟨given, hd.sameBits (by rw [hothers srv' heq]; exact .refl _)⟩

/-- The bit was free before, and is not the top one. -/
theorem Made.fresh {hndl bit hndlCap : Nat} {given : List Registered}
    (h : Made p hndl bit hndlCap s s') (hsrv : s.handleAt (.table p hndl) = some (.server srv))
    (hd : Dispatching srv given s) : ¬ Taken srv s bit ∧ Taken srv s' bit ∧ bit < 63 := by
  obtain ⟨srv', hsrv', htook, -, -⟩ := h.held
  cases hsrv.symm.trans hsrv'
  have hlast := (hd.tookBit htook).range ⟨bit, some (ntfnBadge bit)⟩ (by simp)
  obtain ⟨bits, hfree, hset, hbits⟩ := htook
  refine ⟨(Bitfield.bfFirstFree_spec hfree).2, ?_, hlast.1⟩
  unfold Taken HasBits at *
  rw [hbits, Bitfield.bfSetBit_has hset]
  exact .inr rfl

/-! ## Authorities -/

variable {ps : Parties} {sys sys' : System} {x y bit : Nat}

theorem serverOf_eq (h : Kept s s') (x : Nat) : ps.serverOf s' x = ps.serverOf s x := by
  unfold Parties.serverOf
  rw [h.handles]

theorem ntfnOf_kept (h : Kept s s') {obj : Nat} (hx : ps.ntfnOf s x = some obj) :
    ps.ntfnOf s' x = some obj := by
  unfold Parties.ntfnOf at *
  rw [serverOf_eq h]
  cases hsrv : ps.serverOf s x with
  | none => simp [hsrv] at hx
  | some srv =>
    simp only [hsrv, Option.bind_some, h.ntfn] at hx ⊢
    cases hcap : s.res.kernel.caps (s.servers srv).ntfn.1 with
    | none => simp [hcap] at hx
    | some cap =>
      rw [h.caps _ _ hcap]
      rwa [hcap] at hx

/-- The capability signals this bit of the process. -/
def Reaches (ps : Parties) (s : State) (x bit : Nat) (cap : Option Cap) : Prop :=
  bit < 63 ∧ ∃ obj, ps.ntfnOf s x = some obj ∧
    cap = some (.badged obj .notification (ntfnBadge bit) .writeOnly)

/-- The handle capability opens this bit of the process. -/
def Grants (ps : Parties) (s : State) (x bit hndlCap : Nat) : Prop :=
  ∃ slot, s.handleAt (.cap hndlCap) = some (.channelAuthority slot bit) ∧
    Reaches ps s x bit (s.res.kernel.caps slot)

theorem Reaches.kept {cap : Option Cap} (h : Reaches ps s x bit cap) (hk : Kept s s') :
    Reaches ps s' x bit cap := by
  obtain ⟨hlt, obj, hobj, hcap⟩ := h
  exact ⟨hlt, obj, ntfnOf_kept hk hobj, hcap⟩

theorem Grants.kept {hndlCap : Nat} (h : Grants ps s x bit hndlCap) (hk : Kept s s') :
    Grants ps s' x bit hndlCap := by
  obtain ⟨slot, hentry, hlt, obj, hobj, hcap⟩ := h
  exact ⟨slot, hk.auth _ _ hentry, hlt, obj, ntfnOf_kept hk hobj, hk.caps _ _ hcap⟩

/-- A word that decodes to one bit. -/
theorem ntfnWordBits_badge {bit : Nat} (hlt : bit < 63) :
    ∃ word, decodeEntryType (ntfnWord [ntfnBadge bit]) = some (.notification word) ∧
      ntfnWordBits word = [bit] := by
  have hne : ([⟨bit, some (ntfnBadge bit)⟩] : List Registered) ≠ [] := by simp
  obtain ⟨word, hdecode, hnodup, hbits⟩ := signalled_decode hne (by simp) (by simpa using hlt)
  refine ⟨word, hdecode, List.perm_singleton.mp ?_⟩
  refine (List.perm_ext_iff_of_nodup hnodup (List.nodup_singleton bit)).mpr fun i => ?_
  rw [hbits]
  simp [eq_comm]

/-- Signalling it delivers the bit to the process, and nothing to any other. -/
theorem Reaches.delivers {cap : Option Cap} (h : Reaches ps s x bit cap)
    (hapart : ∀ x y obj, ps.ntfnOf s x = some obj → ps.ntfnOf s y = some obj → x = y) :
    ps.Delivers s cap x bit := by
  obtain ⟨hlt, obj, hobj, rfl⟩ := h
  obtain ⟨word, hdecode, hbits⟩ := ntfnWordBits_badge hlt
  constructor
  · simp [Parties.received, CapRights.writeOnly, hobj, hdecode, hbits]
  · intro y hy
    have hne : ps.ntfnOf s y ≠ some obj := fun h => hy (hapart y x obj h hobj)
    simp [Parties.received, hne]

/-! ## The invariant -/

/-- What a handshake has so far. -/
def Stage.Good (ps : Parties) (sys : System) (client server : Nat) : Stage → Prop
  | .created bit hndlCap _ => Grants ps sys.root client bit hndlCap
  | .opened bit _ _ toChannel => Reaches ps sys.root client bit toChannel
  | .answered bit _ toHndlCap => ∃ r, sys.recorded server client = some r ∧
      Grants ps sys.root server r.fromBit toHndlCap ∧
      Reaches ps sys.root client bit r.toChannel

structure Inv (ps : Parties) (sys : System) : Prop where
  dispatching : ∀ x srv, ps.serverOf sys.root x = some srv →
    ∃ given, Dispatching srv given sys.root
  ntfn : ∀ x srv, ps.serverOf sys.root x = some srv →
    ∃ obj, sys.root.res.kernel.caps (sys.root.servers srv).ntfn.1 =
      some (.object obj .notification)
  apart : ∀ x y obj, ps.ntfnOf sys.root x = some obj → ps.ntfnOf sys.root y = some obj → x = y
  running : ∀ client h, sys.running client = some h → h.stage.Good ps sys client h.server
  channels : ∀ client server ch, (server, ch) ∈ sys.channels client →
    ∃ r, sys.recorded server client = some r ∧
      Reaches ps sys.root server r.fromBit ch.toChannel ∧
      Reaches ps sys.root client ch.fromBit r.toChannel
  taken : ∀ x a bit, sys.bitOf x a = some bit → ∃ srv, ps.serverOf sys.root x = some srv ∧
    Taken srv sys.root bit
  distinct : ∀ x a b bit, sys.bitOf x a = some bit → sys.bitOf x b = some bit → a = b

theorem Stage.Good.kept {stage : Stage} {client server : Nat} {root : State}
    (h : stage.Good ps sys client server) (hk : Kept sys.root root) :
    stage.Good ps { sys with root := root } client server := by
  cases stage with
  | created bit hndlCap virtType => exact Grants.kept h hk
  | opened bit hndlCap virtType toChannel => exact Reaches.kept h hk
  | answered bit hndlCap toHndlCap =>
    obtain ⟨r, hr, hgrants, hreaches⟩ := h
    exact ⟨r, hr, hgrants.kept hk, hreaches.kept hk⟩

namespace Inv

theorem start (h : Start ps sys) : Inv ps sys where
  dispatching x srv hx := by
    obtain ⟨given, hgiven⟩ := h.registering x srv hx
    exact ⟨given, hgiven.dispatching⟩
  ntfn := h.ntfn
  apart := h.apart
  running client hs hrun := by simp [h.running] at hrun
  channels client server ch hch := by simp [h.channels] at hch
  taken x a bit hbit := by
    cases a <;> simp [System.bitOf, h.running, h.channels, h.recorded] at hbit
  distinct x a b bit ha := by
    cases a <;> simp [System.bitOf, h.running, h.channels, h.recorded] at ha

theorem ntfnOf_of_serverOf (h : Inv ps sys) (hx : ps.serverOf sys.root x = some srv) :
    ∃ obj, ps.ntfnOf sys.root x = some obj ∧
      sys.root.res.kernel.caps (sys.root.servers srv).ntfn.1 =
        some (.object obj .notification) := by
  obtain ⟨obj, hobj⟩ := h.ntfn x srv hx
  exact ⟨obj, by simp [Parties.ntfnOf, hx, hobj], hobj⟩

/-- The root server has done one more invocation. -/
theorem advance (h : Inv ps sys) {root : State} (ha : Advance sys.root root) :
    Inv ps { sys with root := root } where
  dispatching x srv hx := by
    rw [serverOf_eq ha.kept] at hx
    obtain ⟨given, hd⟩ := h.dispatching x srv hx
    exact ha.dispatching srv given hd
  ntfn x srv hx := by
    rw [serverOf_eq ha.kept] at hx
    obtain ⟨obj, hobj⟩ := h.ntfn x srv hx
    exact ⟨obj, by simpa [ha.kept.ntfn] using ha.kept.caps _ _ hobj⟩
  apart x y obj hx hy := by
    have hback : ∀ z, ps.ntfnOf root z = some obj → ps.ntfnOf sys.root z = some obj := by
      intro z hz
      have hsrv : ∃ srv, ps.serverOf sys.root z = some srv := by
        rw [← serverOf_eq ha.kept]
        cases hs : ps.serverOf root z with
        | none => simp [Parties.ntfnOf, hs] at hz
        | some srv => exact ⟨srv, rfl⟩
      obtain ⟨srv, hsrv⟩ := hsrv
      obtain ⟨obj', hobj', -⟩ := h.ntfnOf_of_serverOf hsrv
      rw [ntfnOf_kept ha.kept hobj'] at hz
      cases hz
      exact hobj'
    exact h.apart x y obj (hback x hx) (hback y hy)
  running client hs hrun := (h.running client hs hrun).kept ha.kept
  channels client server ch hch := by
    obtain ⟨r, hr, hto, hfrom⟩ := h.channels client server ch hch
    exact ⟨r, hr, hto.kept ha.kept, hfrom.kept ha.kept⟩
  taken x a bit hbit := by
    obtain ⟨srv, hsrv, htaken⟩ := h.taken x a bit hbit
    exact ⟨srv, (serverOf_eq ha.kept x).trans hsrv, ha.taken srv bit htaken⟩
  distinct := h.distinct

end Inv

/-! ## Steps -/

@[simp] theorem System.setRunning_self (sys : System) (client : Nat) (h : Option Handshake) :
    (sys.setRunning client h).running client = h := by
  simp [setRunning]

@[simp] theorem System.setRunning_of_ne (sys : System) {client c : Nat} (hc : c ≠ client)
    (h : Option Handshake) : (sys.setRunning client h).running c = sys.running c := by
  simp [setRunning, Function.update_of_ne hc]

namespace Inv

variable {client server : Nat}

/-- The bits are still different when one holding got another bit. -/
theorem distinct_of_new {f f' : Holding → Option Nat} (a₀ : Holding)
    (h : ∀ a b n, f a = some n → f b = some n → a = b)
    (hold : ∀ a n, a ≠ a₀ → f' a = some n → f a = some n)
    (hnew : ∀ a n, a ≠ a₀ → f' a = some n → f' a₀ ≠ some n) :
    ∀ a b n, f' a = some n → f' b = some n → a = b := by
  intro a b n ha hb
  by_cases ha₀ : a = a₀
  · by_cases hb₀ : b = a₀
    · rw [ha₀, hb₀]
    · exact absurd (ha₀ ▸ ha) (hnew b n hb₀ hb)
  · by_cases hb₀ : b = a₀
    · exact absurd (hb₀ ▸ hb) (hnew a n ha₀ ha)
    · exact h a b n (hold a n ha₀ ha) (hold b n hb₀ hb)

/-- The bit is new, or the one the client's handshake already has. -/
def Own (ps : Parties) (sys : System) (client bit : Nat) : Prop :=
  (∃ srv, ps.serverOf sys.root client = some srv ∧ Taken srv sys.root bit) ∧
    ∀ a, sys.bitOf client a = some bit → a = .running

theorem own_running (h : Inv ps sys) {hs : Handshake} (hrun : sys.running client = some hs) :
    Own ps sys client hs.stage.fromBit := by
  have hbit : sys.bitOf client .running = some hs.stage.fromBit := by simp [System.bitOf, hrun]
  exact ⟨h.taken _ _ _ hbit, fun a ha => h.distinct _ _ _ _ ha hbit⟩

/-- A client's handshake goes on, or ends. -/
theorem setRunning (h : Inv ps sys) {goesOn : Option Handshake}
    (hnext : ∀ hs, goesOn = some hs →
      hs.stage.Good ps sys client hs.server ∧ Own ps sys client hs.stage.fromBit) :
    Inv ps (sys.setRunning client goesOn) := by
  have hself : (sys.setRunning client goesOn).bitOf client .running =
      goesOn.map fun hs => hs.stage.fromBit := by
    simp [System.bitOf]
  have hold : ∀ x a bit, ¬ (x = client ∧ a = .running) →
      (sys.setRunning client goesOn).bitOf x a = some bit → sys.bitOf x a = some bit := by
    intro x a bit hne hbit
    cases a with
    | running =>
      have hx : x ≠ client := fun hx => hne ⟨hx, rfl⟩
      simpa [System.bitOf, hx] using hbit
    | channel i => exact hbit
    | recorded c => exact hbit
  have hown : ∀ bit, (sys.setRunning client goesOn).bitOf client .running = some bit →
      Own ps sys client bit := by
    intro bit hbit
    rw [hself] at hbit
    obtain ⟨hs, heq, rfl⟩ := Option.map_eq_some_iff.mp hbit
    exact (hnext hs heq).2
  refine { h with running := ?_, taken := ?_, distinct := ?_ }
  · intro c hs hrun
    have hgood : hs.stage.Good ps sys c hs.server := by
      by_cases hc : c = client
      · subst hc
        rw [System.setRunning_self] at hrun
        exact (hnext hs hrun).1
      · rw [System.setRunning_of_ne _ hc] at hrun
        exact h.running c hs hrun
    cases hstage : hs.stage <;> rw [hstage] at hgood <;> exact hgood
  · intro x a bit hbit
    by_cases hx : x = client ∧ a = .running
    · obtain ⟨rfl, rfl⟩ := hx
      exact (hown bit hbit).1
    · exact h.taken x a bit (hold x a bit hx hbit)
  · intro x
    by_cases hx : x = client
    · subst hx
      refine distinct_of_new .running (h.distinct x) ?_ ?_
      · intro a n ha hn
        exact hold x a n (fun hc => ha hc.2) hn
      · intro a n ha hn hrun
        exact ha ((hown n hrun).2 a (hold x a n (fun hc => ha hc.2) hn))
    · intro a b bit ha hb
      exact h.distinct x a b bit (hold x a bit (fun hc => hx hc.1) ha)
        (hold x b bit (fun hc => hx hc.1) hb)

theorem stop (h : Inv ps sys) (client : Nat) : Inv ps (sys.setRunning client none) :=
  h.setRunning nofun

theorem setStage (h : Inv ps sys) {stage : Stage} (hgood : stage.Good ps sys client server)
    (hown : Own ps sys client stage.fromBit) : Inv ps (sys.setStage client server stage) := by
  refine h.setRunning fun hs heq => ?_
  cases heq
  exact ⟨hgood, hown⟩

/-- The server records the channel of a client that has none to it yet. -/
theorem setRecorded (h : Inv ps sys) (virtType : Option VirtType) {hs : Handshake}
    {r : NotificationChannel} (hrun : sys.running client = some hs)
    (hbusy : ∀ b c toHndlCap, hs.stage ≠ .answered b c toHndlCap)
    (hfirst : ∀ e ∈ sys.channels client, e.1 ≠ server)
    (htaken : ∃ srv, ps.serverOf sys.root server = some srv ∧ Taken srv sys.root r.fromBit)
    (hfresh : ∀ a, sys.bitOf server a ≠ some r.fromBit) :
    Inv ps (sys.setRecorded ps server client virtType r) := by
  have hself : (sys.setRecorded ps server client virtType r).recorded server client = some r := by
    simp [System.setRecorded]
  have hother : ∀ v c, ¬ (v = server ∧ c = client) →
      (sys.setRecorded ps server client virtType r).recorded v c = sys.recorded v c := by
    intro v c hne
    by_cases hv : v = server
    · have hc : c ≠ client := fun hc => hne ⟨hv, hc⟩
      simp [System.setRecorded, hv, Function.update_of_ne hc]
    · simp [System.setRecorded, Function.update_of_ne hv]
  have hold : ∀ x a bit, ¬ (x = server ∧ a = .recorded client) →
      (sys.setRecorded ps server client virtType r).bitOf x a = some bit →
      sys.bitOf x a = some bit := by
    intro x a bit hne hbit
    cases a with
    | running => exact hbit
    | channel i => exact hbit
    | recorded c =>
      have hne' : ¬ (x = server ∧ c = client) := fun hc => hne ⟨hc.1, by rw [hc.2]⟩
      simpa [System.bitOf, hother x c hne'] using hbit
  have hnew : (sys.setRecorded ps server client virtType r).bitOf server (.recorded client) =
      some r.fromBit := by
    simp [System.bitOf, hself]
  refine { h with running := ?_, channels := ?_, taken := ?_, distinct := ?_ }
  · intro c hs' hrun'
    have hgood := h.running c hs' hrun'
    cases hstage : hs'.stage with
    | created b i t => rw [hstage] at hgood; exact hgood
    | opened b i t cap => rw [hstage] at hgood; exact hgood
    | answered b i j =>
      rw [hstage] at hgood
      have hne : ¬ (hs'.server = server ∧ c = client) := by
        intro hc
        rw [hc.2] at hrun'
        cases hrun.symm.trans hrun'
        exact hbusy b i j hstage
      obtain ⟨r', hr', hrest⟩ := hgood
      exact ⟨r', (hother _ _ hne).trans hr', hrest⟩
  · intro c v ch hch
    have hne : ¬ (v = server ∧ c = client) := by
      intro hc
      rw [hc.2] at hch
      exact hfirst _ hch hc.1
    obtain ⟨r', hr', hrest⟩ := h.channels c v ch hch
    exact ⟨r', (hother _ _ hne).trans hr', hrest⟩
  · intro x a bit hbit
    by_cases hx : x = server ∧ a = .recorded client
    · obtain ⟨rfl, rfl⟩ := hx
      rw [hnew] at hbit
      cases hbit
      exact htaken
    · exact h.taken x a bit (hold x a bit hx hbit)
  · intro x
    by_cases hx : x = server
    · subst hx
      refine distinct_of_new (.recorded client) (h.distinct x) ?_ ?_
      · intro a n ha hn
        exact hold x a n (fun hc => ha hc.2) hn
      · intro a n ha hn hrec
        rw [hnew] at hrec
        cases hrec
        exact hfresh a (hold x a _ (fun hc => ha hc.2) hn)
    · intro a b bit ha hb
      exact h.distinct x a b bit (hold x a bit (fun hc => hx hc.1) ha)
        (hold x b bit (fun hc => hx hc.1) hb)

/-- A client's handshake is complete. -/
theorem addChannel (h : Inv ps sys) {ch : NotificationChannel}
    (hpair : ∃ r, sys.recorded server client = some r ∧
      Reaches ps sys.root server r.fromBit ch.toChannel ∧
      Reaches ps sys.root client ch.fromBit r.toChannel)
    (htaken : ∃ srv, ps.serverOf sys.root client = some srv ∧ Taken srv sys.root ch.fromBit)
    (hfresh : ∀ a, sys.bitOf client a ≠ some ch.fromBit) :
    Inv ps (sys.addChannel client server ch) := by
  have hold : ∀ x a bit, (sys.addChannel client server ch).bitOf x a = some bit →
      sys.bitOf x a = some bit ∨
        x = client ∧ a = .channel (sys.channels client).length ∧ bit = ch.fromBit := by
    intro x a bit hbit
    cases a with
    | running => exact .inl hbit
    | recorded c => exact .inl hbit
    | channel i =>
      by_cases hx : x = client
      · subst hx
        simp only [System.bitOf, System.addChannel, Function.update_self] at hbit
        by_cases hi : i < (sys.channels x).length
        · rw [List.getElem?_append_left hi] at hbit
          exact .inl hbit
        · rw [List.getElem?_append_right (Nat.le_of_not_lt hi)] at hbit
          obtain ⟨e, he, rfl⟩ := Option.map_eq_some_iff.mp hbit
          obtain ⟨hlt, he⟩ := List.getElem?_eq_some_iff.mp he
          have hi₀ : i = (sys.channels x).length := by simp at hlt; omega
          subst hi₀
          refine .inr ⟨rfl, rfl, ?_⟩
          simp at he
          rw [← he]
      · simp only [System.bitOf, System.addChannel, Function.update_of_ne hx] at hbit
        exact .inl hbit
  refine { h with running := ?_, channels := ?_, taken := ?_, distinct := ?_ }
  · intro c hs hrun
    have hgood := h.running c hs hrun
    cases hstage : hs.stage <;> rw [hstage] at hgood <;> exact hgood
  · intro c v ch' hch
    by_cases hc : c = client
    · subst hc
      simp only [System.addChannel, Function.update_self, List.mem_append,
        List.mem_singleton] at hch
      obtain hch | hch := hch
      · exact h.channels c v ch' hch
      · cases hch
        exact hpair
    · simp only [System.addChannel, Function.update_of_ne hc] at hch
      exact h.channels c v ch' hch
  · intro x a bit hbit
    obtain hbit | ⟨rfl, -, rfl⟩ := hold x a bit hbit
    · exact h.taken x a bit hbit
    · exact htaken
  · intro x a b bit ha hb
    obtain hold_a | ⟨hx, ha_eq, hbit⟩ := hold x a bit ha
    · obtain hold_b | ⟨hx, -, hbit⟩ := hold x b bit hb
      · exact h.distinct x a b bit hold_a hold_b
      · subst hx hbit
        exact absurd hold_a (hfresh a)
    · obtain hold_b | ⟨-, hb_eq, -⟩ := hold x b bit hb
      · subst hx hbit
        exact absurd hold_b (hfresh b)
      · rw [ha_eq, hb_eq]

/-- The answer of an invocation, or the end of the handshake. -/
theorem invoke (h : Inv ps sys) {m : Handler SMOSReply}
    {after : SMOSReply → System → Option System} {Q : SMOSReply → State → Prop}
    (hm : m.wp Q (fun _ => Refused sys.root) (fun _ => True) sys.root)
    (hok : ∀ reply root, Q reply root → after reply { sys with root := root } = some sys' →
      Inv ps sys')
    (hstep : sys.invoke client m after = some sys') : Inv ps sys' := by
  unfold System.invoke at hstep
  cases hrun : m sys.root with
  | ok reply root =>
    rw [hrun] at hstep
    exact hok reply root (Prog.wp_ok hm hrun) hstep
  | err e root =>
    rw [hrun] at hstep
    cases hstep
    have herr := Prog.wp_err hm hrun
    exact (h.advance herr.advance).stop client
  | panic p =>
    rw [hrun] at hstep
    cases hstep

/-- What a new authority of process `x` gives. -/
theorem made (h : Inv ps sys) {hndlCap : Nat} {root : State}
    (hmade : Made x (ps.publishHndl x) bit hndlCap sys.root root) :
    Grants ps root x bit hndlCap ∧
      (∃ srv, ps.serverOf root x = some srv ∧ Taken srv root bit) ∧
      ∀ a, sys.bitOf x a ≠ some bit := by
  obtain ⟨srv, hsrv, -, -, slot, obj, kind, hsrc, hentry, hcap⟩ := hmade.held
  have hserver : ps.serverOf sys.root x = some srv := by simp [Parties.serverOf, hsrv]
  obtain ⟨given, hd⟩ := h.dispatching x srv hserver
  obtain ⟨hclear, htaken, hlt⟩ := hmade.fresh hsrv hd
  obtain ⟨obj', hntfn, hobj⟩ := h.ntfnOf_of_serverOf hserver
  cases hsrc.symm.trans hobj
  refine ⟨⟨slot, hentry, hlt, obj, ntfnOf_kept hmade.kept hntfn, hcap⟩,
    ⟨srv, (serverOf_eq hmade.kept x).trans hserver, htaken⟩, fun a ha => ?_⟩
  obtain ⟨srv', hsrv', htaken'⟩ := h.taken x a bit ha
  cases hserver.symm.trans hsrv'
  exact hclear htaken'

theorem step_inv (h : Inv ps sys) {op : Op} (hguard : FirstRegistration sys op)
    (hstep : sys.step ps op = some sys') : Inv ps sys' := by
  cases op with
  | fail client =>
    cases hstep
    exact h.stop client
  | create client server virtType =>
    simp only [System.step] at hstep
    cases hrun : sys.running client with
    | some hs => simp [hrun] at hstep
    | none =>
      simp only [hrun] at hstep
      refine h.invoke (handleServerCreateChannel_spec _ _ _) ?_ hstep
      intro reply root ⟨bit, hndlCap, hreply, hmade⟩ hafter
      subst hreply
      cases hafter
      obtain ⟨hgrants, htaken, hfresh⟩ := h.made hmade
      refine (h.advance hmade.advance).setStage hgrants ⟨htaken, fun a ha => ?_⟩
      exact absurd ha (hfresh a)
  | openClient client =>
    simp only [System.step] at hstep
    split at hstep
    · next server bit hndlCap virtType hrun =>
      split at hstep
      · refine h.invoke (handleChannelOpen_spec hndlCap sys.root) ?_ hstep
        intro reply root ⟨hroot, slot, bit', hreply, hentry⟩ hafter
        subst hroot hreply
        cases hafter
        obtain ⟨slot', hentry', hreaches⟩ := h.running client _ hrun
        cases hentry.symm.trans hentry'
        exact h.setStage hreaches (h.own_running hrun)
      · cases hstep
        exact h.stop client
    · cases hstep
  | record client =>
    simp only [System.step] at hstep
    split at hstep
    · next server bit hndlCap virtType toChannel hrun =>
      refine h.invoke (handleServerCreateChannel_spec _ _ _) ?_ hstep
      intro reply root ⟨fromBit, fromHndlCap, hreply, hmade⟩ hafter
      subst hreply
      cases hafter
      obtain ⟨hgrants, htaken, hfresh⟩ := h.made hmade
      have hadv := h.advance hmade.advance
      have hrec := hadv.setRecorded (r := ⟨fromBit, fromHndlCap, toChannel⟩) virtType hrun
        (by simp) (hguard _ hrun) htaken hfresh
      refine hrec.setStage ⟨⟨fromBit, fromHndlCap, toChannel⟩, ?_, hgrants, ?_⟩
        (hrec.own_running hrun)
      · simp [System.setRecorded]
      · exact hadv.running client _ hrun
    · cases hstep
  | complete client =>
    simp only [System.step] at hstep
    split at hstep
    · next server bit hndlCap toHndlCap hrun =>
      refine h.invoke (handleChannelOpen_spec toHndlCap sys.root) ?_ hstep
      intro reply root ⟨hroot, slot, bit', hreply, hentry⟩ hafter
      subst hroot hreply
      cases hafter
      obtain ⟨r, hr, ⟨slot', hentry', hto⟩, hfrom⟩ := h.running client _ hrun
      cases hentry.symm.trans hentry'
      obtain ⟨htaken, hown⟩ := h.own_running hrun
      refine (h.stop client).addChannel ⟨r, hr, hto, hfrom⟩ htaken fun a ha => ?_
      cases a with
      | running => simp [System.bitOf] at ha
      | channel i => cases hown (.channel i) ha
      | recorded c => cases hown (.recorded c) ha
    · cases hstep

theorem toPaired (h : Inv ps sys) : Paired ps sys where
  paired client server ch hch := by
    obtain ⟨r, hr, hto, hfrom⟩ := h.channels client server ch hch
    exact ⟨r, hr, hto.delivers h.apart, hfrom.delivers h.apart⟩
  distinct := h.distinct

end Inv

/-- **Channel pairing.** However the handshakes of any clients with any servers interleave, and
whichever of their steps fail: as long as no server records a channel for a client that has a
channel to it already, every completed channel is paired, and no two channels of a process have
the same bit. -/
theorem handshakes_paired {ops : List Op}
    (run : Run (Start ps) (System.step ps) FirstRegistration ops sys) : Paired ps sys := by
  have hinv : Inv ps sys := by
    refine run.invariant (I := Inv ps) (fun sys h => .start h) ?_
    intro sys op sys' h hguard hstep
    exact h.step_inv hguard hstep
  exact hinv.toPaired

/-! ## Two processes -/

/-- Each process has published its server with its first handle. -/
def demoParties : Parties := ⟨fun _ => 0, fun _ => .client⟩

def demoHandles (srv : ServerRef) : HandleTable :=
  fun i => if i = 0 then some (.server srv) else none

/-- Two published servers, with their notifications in the slots 58 and 59. -/
def demoRoot : State :=
  { demo with
    res := { demo.res with
      kernel := (demo.res.kernel.setCap 58 (some (.object 300 .notification))).setCap 59
        (some (.object 301 .notification)) }
    servers := ⟨2, fun srv =>
      ⟨srv, (0, ⟨0, 0, 0⟩), (58 + srv, ⟨0, 0, 0⟩), 0, 0, 0, [], .published 0, []⟩⟩
    procCells := ⟨2, fun p =>
      if p = 0 then .activeProcess { demoProcess 0 4 2 with handleTable := demoHandles 0 } else
      if p = 1 then .activeProcess { demoProcess 1 12 4 with handleTable := demoHandles 1 } else
      .zombieProcess p⟩ }

def demoSystem : System where
  root := demoRoot
  running := fun _ => none
  channels := fun _ => []
  recorded := fun _ _ => none
  status := fun _ => []

theorem demo_serverOf {x : Nat} {srv : ServerRef}
    (h : demoParties.serverOf demoRoot x = some srv) : (x = 0 ∨ x = 1) ∧ srv = x := by
  by_cases h₀ : x = 0
  · subst h₀
    exact ⟨by simp, (Option.some.inj h).symm⟩
  · by_cases h₁ : x = 1
    · subst h₁
      exact ⟨by simp, (Option.some.inj h).symm⟩
    · simp [Parties.serverOf, State.handleAt, demoRoot, h₀, h₁] at h

theorem demo_ntfnOf {x obj : Nat} (h : demoParties.ntfnOf demoRoot x = some obj) :
    obj = 300 + x := by
  have hx : ∃ srv, demoParties.serverOf demoRoot x = some srv := by
    cases hsrv : demoParties.serverOf demoRoot x with
    | none => simp [Parties.ntfnOf, hsrv] at h
    | some srv => exact ⟨srv, rfl⟩
  obtain ⟨srv, hsrv⟩ := hx
  obtain ⟨rfl | rfl, -⟩ := demo_serverOf hsrv <;> exact (Option.some.inj h).symm

theorem demoSystem_start : Start demoParties demoSystem where
  registering x srv _ := ⟨[], .published rfl⟩
  ntfn x srv hx := by
    obtain ⟨rfl | rfl, rfl⟩ := demo_serverOf hx
    · exact ⟨300, rfl⟩
    · exact ⟨301, rfl⟩
  apart x y obj hx hy := by
    have hx' := demo_ntfnOf hx
    have hy' := demo_ntfnOf hy
    omega
  running _ := rfl
  channels _ := rfl
  recorded _ _ := rfl

/-- The first process opens a channel to the second. -/
def demoHandshake : List Op := [.create 0 1 none, .openClient 0, .record 0, .complete 0]

/-- The channel that this gives it. -/
def demoChannel : NotificationChannel :=
  ⟨1, 0, some (.badged 301 .notification (ntfnBadge 1) .writeOnly)⟩

theorem handshakes_paired_demo : ∃ sys,
    Run (Start demoParties) (System.step demoParties) FirstRegistration demoHandshake sys ∧
      sys.channels 0 = [(1, demoChannel)] ∧ Paired demoParties sys := by
  have hreach : ∃ sys,
      Run (Start demoParties) (System.step demoParties) FirstRegistration demoHandshake sys ∧
        sys.channels 0 = [(1, demoChannel)] := by
    refine Run.exists_of_steps demoSystem_start ?_ ?_
    · decide +kernel
    · decide +kernel
  obtain ⟨sys, run, hch⟩ := hreach
  exact ⟨sys, run, hch, handshakes_paired run⟩

/-- A second handshake that fails at its last step leaves the client with its first channel, but
the server has recorded the bit of the second. -/
theorem reregistered_unpaired : ¬ ∀ (ps : Parties) (ops : List Op) (sys : System),
    Run (Start ps) (System.step ps) (fun _ _ => True) ops sys → Paired ps sys := by
  intro hall
  have hreach : ∃ sys, Run (Start demoParties) (System.step demoParties) (fun _ _ => True)
      (demoHandshake ++ [.create 0 1 none, .openClient 0, .record 0, .fail 0]) sys ∧
        sys.channels 0 = [(1, demoChannel)] ∧
        (sys.recorded 1 0).map NotificationChannel.fromBit = some 2 ∧
        demoParties.ntfnOf sys.root 1 = some 301 := by
    refine Run.exists_of_steps demoSystem_start (Run.guarded_true _ _) ?_
    decide +kernel
  obtain ⟨sys, run, hch, hrec, hntfn⟩ := hreach
  obtain ⟨r, hr, hto, -⟩ := (hall _ _ _ run).paired 0 1 demoChannel (by rw [hch]; simp)
  rw [hr] at hrec
  obtain ⟨word, hdecode, hbits⟩ := ntfnWordBits_badge (show 1 < 63 by decide)
  have hgot := hto.1
  simp only [demoChannel, Parties.received, CapRights.writeOnly, hntfn, and_self, if_true, hdecode,
    hbits] at hgot
  have hfirst : r.fromBit = 1 := (List.singleton_inj.mp hgot).symm
  have hsecond : r.fromBit = 2 := Option.some.inj hrec
  omega

end Smos.Sddf
