/-
Smos.RootServer.FrameOwnerMoves — turns that take frames from the table.

Faults and `PageMap` fill an object that is there already; `ObjCreate` and
`ConnPublish` make one, which has its frames before it has a place
(`Owned.add`).
-/
import Smos.RootServer.FrameOwnerTurns

namespace Smos.RootServer

open Smos.Base

variable {s s' s₁ s₂ : State} {p : Nat}

/-! ## Faults and `PageMap` -/

/-- A mapping takes page tables, no frames. -/
theorem MapsFrom.frameTable {r r' : Res} {c vspace : Slot} {vaddr : Nat} {rights : CapRights}
    (h : MapsFrom r c vspace vaddr rights r') : r'.frameTable = r.frameTable := by
  obtain ⟨r₁, k, hq, -, rfl⟩ := h
  exact hq.frameTable

namespace Owning

variable {live : FrameOwner → Prop}

/-- A view gets a copy of a capability, and no frame. -/
theorem copied (h : Owning live s) {v : ViewRef} {offset : Nat} {src slot : Slot} {cs : CSpace}
    {k : Kernel} {view : View} (hc : Copied v offset src s s' slot cs k view) : Owning live s' := by
  rw [hc.eq]
  exact h.still (.of_eq rfl) (fun _ hi => hi) fun _ _ => rfl

/-- The object of the view may take a frame for the page. -/
theorem sourcePage (h : Owning live s) {v : ViewRef} {offset : Nat}
    (hp : SourcePage v offset s s') : Owning live s' := by
  cases hp with
  | there => exact h
  | filled o s' _ _ populated =>
    obtain ⟨-, cap, s₁, slot, cs, k, view, hgot, hcopied⟩ := populated
    exact (h.gotFrame hgot).copied hcopied

theorem mapped (h : Owning live s) {v : ViewRef} {offset : Nat} {vspace : Slot} {addr : Nat}
    (hm : Mapped v offset vspace addr s s') : Owning live s' := by
  obtain ⟨cap, r, -, hmaps, rfl⟩ := hm
  exact h.still (.of_eq hmaps.frameTable) (fun _ hi => hi) fun _ _ => rfl

/-- Only the reply object of the fault is given back. -/
theorem answered (h : Owning live s) {v : ViewRef} {offset : Nat} (ha : Answered v offset s s') :
    Owning live s' := by
  cases ha with
  | idle => exact h
  | answered pending s₁ r' _ hm dealloc =>
    exact (h.mapped hm).still (.of_eq dealloc.frameTable) (fun _ hi => hi) fun _ _ => rfl

theorem pageMapped (h : Owning live s) {args : PageMapArgs} {dst src : ViewRef} {w : WindowRef}
    {cap slot : Slot} {cs : CSpace} {k : Kernel} {view : View}
    (hm : PageMapped p args dst src w cap slot cs k view s₁ s₂ s s') : Owning live s' :=
  ((h.sourcePage hm.source).copied hm.copied).answered hm.answered

/-- At most one object, that of the faulting view, takes a frame. -/
theorem faulted (h : Owning live s) {reply : Alloc} {addr : Nat} {x : Option FaultReply}
    (hf : Faulted p reply addr s x s') : Owning live s' := by
  cases hf with
  | nowhere => exact h
  | unbound => exact h
  | forwarded => exact h.still (.of_eq rfl) (fun _ hi => hi) fun _ _ => rfl
  | served w v u s₁ s' _ _ source _ hm => exact (h.sourcePage source).mapped hm

end Owning

/-- The rings are where they were. -/
structure SameRings (s s' : State) : Prop where
  next : s'.servers.next = s.servers.next
  view : ∀ srv, (s'.servers srv).ntfnBufferView = (s.servers srv).ntfnBufferView

namespace SameRings

theorem of_eq (h : s'.servers = s.servers) : SameRings s s' := by
  constructor
  · rw [h]
  · intro srv
    rw [h]

theorem sourcePage {v : ViewRef} {offset : Nat} (h : SourcePage v offset s s') :
    s'.servers = s.servers := by
  cases h with
  | there => rfl
  | filled o s' _ _ populated =>
    obtain ⟨-, cap, s₁, slot, cs, k, view, hgot, hcopied⟩ := populated
    rw [hcopied.eq]
    cases hgot <;> rfl

theorem mapped {v : ViewRef} {offset : Nat} {vspace : Slot} {addr : Nat}
    (h : Mapped v offset vspace addr s s') : s'.servers = s.servers := by
  obtain ⟨cap, r, -, -, rfl⟩ := h
  rfl

theorem pageMapped {args : PageMapArgs} {dst src : ViewRef} {w : WindowRef} {cap slot : Slot}
    {cs : CSpace} {k : Kernel} {view : View}
    (h : PageMapped p args dst src w cap slot cs k view s₁ s₂ s s') : SameRings s s' := by
  have h₁ := sourcePage h.source
  have h₂ : s₂.servers = s₁.servers := by rw [h.copied.eq]
  refine of_eq ?_
  cases h.answered with
  | idle => exact h₂.trans h₁
  | answered pending s₃ r' _ hm _ => exact (mapped hm).trans (h₂.trans h₁)

theorem faulted {reply : Alloc} {addr : Nat} {x : Option FaultReply}
    (h : Faulted p reply addr s x s') : SameRings s s' := by
  cases h with
  | nowhere => exact of_eq rfl
  | unbound => exact of_eq rfl
  | forwarded w v srv clientId reference u =>
    exact ⟨rfl, s.servers.update_preserves Server.ntfnBufferView (r := srv)
      (f := fun server => { server with ntfnBuffer := server.ntfnBuffer ++
        [.vmFault clientId reference (roundDown (addr - (s.windows w).start))] }) rfl⟩
  | served w v u s₁ s' _ _ source _ hm => exact of_eq ((mapped hm).trans (sourcePage source))

end SameRings

theorem Renewed.frameTable {r' : Res} {reply : Alloc} (h : Renewed r' reply s s') :
    s'.res.frameTable = s.res.frameTable := by
  rw [h.eq]
  exact h.quiet.frameTable

theorem Fewer.renewed {r' : Res} {reply : Alloc} (h : Renewed r' reply s s') : Fewer s s' := by
  refine .sameLinks (.renewed h) ?_ ?_
  · rw [h.eq]
  · rw [h.eq]
    exact fun _ => rfl

/-- An entry is of no object and of no window. -/
theorem Fewer.entered (h : Entered s s') : Fewer s s' := by
  induction h with
  | refl => exact .refl s
  | lists _ servers connections irqs next rings ih =>
    exact ih.trans (.sameLinks (.withLists _ servers connections irqs) next fun srv =>
      (rings srv).1)
  | handle _ loc x valid new ih =>
    refine ih.trans (.setHandleAt valid (fun o hx => ?_) fun w hx => ?_)
    · exact (new _ hx).elim
    · exact (new _ hx).elim
  | created _ p idx ih =>
    exact ih.trans (.updProc _ p (fun _ => ⟨rfl, rfl, rfl⟩) (fun _ _ _ hx => hx) fun _ => .refl _)

namespace Owned

/-- What is entered in the registry is no place for a frame. -/
theorem entered (h : Owned s) (hs : Sane s) (he : Entered s { s' with res := s.res })
    (ht : s'.res.frameTable = s.res.frameTable) : Owned s' := by
  have hobjects : s'.objects = s.objects := he.objects
  refine h.rests hs ((Fewer.entered he).trans (.withRes _ s'.res)) (.of_eq ht) fun o _ => ?_
  rw [hobjects]

/-- Nor is the reply object of a process that waits. -/
theorem awaited (h : Owned s) (hs : Sane s) {proc : Nat} {pid : Pid} {r' : Res} {reply : Alloc}
    (hr : Renewed r' reply (s.awaits proc pid) s') : Owned s' := by
  have hawaits : Fewer s (s.awaits proc pid) :=
    (Fewer.updProc s proc (f := fun u => { u with waiter := some s.reply })
      (fun _ => ⟨rfl, rfl, rfl⟩) (fun _ _ _ hx => hx) fun _ => .refl _).trans
      (.sameLinks (.blockOn _ pid) rfl fun _ => rfl)
  refine h.rests hs (hawaits.trans (.renewed hr)) (.of_eq hr.frameTable) fun o _ => ?_
  rw [hr.eq]
  rfl

theorem faultServed (h : Owned s) (hs : Sane s) (pid : Pid) {reply : Alloc} {addr : Nat}
    (hf : Faulted p reply addr (s.blockOn pid) (some ⟨true⟩) s₁) : Owned (s₁.resume reply) := by
  have h₀ : Owning s.Kept (s.blockOn pid) :=
    h.owning.still (.of_eq rfl) (fun _ hi => hi) fun _ _ => rfl
  have h₁ : Owning s.Kept (s₁.resume reply) :=
    (h₀.faulted hf).still (.of_eq rfl) (fun _ hi => hi) fun _ _ => rfl
  have hrings := SameRings.faulted hf
  have hlinks := ((SameLinks.blockOn s pid).trans (.faulted hf)).trans (.resume s₁ reply)
  exact h.fewer hs (.sameLinks hlinks hrings.next hrings.view) h₁

theorem faultLeft (h : Owned s) (hs : Sane s) (pid : Pid) {addr : Nat} {x : Option FaultReply}
    {r' : Res} {reply : Alloc} (hf : Faulted p s.reply addr (s.blockOn pid) x s₁)
    (hr : Renewed r' reply s₁ s') : Owned s' := by
  have h₀ : Owning s.Kept (s.blockOn pid) :=
    h.owning.still (.of_eq rfl) (fun _ hi => hi) fun _ _ => rfl
  have hrings := SameRings.faulted hf
  have h₁ := (Fewer.sameLinks ((SameLinks.blockOn s pid).trans (.faulted hf)) hrings.next
    hrings.view).trans (.renewed hr)
  refine h.fewer hs h₁ ((h₀.faulted hf).still (.of_eq hr.frameTable) (fun _ hi => hi) ?_)
  intro i _
  rw [hr.eq]
  cases i <;> rfl

theorem pageMapped (h : Owned s) (hs : Sane s) {args : PageMapArgs} {dst src : ViewRef}
    {w : WindowRef} {cap slot : Slot} {cs : CSpace} {k : Kernel} {view : View}
    (hm : PageMapped p args dst src w cap slot cs k view s₁ s₂ s s') : Owned s' := by
  have hrings := SameRings.pageMapped hm
  exact h.fewer hs (.sameLinks (.pageMapped hm) hrings.next hrings.view) (h.owning.pageMapped hm)

end Owned

/-! ## New objects -/

/-- Frames of a device are not the table's. -/
theorem DeviceMemory.frameTable {paddr size : Nat} {fs : List (Slot × Nat)} {r r' : Res}
    (h : DeviceMemory paddr size fs r r') : r'.frameTable = r.frameTable := by
  cases h with
  | cached => rfl
  | made r₁ frames => exact frames.quiet.frameTable

/-- Filling an object makes no server. -/
theorem EagerFilled.servers {o : ObjectRef} {is : List Nat} (h : EagerFilled o is s s') :
    s'.servers = s.servers := by
  induction h with
  | nil s => rfl
  | cons _ _ _ _ _ _ ih => exact ih

theorem Fewer.objFilled {args : ObjCreateArgs} {o : ObjectRef} (h : ObjFilled args o s s') :
    Fewer s s' := by
  cases h with
  | device paddr fs r object _ _ inserted =>
    refine (Fewer.withRes s r).trans (.updObject _ o ?_)
    rw [inserted.eq]
  | contiguous allocation object _ _ _ inserted =>
    have h₁ : Fewer s { s with
        dma := { s.dma with allocations := allocation :: s.dma.allocations } } :=
      .grown rfl rfl rfl rfl (fun _ _ _ _ h => h) (fun _ _ => rfl) (fun _ _ => rfl) (Nat.le_refl _)
        (Nat.le_refl _)
    refine h₁.trans (.updObject _ o ?_)
    rw [inserted.eq]
  | eager _ _ _ _ filled =>
    refine .sameLinks (.eagerFilled filled) ?_ ?_
    · rw [filled.servers]
    · rw [filled.servers]
      exact fun _ => rfl
  | empty => exact .refl s

theorem EagerFilled.attributes {o : ObjectRef} {is : List Nat} (h : EagerFilled o is s s')
    (o' : ObjectRef) : (s'.objects o').attributes = (s.objects o').attributes :=
  (SameLinks.eagerFilled h).object_field AnonymousMemoryObject.attributes (fun _ => rfl) o'

/-- The frames of a process are those of its two buffers. -/
theorem frameRefs_updProc (s : State) (p : Nat) {f : UserProcess → UserProcess}
    (hf : ∀ u, (f u).ipcBuffer = u.ipcBuffer ∧ (f u).sharedBuffer = u.sharedBuffer)
    (i : FrameOwner) : (s.updProc p f).frameRefs i = s.frameRefs i := by
  cases i with
  | object o => rfl
  | process c =>
    simp only [State.frameRefs, State.procCells_updProc]
    by_cases hc : c = p
    · subst hc
      simp only [if_true]
      cases s.procCells c with
      | activeProcess u => simp only [ProcessType.map, ProcessType.refs, (hf u).1, (hf u).2]
      | zombieProcess pid => rfl
    · simp only [hc, if_false]

theorem Owning.updProc {live : FrameOwner → Prop} (h : Owning live s) (p : Nat)
    {f : UserProcess → UserProcess}
    (hf : ∀ u, (f u).ipcBuffer = u.ipcBuffer ∧ (f u).sharedBuffer = u.sharedBuffer) :
    Owning live (s.updProc p f) :=
  h.still (.of_eq rfl) (fun _ hi => hi) fun i _ => frameRefs_updProc s p hf i

theorem frameRefs_setHandleAt (loc : HandleLoc) (x : Option RootServerResource)
    (i : FrameOwner) : (s.setHandleAt loc x).frameRefs i = s.frameRefs i := by
  cases loc with
  | cap idx => cases i <;> rfl
  | table p idx =>
    exact frameRefs_updProc s p
      (f := fun u => { u with handleTable := Function.update u.handleTable idx x })
      (fun _ => ⟨rfl, rfl⟩) i

namespace Owned

/-- A new object that takes its frames from the table has them, before it has a handle. -/
theorem objMade (h : Owned s) (hs : Sane s) {args : ObjCreateArgs} (hm : ObjMade args s s₁) :
    Fewer s s₁ ∧ Owning (fun i => s.Kept i ∨ i = .object s.objects.next ∧
      (s₁.objects s.objects.next).Ordinary) s₁ := by
  have hfewer : Fewer s (s.allocObject args) := Fewer.allocObject s _
  have hself : (s.allocObject args).objects s.objects.next =
      .new args.size args.rights args.attributes := Heap.alloc_self _ _
  have h₀ : Owning s.Kept (s.allocObject args) := by
    refine h.owning.still (.of_eq rfl) (fun _ hi => hi) ?_
    intro i hi
    obtain ⟨⟨x, hx⟩, -⟩ := hi
    cases i with
    | process p => rfl
    | object o =>
      exact congrArg AnonymousMemoryObject.refs
        (s.objects.alloc_of_lt (hs.keeps_lt hx) (.new args.size args.rights args.attributes))
  have h₁ : Owning (fun i => s.Kept i ∨ i = .object s.objects.next) (s.allocObject args) := by
    refine h₀.enter ?_
    simp only [State.frameRefs, hself, AnonymousMemoryObject.refs, AnonymousMemoryObject.new,
      Table.values_new, List.map_nil]
  -- an object that is not ordinary is no owner, whatever is entered in it
  have hforeign : ∀ {r : Res} {dma : DmaPool} {object : AnonymousMemoryObject},
      r.frameTable = s.res.frameTable → ¬ object.Ordinary →
      Owning (fun i => s.Kept i ∨ i = .object s.objects.next ∧
        (((s.allocObject args).objects.update s.objects.next fun _ => object)
          s.objects.next).Ordinary)
        { s.allocObject args with
          res := r
          dma := dma
          objects := (s.allocObject args).objects.update s.objects.next fun _ => object } := by
    intro r dma object hr hno
    refine h₀.still (.of_eq hr) ?_ ?_
    · intro i hi
      rcases hi with hi | ⟨-, hord⟩
      · exact hi
      · rw [Heap.update_self] at hord
        exact absurd hord hno
    · intro i hi
      rcases hi with hi | ⟨-, hord⟩
      · obtain ⟨⟨x, hx⟩, -⟩ := hi
        cases i with
        | process p => rfl
        | object o =>
          have hne : o ≠ s.objects.next := Nat.ne_of_lt (hs.keeps_lt hx)
          simp only [State.frameRefs, Heap.update_of_ne _ hne]
      · rw [Heap.update_self] at hord
        exact absurd hord hno
  refine ⟨hfewer.trans (.objFilled hm.filled), ?_⟩
  cases hm.filled with
  | device paddr fs r object attr memory inserted =>
    refine hforeign memory.frameTable fun hord => ?_
    rw [inserted.eq, hself] at hord
    have hdev : args.attributes.device = false := hord.1
    rw [attr] at hdev
    cases hdev
  | contiguous allocation object _ attr _ inserted =>
    refine hforeign rfl fun hord => ?_
    rw [inserted.eq, hself] at hord
    have hcont : args.attributes.contiguous = false := hord.2
    rw [attr] at hcont
    cases hcont
  | eager s₁ _ _ _ filled =>
    exact (h₁.eagerFilled filled).less fun i hi => hi.imp_right And.left
  | empty => exact h₁.less fun i hi => hi.imp_right And.left

/-- An object without a handle is kept in no place, and the frames it took have no owner. -/
theorem objLeft (h : Owned s) (hs : Sane s) {args : ObjCreateArgs} (hm : ObjMade args s s₁) :
    Owned s₁ := by
  obtain ⟨hfewer, howning⟩ := h.objMade hs hm
  exact h.fewer hs hfewer (howning.less fun _ => .inl)

/-- A new place keeps an object that no other place keeps. -/
theorem add (h : Owned s) {z : Place} {o : ObjectRef} (hnew : ∀ x, s.keeps x ≠ some (.object o))
    (hadd : ∀ x i, s'.keeps x = some i → s.keeps x = some i ∨ x = z ∧ i = .object o)
    (hfree : ∀ c w, z ≠ .initial c w) (hord : ∀ i, s'.Ordinary i ↔ s.Ordinary i)
    (hapart : ∀ loc w, s'.handleAt loc = some (.window w) → ∀ c, w ∉ s'.initialOf c)
    (hinitial : ∀ c, s'.initialOf c = s.initialOf c)
    (hrings : ∀ srv < s'.servers.next, (s'.servers srv).ntfnBufferView < s'.views.next)
    (hpids : ∀ pid c u, s'.procs pid = some c → s'.procCells c = .activeProcess u → u.pid = pid)
    (howning : Owning (fun i => s.Kept i ∨ i = .object o ∧ s.Ordinary i) s') : Owned s' := by
  refine ⟨⟨?_, hapart, fun c => hinitial c ▸ h.places.initialNodup c, ?_, hrings, hpids⟩, ?_⟩
  · intro x y i hx hy
    rcases hadd x i hx with hx | ⟨hx, hi⟩
    · rcases hadd y i hy with hy | ⟨-, rfl⟩
      · exact h.places.one x y i hx hy
      · exact absurd hx (hnew x)
    · rcases hadd y i hy with hy | ⟨hy, -⟩
      · exact absurd (hi ▸ hy) (hnew y)
      · exact hx.trans hy.symm
  · intro c w o' hx
    rcases hadd _ _ hx with hx | ⟨heq, -⟩
    · exact (hord (.object o')).mpr (h.places.initialOrdinary c w o' hx)
    · exact absurd heq.symm (hfree c w)
  · refine howning.less fun i hi => ?_
    obtain ⟨⟨x, hx⟩, hi⟩ := hi
    rcases hadd x i hx with hx | ⟨-, heq⟩
    · exact .inl ⟨⟨x, hx⟩, (hord i).mp hi⟩
    · exact .inr ⟨heq, (hord i).mp hi⟩

/-- A new handle adds one place, if it is of an object. -/
theorem keeps_setHandleAt {loc : HandleLoc} (hloc : s.ValidLoc loc) (y : RootServerResource)
    {x : Place} {i : FrameOwner} (hx : (s.setHandleAt loc (some y)).keeps x = some i) :
    s.keeps x = some i ∨ x = .handle loc ∧ ∃ o, y = .object o ∧ i = .object o := by
  cases x with
  | handle loc' =>
    obtain ⟨o, hl, rfl⟩ := State.keeps_handle.mp hx
    rw [State.handleAt_setHandleAt hloc] at hl
    split at hl
    · rename_i heq
      subst heq
      cases hl
      exact .inr ⟨rfl, o, rfl, rfl⟩
    · exact .inl (State.keeps_handle.mpr ⟨o, hl, rfl⟩)
  | initial c w =>
    obtain ⟨hw, v, o, hv, ho, hi⟩ := State.keeps_initial.mp hx
    rw [State.initialOf_setHandleAt] at hw
    rw [State.setHandleAt_windows] at hv
    rw [State.setHandleAt_views] at ho
    exact .inl (State.keeps_initial.mpr ⟨hw, v, o, hv, ho, hi⟩)
  | ring srv =>
    obtain ⟨hsrv, o, ho, hi⟩ := State.keeps_ring.mp hx
    rw [State.setHandleAt_servers] at hsrv ho
    rw [State.setHandleAt_views] at ho
    exact .inl (State.keeps_ring.mpr ⟨hsrv, o, ho, hi⟩)
  | cell pid =>
    obtain ⟨c, u, hc, hu, hi⟩ := State.keeps_cell.mp hx
    rw [State.setHandleAt_procs] at hc
    obtain ⟨u₀, hu₀, -⟩ := Fewer.cells_setHandleAt hu
    exact .inl (State.keeps_cell.mpr ⟨c, u₀, hc, hu₀, hi⟩)

/-- The object's handle is the place that keeps its frames. -/
theorem objCreated (h : Owned s) (hs : Sane s) {args : ObjCreateArgs} {idx : Nat}
    (hm : ObjMade args s s₁) (hv : s₁.ValidLoc (allocatedLoc p args.returnCap idx)) :
    Owned (s₁.giveHandle p args.returnCap idx (.object s.objects.next)) := by
  obtain ⟨hfewer, howning⟩ := h.objMade hs hm
  have h₁ := h.objLeft hs hm
  have hnew : ∀ x, s₁.keeps x ≠ some (.object s.objects.next) := fun x hx =>
    Nat.lt_irrefl _ (hs.keeps_lt (hfewer.keeps hs h.places hx))
  have hcap := Fewer.recordCap
    (s₁.setHandleAt (allocatedLoc p args.returnCap idx) (some (.object s.objects.next))) p
    args.returnCap idx
  have h₂ : Owned (s₁.setHandleAt (allocatedLoc p args.returnCap idx)
      (some (.object s.objects.next))) := by
    refine h₁.add (z := .handle (allocatedLoc p args.returnCap idx)) hnew ?_ (by simp) ?_ ?_ ?_ ?_
      ?_ ?_
    · intro x i hx
      rcases keeps_setHandleAt hv _ hx with hx | ⟨heq, o, ho, hi⟩
      · exact .inl hx
      · cases ho
        exact .inr ⟨heq, hi⟩
    · intro i
      cases i with
      | object o => simp only [State.Ordinary, State.setHandleAt_objects]
      | process c => exact Iff.rfl
    · intro loc w hl c
      rw [State.initialOf_setHandleAt]
      rw [State.handleAt_setHandleAt hv] at hl
      split at hl
      · cases hl
      · exact h₁.places.apart loc w hl c
    · exact fun c => State.initialOf_setHandleAt _ _ c
    · simpa only [State.setHandleAt_servers, State.setHandleAt_views] using h₁.places.ringViews
    · intro pid c u hc hu
      rw [State.setHandleAt_procs] at hc
      obtain ⟨u₀, hu₀, hpid, -⟩ := Fewer.cells_setHandleAt hu
      exact hpid ▸ h₁.places.pids pid c u₀ hc hu₀
    · refine howning.still (.of_eq ?_) ?_ fun i _ => frameRefs_setHandleAt _ _ i
      · rw [State.setHandleAt_res]
      · intro i hi
        rcases hi with hi | ⟨rfl, hord⟩
        · exact .inl (hfewer.kept hs h.places hi)
        · exact .inr ⟨rfl, hord⟩
  have hs₁ := hs.objMade hm
  have hlt : s.objects.next < s₁.objects.next := by
    have hnext : (s.allocObject args).objects.next = s₁.objects.next := hm.filled.objectsNext
    rw [← hnext]
    exact Nat.lt_succ_self _
  have hs₂ : Sane (s₁.setHandleAt (allocatedLoc p args.returnCap idx)
      (some (.object s.objects.next))) := by
    refine hs₁.setHandleAt hv ?_ (by simp)
    rintro _ ⟨⟩
    exact hlt
  exact h₂.rests hs₂ hcap (.of_eq rfl) fun _ _ => rfl

/-- The ring's object has its frame before it is a ring. -/
theorem publishing (h : Owned s) (hs : Sane s) {args : ConnPublishArgs} {f : Nat} {r₁ r₂ : Res}
    {object : AnonymousMemoryObject} {page : PageEntry}
    (hp : Publishing p args f r₁ r₂ object page s s₁) :
    Fewer s s₁ ∧ Owning (fun i => s.Kept i ∨ i = .object s.objects.next) s₁ := by
  have hwindow : ∀ c, s.windows.next ∉ s.initialOf c := fun c hw =>
    Nat.lt_irrefl _ (hs.procWindows c _ (List.mem_append_left _ hw))
  let s₀ : State := { s with
    windows := s.windows.alloc ⟨args.ntfnBuffer, pageSize4K, none⟩
    objects := s.objects.alloc (.new pageSize4K .all .default) }
  have hring : Fewer s (s.linkRing args.ntfnBuffer) := by
    have h₁ : Fewer s s₀ := (Fewer.allocWindow hs ⟨args.ntfnBuffer, pageSize4K, none⟩).trans
      (.allocObject _ (.new pageSize4K .all .default))
    exact h₁.trans (Fewer.linkView s₀ hwindow s.objects.next _)
  have hframes : ∀ o, ((s.linkRing args.ntfnBuffer).objects o).frames = (s₀.objects o).frames :=
    linkView_frames s₀ s.windows.next s.objects.next _
  have hself : ((s.linkRing args.ntfnBuffer).objects s.objects.next).frames = Table.new :=
    (hframes _).trans (congrArg AnonymousMemoryObject.frames (s.objects.alloc_self _))
  have hother : ∀ o, o < s.objects.next →
      ((s.linkRing args.ntfnBuffer).objects o).frames = (s.objects o).frames := fun o ho =>
    (hframes o).trans (congrArg AnonymousMemoryObject.frames (s.objects.alloc_of_lt ho _))
  have h₀ : Owning (fun i => s.Kept i ∨ i = .object s.objects.next)
      { s.linkRing args.ntfnBuffer with res := r₁ } := by
    refine (h.owning.still hp.tried.frames (fun _ hi => hi) ?_).enter ?_
    · intro i hi
      obtain ⟨⟨x, hx⟩, -⟩ := hi
      cases i with
      | process c => rfl
      | object o =>
        simp only [State.frameRefs, AnonymousMemoryObject.refs, hother o (hs.keeps_lt hx)]
    · simp only [State.frameRefs, AnonymousMemoryObject.refs, hself, Table.values_new, List.map_nil]
  have h₁ := h₀.insertFrame (o := s.objects.next) hp.frame hp.insert
  obtain ⟨t, -, hobject⟩ := insertFrameAt_ok hp.insert
  have hattributes : object.attributes =
      ((s.linkRing args.ntfnBuffer).objects s.objects.next).attributes := by rw [hobject]
  rw [hp.eq]
  refine ⟨?_, ?_⟩
  · have h₂ := (hring.trans (.withRes _
      { r₂ with kernel := r₂.kernel.writeMem page.obj (s.initRing (r₂.kernel.mem page.obj)) })).trans
      (.updObject _ s.objects.next (f := fun _ => object) hattributes)
    exact (h₂.trans (.pushWindow _ p s.windows.next)).trans (.pushView _ p s.views.next)
  · refine Owning.updProc (f := fun u => { u with views := u.views ++ [s.views.next] })
      (Owning.updProc (f := fun u => { u with windows := u.windows ++ [s.windows.next] }) ?_ p
        fun _ => ⟨rfl, rfl⟩) p fun _ => ⟨rfl, rfl⟩
    refine h₁.still (.of_eq rfl) (fun _ hi => hi) fun i _ => ?_
    cases i <;> rfl

/-- The server that is published keeps the ring. -/
theorem published (h : Owned s) (hs : Sane s) {args : ConnPublishArgs} {f idx : Nat} {r₁ r₂ : Res}
    {object : AnonymousMemoryObject} {page : PageEntry} {srv : Server}
    (hp : Publishing p args f r₁ r₂ object page s s₁) (hp' : Published p args f idx srv s s₁ s') :
    Owned s' := by
  obtain ⟨hfewer, howning⟩ := h.publishing hs hp
  have h₁ : Owned s₁ := h.fewer hs hfewer (howning.less fun _ => .inl)
  have hs₁ := hs.publishing hp
  have hviewsNext : s₁.views.next = s.views.next + 1 := by rw [hp.eq]; rfl
  have hview : (s₁.views s.views.next).boundObject = some s.objects.next := by
    rw [hp.eq]
    exact congrArg View.boundObject (s.views.alloc_self _)
  have hnew : ∀ x, s₁.keeps x ≠ some (.object s.objects.next) := fun x hx =>
    Nat.lt_irrefl _ (hs.keeps_lt (hfewer.keeps hs h.places hx))
  -- the new server, before it has its handle
  let s₂ : State := { s₁ with
    servers := s₁.servers.alloc srv
    published := s₁.published ++ [(args.name, s₁.servers.next)] }
  have h₂ : Owned s₂ := by
    refine h₁.add (z := .ring s₁.servers.next) hnew ?_ (by simp) (fun i => ?_)
      h₁.places.apart (fun _ => rfl) ?_ h₁.places.pids ?_
    · intro x i hx
      cases x with
      | handle loc => exact .inl hx
      | initial c w => exact .inl hx
      | cell pid => exact .inl hx
      | ring srv' =>
        obtain ⟨hlt, o, ho, hi⟩ := State.keeps_ring.mp hx
        by_cases heq : srv' = s₁.servers.next
        · subst heq
          have ho' : (s₁.views srv.ntfnBufferView).boundObject = some o := by
            rw [← s₁.servers.alloc_self srv]
            exact ho
          rw [hp'.view, hview] at ho'
          cases ho'
          exact .inr ⟨rfl, hi.symm⟩
        · have hlt' : srv' < s₁.servers.next + 1 := hlt
          have hold : s₂.servers srv' = s₁.servers srv' := s₁.servers.alloc_of_ne heq srv
          rw [hold] at ho
          exact .inl (State.keeps_ring.mpr
            ⟨Nat.lt_of_le_of_ne (Nat.le_of_lt_succ hlt') heq, o, ho, hi⟩)
    · cases i <;> exact Iff.rfl
    · intro srv' hlt
      show (s₂.servers srv').ntfnBufferView < s₁.views.next
      by_cases heq : srv' = s₁.servers.next
      · subst heq
        have hself : s₂.servers s₁.servers.next = srv := s₁.servers.alloc_self srv
        rw [hself, hp'.view, hviewsNext]
        exact Nat.lt_succ_self _
      · have hlt' : srv' < s₁.servers.next + 1 := hlt
        have hold : s₂.servers srv' = s₁.servers srv' := s₁.servers.alloc_of_ne heq srv
        rw [hold]
        exact h₁.places.ringViews srv' (Nat.lt_of_le_of_ne (Nat.le_of_lt_succ hlt') heq)
    · refine howning.still (.of_eq rfl) ?_ fun i _ => ?_
      · intro i hi
        rcases hi with hi | ⟨hi, -⟩
        · exact .inl (hfewer.kept hs h.places hi)
        · exact .inr hi
      · cases i <;> rfl
  have hs₂ : Sane s₂ := (hs₁.allocServer srv).withPublished _
  have hvalid : s₂.ValidLoc (.table p idx) := (State.validLoc_congr (s := s₁) rfl).mpr hp'.valid
  have hclear : Fewer s₂ (s₂.setHandleAt (.table p idx) (some (.server s₁.servers.next))) :=
    .setHandleAt hvalid (by simp) (by simp)
  rw [hp'.eq]
  refine h₂.rests hs₂ hclear (.of_eq ?_) fun o _ => ?_
  · rw [State.setHandleAt_res]
  · rw [State.setHandleAt_objects]

/-- A ring whose server was not entered keeps its frame, and nothing keeps the ring. -/
theorem connLeft (h : Owned s) (hs : Sane s) {args : ConnPublishArgs} {f : Nat} {r₁ r₂ : Res}
    {object : AnonymousMemoryObject} {page : PageEntry}
    (hp : Publishing p args f r₁ r₂ object page s s₁) : Owned s₁ := by
  obtain ⟨hfewer, howning⟩ := h.publishing hs hp
  exact h.fewer hs hfewer (howning.less fun _ => .inl)

end Owned

end Smos.RootServer
