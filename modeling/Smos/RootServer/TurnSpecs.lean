/-
Smos.RootServer.TurnSpecs — publishing, mapping, exiting, and whole turns.

The specifications of the handlers that run several of the blocks of
`Smos.RootServer.Effects`, in the form of `Smos.RootServer.HandlerSpecs`.
`Turn op s s'` collects them: it is all that one turn of the system can
be, and every invariant is proved by cases on it.
-/
import Smos.RootServer.Registry
import Smos.RootServer.Sane

namespace Smos.RootServer

open Smos.Base

variable {s s' : State} {p : Nat}

/-! ## Objects stay where they are -/

theorem EagerFilled.objectsNext {o : ObjectRef} {is : List Nat} (h : EagerFilled o is s s') :
    s.objects.next = s'.objects.next := by
  induction h with
  | nil => rfl
  | cons _ _ _ _ _ _ ih => exact ih

theorem ObjFilled.objectsNext {args : ObjCreateArgs} {o : ObjectRef} (h : ObjFilled args o s s') :
    s.objects.next = s'.objects.next := by
  cases h with
  | eager _ _ _ _ filled => exact filled.objectsNext
  | _ => rfl

/-! ## Publishing -/

/-- What an attempt that failed may have changed. -/
structure Tried (r r' : Res) : Prop where
  grow : Grow r r'
  frames : SameFrames r.frameTable r'.frameTable
  devices : r'.deviceAllocations = r.deviceAllocations

namespace Tried

variable {r r₁ r₂ : Res}

theorem of_quiet (h : Quiet r r₁) : Tried r r₁ :=
  ⟨h.grow, by rw [h.frameTable]; exact ⟨rfl, rfl, rfl, rfl⟩, h.devices⟩

protected theorem trans (h : Tried r r₁) (h' : Tried r₁ r₂) : Tried r r₂ :=
  ⟨h.grow.trans h'.grow,
    ⟨h'.frames.free.trans h.frames.free, h'.frames.allocated.trans h.frames.allocated,
      h'.frames.used.trans h.frames.used, h'.frames.cap.trans h.frames.cap⟩,
    h'.devices.trans h.devices⟩

end Tried

/-- The slot is empty or holds a capability of something that is not memory. -/
def Plain (k : Kernel) (c : Slot) : Prop :=
  k.caps c = none ∨ (∃ obj kind, k.caps c = some (.object obj kind)) ∨
    ∃ obj kind badge rights, k.caps c = some (.badged obj kind badge rights)

theorem Plain.delete_eq {k : Kernel} {c : Slot} (h : Plain k c) :
    k.delete c = k.setCap c none := by
  rcases h with h | ⟨obj, kind, h⟩ | ⟨obj, kind, badge, rights, h⟩
  · simp only [Kernel.delete, h]
    cases k
    simp only [Kernel.setCap, Kernel.mk.injEq, and_true]
    exact (Function.update_eq_self_iff.mpr h.symm).symm
  · simp [Kernel.delete, h]
  · simp [Kernel.delete, h]

theorem Plain.setCap {k : Kernel} {c : Slot} (h : Plain k c) (c' : Slot) :
    Plain (k.setCap c' none) c := by
  by_cases hc : c = c'
  · subst hc
    exact .inl (by simp [Kernel.setCap])
  · simpa [Plain, Kernel.setCap, Function.update_of_ne hc] using h

section Publish

variable {r r₁ : Res} {ε : Type}

theorem deleteCap_tried (h : Tried r r₁) {c : Slot} (hc : ¬ r.cspace.Allocated c)
    (hp : Plain r₁.kernel c) :
    Tried r { r₁ with kernel := r₁.kernel.delete c } ∧
      ∀ c', Plain r₁.kernel c' → Plain (r₁.kernel.delete c) c' := by
  refine ⟨⟨h.grow.delete hc hp.delete_eq, h.frames, h.devices⟩, fun c' hc' => ?_⟩
  rw [hp.delete_eq]
  exact hc'.setCap c

theorem freeSlot_tried (h : Tried r r₁) {c : Slot} (hc : ¬ r.cspace.Allocated c) :
    (freeSlot c : RProg ε Unit).wp (fun _ r₂ => Tried r r₂ ∧ r₂.kernel = r₁.kernel)
      (fun _ _ => False) Panic.Low r₁ := by
  refine Prog.wp_mono (freeSlot_freed r₁ c) ?_ (fun _ _ => False.elim) fun _ hp => hp
  intro _ r₂ hf
  rw [hf.eq]
  refine ⟨⟨h.grow.cspace fun c' hr hc' => ?_, h.frames, h.devices⟩, rfl⟩
  exact (hf.others c' fun heq => hc (heq ▸ hr)).mpr hc'

/-- Giving back an object that was made since `r`. -/
theorem deallocRetyped_tried (h : Tried r r₁) {x : Alloc} (hc : ¬ r.cspace.Allocated x.1)
    (hp : Plain r₁.kernel x.1) :
    (deallocRetyped x : RProg ε Unit).wp
      (fun _ r₂ => Tried r r₂ ∧ ∀ c, Plain r₁.kernel c → Plain r₂.kernel c)
      (fun _ _ => False) Panic.Low r₁ := by
  simp only [deallocRetyped, Prog.wp_bind, deleteCap, kmodify, Prog.wp_modify, utFree, modifyUt]
  obtain ⟨hd, hplain⟩ := deleteCap_tried h hc hp
  refine Prog.wp_mono (freeSlot_tried hd hc) ?_ (fun _ _ => False.elim) fun _ hp => hp
  rintro _ r₂ ⟨h₂, hk⟩
  refine ⟨⟨h₂.grow.congr rfl rfl, h₂.frames, h₂.devices⟩, fun c hc' => ?_⟩
  rw [hk]
  exact hplain c hc'

theorem Tried.boundTcbs (h : Tried r r₁) (k : Kernel)
    (hk : k = { r₁.kernel with boundTcbs := k.boundTcbs }) :
    Tried r { r₁ with kernel := k } := by
  rw [hk]
  exact ⟨{ h.grow with }, h.frames, h.devices⟩

theorem unbindNotification_eq (k : Kernel) (tcb : Slot) :
    k.unbindNotification tcb =
      { k with boundTcbs := (k.unbindNotification tcb).boundTcbs } := by
  unfold Kernel.unbindNotification
  split <;> rfl

theorem bindNotification_eq {k k' : Kernel} {tcb : Slot} (h : k.bindNotification tcb = .ok k') :
    k' = { k with boundTcbs := k'.boundTcbs } := by
  unfold Kernel.bindNotification at h
  split at h
  · split at h
    · cases h
    · cases h; rfl
  · cases h

theorem plain_of_retype {k k' : Kernel} {kind : ObjectKind} {c : Slot}
    (h : k.untypedRetype (.other kind) c = .ok k') :
    ∃ obj kind', k'.caps c = some (.object obj kind') := by
  obtain ⟨-, rfl⟩ := Kernel.untypedRetype_ok h
  exact ⟨k.nextObj, kind, Function.update_self ..⟩

theorem ntfnRegister_spec (h : Tried r r₁) (ntfn : Slot) :
    (ntfnRegister ntfn).wp
      (fun c r₂ => Tried r r₂ ∧ Tried r₁ r₂ ∧ ¬ r₁.cspace.Allocated c ∧
        r₂.cspace.Allocated c ∧ Plain r₂.kernel c ∧ ∀ c', Plain r₁.kernel c' → Plain r₂.kernel c')
      (fun _ r₂ => Tried r r₂ ∧ r₂.kernel = r₁.kernel) Panic.Low r₁ := by
  simp only [ntfnRegister, Prog.wp_bind, Prog.wp_catchErr, Prog.wp_fail, Prog.wp_expect,
    mintCap, kcall, Prog.wp_zoom, Prog.wp_ofExcept, Prog.wp_pure]
  refine Prog.wp_mono (allocSlot_spec (.refl r₁)) ?_ ?_ fun _ hp => hp
  · rintro c r₂ ⟨h₂, hc, -, hc₂, hk, -⟩
    refine ⟨fun k hmint => ?_, fun _ _ => by decide⟩
    rw [hk] at hmint
    obtain ⟨obj, kind, -, -, hkeq⟩ := Kernel.mint_ok hmint
    have h₃ := (Tried.of_quiet h₂)
    have hg : Grow r₁ { r₂ with kernel := k } := by
      have := h₂.grow.setCap hc (some (.badged obj kind (ntfnBadge 0) .writeOnly)) (by simp)
      rw [hk] at this
      rw [hkeq]
      exact this
    have h₄ : Tried r₁ { r₂ with kernel := k } := ⟨hg, h₃.frames, h₃.devices⟩
    refine ⟨h.trans h₄, h₄, hc, hc₂, ?_, ?_⟩
    · exact .inr (.inr ⟨obj, kind, ntfnBadge 0, .writeOnly, by rw [hkeq]; simp [Kernel.setCap]⟩)
    intro c' hc'
    rw [hkeq]
    by_cases heq : c' = c
    · subst heq
      exact .inr (.inr ⟨obj, kind, ntfnBadge 0, .writeOnly, by simp [Kernel.setCap]⟩)
    · simpa [Plain, Kernel.setCap, Function.update_of_ne heq] using hc'
  · rintro _ r₂ ⟨h₂, hk⟩
    exact ⟨h.trans (.of_quiet h₂), hk⟩

theorem publishResources_spec (hr : Rooted r) (tcb : Slot) :
    (publishResources tcb).wp
      (fun x r₂ => ∃ r₁, Tried r r₁ ∧ SameFrames r.frameTable r₁.frameTable ∧
        FrameAllocated r₁ x.2.2.2 r₂)
      (fun _ r₂ => Tried r r₂) Panic.Low r := by
  simp only [publishResources, Prog.wp_bind, Prog.wp_catchErr, Prog.wp_fail, Prog.wp_pure]
  refine Prog.wp_mono (allocRetype_spec hr _) ?_ (fun _ _ h => .of_quiet h) fun _ hp => hp
  rintro ep r₁ ⟨h₁, hep, hepa, k₁, hk₁, -⟩
  obtain ⟨epObj, epKind, hepCap⟩ := plain_of_retype hk₁
  refine Prog.wp_mono (allocRetype_spec (h₁.grow.rooted hr) _) ?_ ?_ fun _ hp => hp
  swap
  · intro _ r₂ h₂
    have hepCap₂ := (h₂.grow.caps _ hepa).trans hepCap
    exact Prog.wp_mono (deallocRetyped_tried (.of_quiet (h₁.trans h₂)) hep (.inr (.inl ⟨_, _, hepCap₂⟩)))
      (fun _ _ h => h.1) (fun _ _ => False.elim) fun _ hp => hp
  rintro ntfn r₂ ⟨h₂, hnt₁, hnta, k₂, hk₂, -⟩
  obtain ⟨ntObj, ntKind, hntCap⟩ := plain_of_retype hk₂
  have hepCap₂ := (h₂.grow.caps _ hepa).trans hepCap
  have hnt : ¬ r.cspace.Allocated ntfn.1 := fun h => hnt₁ (h₁.grow.allocated _ h)
  -- giving both back, from resources where both are still plain
  have hback : ∀ r₃ : Res, Tried r r₃ → Plain r₃.kernel ntfn.1 → Plain r₃.kernel ep.1 →
      ∀ (x y : Alloc), (x = ntfn ∧ y = ep ∨ x = ep ∧ y = ntfn) →
      (do
        deallocRetyped x
        deallocRetyped y
        Prog.fail .insufficientResources : RProg InvocationError (Alloc × Alloc × Slot × Nat)).wp
        (fun _ _ => False) (fun _ r₂ => Tried r r₂) Panic.Low r₃ := by
    intro r₃ h₃ hpn hpe x y hxy
    have hx : ¬ r.cspace.Allocated x.1 ∧ Plain r₃.kernel x.1 := by
      rcases hxy with ⟨rfl, rfl⟩ | ⟨rfl, rfl⟩
      · exact ⟨hnt, hpn⟩
      · exact ⟨hep, hpe⟩
    have hy : ¬ r.cspace.Allocated y.1 ∧ Plain r₃.kernel y.1 := by
      rcases hxy with ⟨rfl, rfl⟩ | ⟨rfl, rfl⟩
      · exact ⟨hep, hpe⟩
      · exact ⟨hnt, hpn⟩
    simp only [Prog.wp_bind, Prog.wp_fail]
    refine Prog.wp_mono (deallocRetyped_tried h₃ hx.1 hx.2) ?_ (fun _ _ => False.elim)
      fun _ hp => hp
    rintro _ r₄ ⟨h₄, hplain⟩
    exact Prog.wp_mono (deallocRetyped_tried h₄ hy.1 (hplain _ hy.2)) (fun _ _ h => h.1)
      (fun _ _ => False.elim) fun _ hp => hp
  simp only [Prog.wp_bind, Prog.wp_fail] at hback
  have h₂' := Tried.of_quiet (h₁.trans h₂)
  simp only [kcall, Prog.wp_zoom, Prog.wp_ofExcept]
  refine ⟨fun k hk => ?_, fun _ _ => hback r₂ h₂' (.inr (.inl ⟨_, _, hntCap⟩)) (.inr (.inl ⟨_, _, hepCap₂⟩))
    ntfn ep (.inl ⟨rfl, rfl⟩)⟩
  have h₃ := h₂'.boundTcbs k (bindNotification_eq hk)
  have hcaps : k.caps = r₂.kernel.caps := by rw [bindNotification_eq hk]
  have hntCap₃ : k.caps ntfn.1 = some (.object ntObj ntKind) := by rw [hcaps]; exact hntCap
  have hepCap₃ : k.caps ep.1 = some (.object epObj epKind) := by rw [hcaps]; exact hepCap₂
  refine Prog.wp_mono (ntfnRegister_spec h₃ ntfn.1) ?_ ?_ fun _ hp => hp
  swap
  · rintro _ r₄ ⟨h₄, hk₄⟩
    simp only [kmodify, Prog.wp_modify]
    have h₅ := h₄.boundTcbs _ (unbindNotification_eq r₄.kernel tcb)
    refine hback _ h₅ (.inr (.inl ⟨ntObj, ntKind, ?_⟩)) (.inr (.inl ⟨epObj, epKind, ?_⟩)) ntfn ep
      (.inl ⟨rfl, rfl⟩)
    · rw [unbindNotification_eq, hk₄]; exact hntCap₃
    · rw [unbindNotification_eq, hk₄]; exact hepCap₃
  rintro rs r₄ ⟨h₄, h₃₄, hrs, hrsa, hrsp, -⟩
  have hrs' : ¬ r.cspace.Allocated rs := fun h => hrs (h₃.grow.allocated _ h)
  refine Prog.wp_mono (allocFrame_spec (h₄.grow.rooted hr)) ?_ ?_ fun _ hp => hp
  · intro f r₅ hf
    exact ⟨r₄, h₄, h₄.frames, hf⟩
  rintro _ r₅ ⟨hg, hs, hd⟩
  have h₄₅ : Tried r₄ r₅ := ⟨hg, hs, hd⟩
  have hkeep : ∀ c, r₂.cspace.Allocated c → Plain k c → Plain r₅.kernel c := by
    intro c hc hp
    have hc₄ := h₃₄.grow.caps c hc
    have hc₅ := hg.caps c (h₃₄.grow.allocated c hc)
    unfold Plain at hp ⊢
    rw [hc₅, hc₄]
    exact hp
  have hpn := hkeep _ hnta (.inr (.inl ⟨_, _, hntCap₃⟩))
  have hpe := hkeep _ (h₂.grow.allocated _ hepa) (.inr (.inl ⟨_, _, hepCap₃⟩))
  have hprs : Plain r₅.kernel rs := by
    unfold Plain at hrsp ⊢
    rw [hg.caps rs hrsa]
    exact hrsp
  simp only [ntfnDispatchDestroy, deleteCap, kmodify, Prog.wp_bind, Prog.wp_modify]
  obtain ⟨h₆, hplain₆⟩ := deleteCap_tried (h₄.trans h₄₅) hrs' hprs
  refine Prog.wp_mono (freeSlot_tried h₆ hrs') ?_ (fun _ _ => False.elim) fun _ hp => hp
  rintro _ r₇ ⟨h₇, hk₇⟩
  have hpn₇ : Plain r₇.kernel ntfn.1 := hk₇ ▸ hplain₆ _ hpn
  have hpe₇ : Plain r₇.kernel ep.1 := hk₇ ▸ hplain₆ _ hpe
  refine Prog.wp_mono (deallocRetyped_tried h₇ hnt hpn₇) ?_ (fun _ _ => False.elim) fun _ hp => hp
  rintro _ r₈ ⟨h₈, hplain₈⟩
  have h₉ := h₈.boundTcbs _ (unbindNotification_eq r₈.kernel tcb)
  have hunbind : ∀ c, Plain r₈.kernel c → Plain (r₈.kernel.unbindNotification tcb) c := by
    intro c hc
    rw [unbindNotification_eq]
    exact hc
  exact hback _ h₉ (hunbind _ (hplain₈ _ hpn₇)) (hunbind _ (hplain₈ _ hpe₇)) ep ntfn
    (.inr ⟨rfl, rfl⟩)

end Publish

/-- The state with a new window, object and view for a notification ring. -/
def State.linkRing (s : State) (base : Nat) : State :=
  ({ s with
    windows := s.windows.alloc ⟨base, pageSize4K, none⟩
    objects := s.objects.alloc (.new pageSize4K .all .default) } : State).linkView
      s.windows.next s.objects.next (View.new s.windows.next (some s.objects.next) none .all 0 0)

/-- `handle_conn_publish` up to the handle: the ring's page is taken, entered in
a new object, and only its two indices are written. -/
structure Publishing (p : Nat) (args : ConnPublishArgs) (f : Nat) (r₁ r₂ : Res)
    (object : AnonymousMemoryObject) (page : PageEntry) (s s₁ : State) : Prop where
  aligned : args.ntfnBuffer % pageSize4K = 0
  belowTop : args.ntfnBuffer < s.res.kernel.userTop
  clear : ∀ w ∈ s.windowsOf p, ¬ (s.windows w).Overlaps args.ntfnBuffer pageSize4K
  tried : Tried s.res r₁
  frame : FrameAllocated r₁ f r₂
  insert : ((s.linkRing args.ntfnBuffer).objects s.objects.next).insertFrameAt 0
    ⟨r₂.frameTable.cap f, f⟩ = .ok object
  page_eq : r₂.kernel.pages rootVSpace (frameDataAddr f) = some page
  eq : s₁ = ((({ s.linkRing args.ntfnBuffer with
    res := { r₂ with kernel := r₂.kernel.writeMem page.obj (s.initRing (r₂.kernel.mem page.obj)) }
    objects := (s.linkRing args.ntfnBuffer).objects.update s.objects.next fun _ => object } :
      State).updProc p fun u => { u with windows := u.windows ++ [s.windows.next] }).updProc p
        fun u => { u with views := u.views ++ [s.views.next] })

/-- The new server gets its handle. -/
structure Published (p : Nat) (args : ConnPublishArgs) (f idx : Nat) (srv : Server)
    (s s₁ s' : State) : Prop where
  valid : s₁.ValidLoc (.table p idx)
  empty : s₁.handleAt (.table p idx) = none
  view : srv.ntfnBufferView = s.views.next
  frame : srv.ntfnBufferFrame = f
  ring : srv.ntfnBuffer = []
  eq : s' = ({ s₁ with
    servers := s₁.servers.alloc srv
    published := s₁.published ++ [(args.name, s₁.servers.next)] } : State).setHandleAt
      (.table p idx) (some (.server s₁.servers.next))

theorem handleConnPublish_spec (s : State) (hr : Rooted s.res) (p : Nat)
    (args : ConnPublishArgs) :
    (handleConnPublish p args).wp
      (fun _ s' => ∃ f r₁ r₂ object page s₁ idx srv,
        Publishing p args f r₁ r₂ object page s s₁ ∧ Published p args f idx srv s s₁ s')
      (fun _ s' => s' = s ∨ (∃ r', Tried s.res r' ∧ s' = { s with res := r' }) ∨
        ∃ f r₁ r₂ object page, Publishing p args f r₁ r₂ object page s s')
      (fun π => ¬ π.Unlinked) s := by
  simp only [handleConnPublish, Prog.wp_bind, Prog.wp_gets, Prog.wp_ite, Prog.wp_fail, wp_getProc]
  refine ⟨fun _ => .inl trivial, fun _ => ⟨fun _ => .inl trivial, fun hal => ⟨fun _ => .inl trivial,
    fun htop => ⟨fun u hu => ?_, fun _ _ => by decide⟩⟩⟩⟩
  refine Prog.wp_mono (overlappingWindow_spec s args.ntfnBuffer pageSize4K u.windows) ?_
    (fun _ _ => False.elim) fun _ hp => hp.linked
  rintro x s ⟨rfl, hx⟩
  cases x with
  | some w => exact .inl rfl
  | none =>
    have hclear : ∀ w ∈ s.windowsOf p,
        ¬ (s.windows w).Overlaps args.ntfnBuffer pageSize4K := by
      simpa [State.windowsOf, hu] using hx.mp rfl
    simp only [Prog.wp_bind, wp_onRes]
    refine Prog.wp_mono (publishResources_spec hr u.tcb.1) ?_
      (fun _ r' h => .inr (.inl ⟨r', h, rfl⟩)) fun _ hp => hp.linked
    rintro ⟨ep, ntfn, rsBadged, f⟩ r₂ ⟨r₁, ht, -, hf⟩
    dsimp only
    refine Prog.wp_mono (frameCap_spec r₂ f) ?_ (fun _ _ => False.elim) fun _ hp => hp.linked
    rintro cap r₂ ⟨rfl, rfl⟩
    simp only [wp_newWindow, wp_newObject, wp_newView, wp_modifyWindow, wp_modifyObject]
    refine Prog.wp_mono (insertFrame_spec _ _ 0 _) ?_ (fun _ _ => False.elim) fun _ hp => hp
    rintro _ s₁ ⟨object, hins, rfl⟩
    simp only [addWindowUnchecked, wp_modifyProc, Prog.wp_gets]
    refine Prog.wp_mono (writeFrameData_spec _ f s.initRing) ?_ (fun _ _ => False.elim)
      fun _ hp => hp.linked
    rintro _ r₃ ⟨page, hpage, rfl⟩
    have hpub : Publishing p args f r₁ r₂ object page s _ :=
      ⟨by simpa using hal, by simpa using htop, hclear, ht, hf, hins, hpage, rfl⟩
    refine Prog.wp_mono (allocateHandle_spec _ p) ?_ ?_ fun _ hp => hp.linked
    · rintro idx _ ⟨rfl, hv, he⟩
      simp only [wp_newServer, Prog.wp_modify, wp_setHandle, Prog.wp_pure]
      exact ⟨f, r₁, r₂, object, page, _, idx, ⟨u.pid, ep, ntfn, rsBadged, _, f, [],
        .published rsBadged, []⟩, hpub, hv, he,
        rfl, rfl, rfl, rfl⟩
    · rintro _ _ rfl
      exact .inr (.inr ⟨f, r₁, r₂, object, page, hpub⟩)

/-! ## Pages -/

/-- The first window of the process that contains the address. -/
def State.windowAt (s : State) (p : Nat) (vaddr : Nat) : Option WindowRef :=
  (s.initialOf p ++ s.windowsOf p).find? fun w => decide ((s.windows w).Contains vaddr)

/-- A view has a page at the offset, or is given its object's. -/
inductive SourcePage (v : ViewRef) (offset : Nat) (s : State) : State → Prop
  | there (h : (s.views v).lookupCap offset ≠ none) : SourcePage v offset s s
  | filled (o : ObjectRef) (s' : State) (none : (s.views v).lookupCap offset = none)
    (object : (s.views v).boundObject = some o) (populated : Populated v o offset s s') :
    SourcePage v offset s s'

/-- The pending fault of a view is answered with the page at the offset. -/
inductive Answered (v : ViewRef) (offset : Nat) (s : State) : State → Prop
  | idle (h : (s.views v).pendingFault = none) : Answered v offset s s
  | answered (pending : PendingFault) (s₁ : State) (r' : Res)
    (h : (s.views v).pendingFault = some pending)
    (mapped : Mapped v offset pending.vspace pending.addr s s₁)
    (dealloc : Deallocated pending.reply
      { s₁.res with kernel := s₁.res.kernel.replySend pending.reply.1 } r') :
    Answered v offset s { s₁ with
      res := r', views := s₁.views.update v fun view => { view with pendingFault := none } }

/-- A `PageMap` that went through. -/
structure PageMapped (p : Nat) (args : PageMapArgs) (dst src : ViewRef) (w : WindowRef)
    (cap slot : Slot) (cs : CSpace) (k : Kernel) (view : View) (s₁ s₂ s s' : State) : Prop where
  aligned : args.viewOffset % pageSize4K = 0
  contentAligned : args.contentVaddr % pageSize4K = 0
  registration : s.handleAt (.table p args.windowRegistrationHndl) =
    some (.windowRegistration dst)
  empty : (s.views dst).lookupCap args.viewOffset = none
  window : s.windowAt p args.contentVaddr = some w
  bound : (s.windows w).boundView = some src
  source : SourcePage src (args.contentVaddr - (s.windows w).start) s s₁
  lookup : (s₁.views src).lookupCap (args.contentVaddr - (s.windows w).start) = some cap
  copied : Copied dst args.viewOffset cap s₁ s₂ slot cs k view
  answered : Answered dst args.viewOffset s₂ s'

theorem Populated.views_eq {v : ViewRef} {o : ObjectRef} {offset : Nat}
    (h : Populated v o offset s s') {v' : ViewRef} (hne : v' ≠ v) :
    s'.views v' = s.views v' := by
  obtain ⟨-, cap, s₁, slot, cs, k, view, hg, hc⟩ := h
  have hs₁ : s₁.views = s.views := by cases hg <;> rfl
  rw [hc.eq, ← hs₁]
  exact s₁.views.update_of_ne hne fun _ => view

theorem answerPendingFault_spec {ε : Type} (s : State) (v : ViewRef) (offset : Nat) :
    (answerPendingFault v offset : SProg ε Unit).wp (fun _ s' => Answered v offset s s')
      (fun _ _ => False) Panic.Low s := by
  simp only [answerPendingFault, Prog.wp_bind, wp_getView]
  cases hp : (s.views v).pendingFault with
  | none => exact .idle hp
  | some pending =>
    simp only [Prog.wp_bind, wp_onRes, kmodify, Prog.wp_modify, wp_modifyView]
    refine Prog.wp_mono (mapViewPage_spec v offset _ _) ?_ (fun _ _ => False.elim) fun _ hp => hp
    intro _ s₁ hm
    refine Prog.wp_mono (deallocRetyped_spec _ pending.reply) ?_ (fun _ _ => False.elim)
      fun _ hp => hp
    intro _ r' hd
    exact .answered pending s₁ r' hp hm hd

theorem handlePageMap_spec (hs : Sane s) (p : Nat) (args : PageMapArgs) :
    (handlePageMap p args).wp
      (fun _ s' => ∃ dst src w cap slot cs k view s₁ s₂,
        PageMapped p args dst src w cap slot cs k view s₁ s₂ s s')
      (fun _ s' => s' = s) Panic.Low s := by
  simp only [handlePageMap, Prog.wp_ite, Prog.wp_fail, Prog.wp_bind, Prog.wp_catchErr]
  refine ⟨fun _ => trivial, fun hal => ⟨fun _ => trivial, fun hcal => ?_⟩⟩
  refine Prog.wp_mono (getHandle_spec s p _) ?_ (fun _ _ h => h) fun _ hp => hp
  rintro h s ⟨rfl, -, hh⟩
  rw [Prog.wp_unwrap]
  refine ⟨fun res hres => ?_, fun _ => by decide⟩
  have hreg := hh.symm.trans hres
  cases res with
  | windowRegistration dst =>
    simp only [Prog.wp_bind, wp_getView, Prog.wp_ite, Prog.wp_panic]
    refine ⟨fun _ => by decide, fun hnone => ?_⟩
    have hempty : (s.views dst).lookupCap args.viewOffset = none := by simpa using hnone
    refine Prog.wp_mono (findWindowContaining_spec s p _) ?_ (fun _ _ => False.elim) fun _ hp => hp
    rintro x s ⟨rfl, hx⟩
    simp only [Prog.wp_okOr, wp_getWindow, wp_subU]
    refine ⟨fun w hw => ⟨fun hle => ⟨fun src hsrc => ?_, fun _ => trivial⟩, fun _ => by decide⟩,
      fun _ => trivial⟩
    subst hw
    -- the rest, once the source view has its page
    have hend : ∀ s₁ : State, SourcePage src (args.contentVaddr - (s.windows w).start) s s₁ →
        (s₁.views dst).lookupCap args.viewOffset = none →
        Prog.wp (do
          let srcCap ← (← getView src).lookupCap (args.contentVaddr - (s.windows w).start)
            |> Prog.unwrap .unwrapNone
          copyIntoView dst args.viewOffset srcCap
          answerPendingFault dst args.viewOffset
          pure .pageMap : Handler SMOSReply)
        (fun _ s' => ∃ dst src w cap slot cs k view s₁ s₂,
          PageMapped p args dst src w cap slot cs k view s₁ s₂ s s')
        (fun _ s' => s' = s) Panic.Low s₁ := by
      intro s₁ hsource hempty₁
      simp only [Prog.wp_bind, wp_getView, Prog.wp_unwrap, Prog.wp_pure]
      refine ⟨fun cap hcap => ?_, fun _ => by decide⟩
      refine Prog.wp_mono (copyIntoView_spec dst _ cap hempty₁) ?_ (fun _ _ => False.elim)
        fun _ hp => hp
      rintro _ s₂ ⟨slot, cs, k, view, hc⟩
      refine Prog.wp_mono (answerPendingFault_spec s₂ dst _) ?_ (fun _ _ => False.elim)
        fun _ hp => hp
      intro _ s₃ ha
      exact ⟨dst, src, w, cap, slot, cs, k, view, s₁, s₂, by simpa using hal, by simpa using hcal,
        hreg, hempty, hx.symm, hsrc, hsource, hcap, hc, ha⟩
    simp only [Prog.wp_bind, wp_getView] at hend
    refine ⟨fun hn => Prog.wp_unwrap.mpr ⟨fun o ho => ?_, fun _ => by decide⟩, fun hn => ?_⟩
    · have hn' : (s.views src).lookupCap (args.contentVaddr - (s.windows w).start) = none := by
        simpa using hn
      refine Prog.wp_mono (populate_spec hs.rooted src o _ hn') ?_ (fun _ _ => False.elim)
        fun _ hp => hp
      intro _ s₁ hpop
      refine hend s₁ (.filled o s₁ hn' ho hpop) ?_
      have hne : dst ≠ src := by
        rintro rfl
        have := hs.registered _ _ hreg
        rw [this] at ho
        cases ho
      rw [hpop.views_eq hne]
      exact hempty
    · exact hend s (.there (by simpa [Option.isNone_iff_eq_none] using hn)) hempty
  | _ => exact rfl

/-- What a page fault can do; `reply` is the object the faulter waits on. -/
inductive Faulted (p : Nat) (reply : Alloc) (addr : Nat) (s : State) :
    Option FaultReply → State → Prop
  | nowhere (h : s.windowAt p addr = none) : Faulted p reply addr s (some ⟨false⟩) s
  | unbound (w : WindowRef) (window : s.windowAt p addr = some w)
    (h : (s.windows w).boundView = none) : Faulted p reply addr s (some ⟨false⟩) s
  | forwarded (w : WindowRef) (v : ViewRef) (srv : ServerRef) (clientId reference : Nat)
    (u : UserProcess) (window : s.windowAt p addr = some w)
    (bound : (s.windows w).boundView = some v)
    (missing : (s.views v).lookupCap (addr - (s.windows w).start) = none)
    (external : (s.views v).boundObject = none)
    (info : (s.views v).managingServerInfo = some (srv, clientId, reference))
    (proc : s.procCells p = .activeProcess u) :
    Faulted p reply addr s none { s with
      servers := s.servers.update srv fun server => { server with
        ntfnBuffer := server.ntfnBuffer ++
          [.vmFault clientId reference (roundDown (addr - (s.windows w).start))] }
      views := s.views.update v fun view => { view with
        pendingFault := some ⟨reply, addr, u.vspace.1⟩ } }
  | served (w : WindowRef) (v : ViewRef) (u : UserProcess) (s₁ s' : State)
    (window : s.windowAt p addr = some w) (bound : (s.windows w).boundView = some v)
    (source : SourcePage v (addr - (s.windows w).start) s s₁)
    (proc : s.procCells p = .activeProcess u)
    (mapped : Mapped v (addr - (s.windows w).start) u.vspace.1 addr s₁ s') :
    Faulted p reply addr s (some ⟨true⟩) s'

theorem SourcePage.procCells {v : ViewRef} {offset : Nat} (h : SourcePage v offset s s') :
    s'.procCells = s.procCells := by
  cases h with
  | there => rfl
  | filled o s' _ _ hp =>
    obtain ⟨-, cap, s₁, slot, cs, k, view, hg, hc⟩ := hp
    rw [hc.eq]
    cases hg <;> rfl

theorem handleVmFault_spec {ε : Type} (hs : Sane s) (p : Nat) (reply : Alloc) (addr : Nat) :
    (handleVmFault p reply addr : SProg ε (Option FaultReply)).wp
      (fun x s' => Faulted p reply addr s x s') (fun _ _ => False) Panic.Low s := by
  simp only [handleVmFault, Prog.wp_bind]
  refine Prog.wp_mono (findWindowContaining_spec s p addr) ?_ (fun _ _ => False.elim)
    fun _ hp => hp
  rintro x s ⟨rfl, hx⟩
  cases x with
  | none => exact .nowhere hx.symm
  | some w =>
    simp only [Prog.wp_bind, wp_getWindow]
    cases hv : (s.windows w).boundView with
    | none => exact .unbound w hx.symm hv
    | some v =>
      simp only [Prog.wp_bind, wp_subU, wp_getView, Prog.wp_ite, wp_getProc, Prog.wp_pure]
      -- mapping the page, once the view has it
      have hmap : ∀ (u : UserProcess) (s₁ : State),
          SourcePage v (addr - (s.windows w).start) s s₁ →
          s.procCells p = .activeProcess u →
          (mapViewPage v (addr - (s.windows w).start) u.vspace.1 addr : SProg ε Unit).wp
            (fun _ s' => Faulted p reply addr s (some ⟨true⟩) s') (fun _ _ => False)
            Panic.Low s₁ := by
        intro u s₁ hsource hu
        refine Prog.wp_mono (mapViewPage_spec v _ _ addr) ?_ (fun _ _ => False.elim) fun _ hp => hp
        intro _ s' hm
        exact .served w v u s₁ s' hx.symm hv hsource hu hm
      refine ⟨fun _ => ⟨fun hn => ?_, fun hn => ⟨fun u hu => hmap u s (.there ?_) hu,
        fun _ _ => by decide⟩⟩, fun _ => by decide⟩
      · have hn' : (s.views v).lookupCap (addr - (s.windows w).start) = none := by simpa using hn
        cases ho : (s.views v).boundObject with
        | none =>
          simp only [forwardVmFault, Prog.wp_bind, wp_getView, Prog.wp_unwrap, Prog.wp_pure]
          refine ⟨?_, fun _ => by decide⟩
          rintro ⟨srv, clientId, reference⟩ hinfo
          dsimp only
          refine Prog.wp_mono (enqueueNtfnBufferMsg_spec s srv _) ?_ (fun _ _ => False.elim)
            fun _ hp => hp
          rintro _ s₁ rfl
          simp only [wp_getProc, wp_modifyView]
          exact ⟨fun u hu => .forwarded w v srv clientId reference u hx.symm hv hn' ho hinfo hu,
            fun _ _ => by decide⟩
        | some o =>
          simp only [Prog.wp_bind, wp_getProc, Prog.wp_pure]
          refine Prog.wp_mono (populate_spec hs.rooted v o _ hn') ?_ (fun _ _ => False.elim)
            fun _ hp => hp
          intro _ s₁ hpop
          have hsource : SourcePage v (addr - (s.windows w).start) s s₁ :=
            .filled o s₁ hn' ho hpop
          refine ⟨fun u hu => hmap u s₁ hsource ?_, fun _ _ => by decide⟩
          rw [hsource.procCells] at hu
          exact hu
      · simpa [Option.isNone_iff_eq_none] using hn

/-! ## Loading and exiting -/

/-- One initial window: its object's frames are freed, its view's slots given back. -/
structure Unloaded (w : WindowRef) (v : ViewRef) (o : ObjectRef) (r₁ r' : Res) (s s' : State) :
    Prop where
  bound : (s.windows w).boundView = some v
  object : (s.views v).boundObject = some o
  freed : Freed (decide ((s.objects o).associatedViews.length ≠ 0)) (s.objects o).frames.values
    s.res r₁
  cleaned : Cleaned false (s.views v).caps.values r₁ r'
  eq : s' = { s with res := r' }

/-- The initial windows, one after the other. -/
inductive AllUnloaded : List WindowRef → State → State → Prop
  | nil (s : State) : AllUnloaded [] s s
  | cons {w : WindowRef} {ws : List WindowRef} {s s₁ s₂ : State} {v : ViewRef} {o : ObjectRef}
    {r₁ r' : Res} (first : Unloaded w v o r₁ r' s s₁) (rest : AllUnloaded ws s₁ s₂) :
    AllUnloaded (w :: ws) s s₂

theorem unloadWindow_spec {ε : Type} (s : State) (w : WindowRef) :
    (unloadWindow w : SProg ε Unit).wp (fun _ s' => ∃ v o r₁ r', Unloaded w v o r₁ r' s s')
      (fun _ _ => False) Panic.Low s := by
  simp only [unloadWindow, Prog.wp_bind, wp_getWindow, wp_getView, Prog.wp_unwrap]
  refine ⟨fun v hv => ⟨fun o ho => ?_, fun _ => by decide⟩, fun _ => by decide⟩
  refine Prog.wp_mono (cleanupFrameTable_spec o) ?_ (fun _ _ => False.elim) fun _ hp => hp
  rintro _ s₁ ⟨r₁, hf, rfl⟩
  refine Prog.wp_mono (cleanupCapTable_spec v false) ?_ (fun _ _ => False.elim) fun _ hp => hp
  rintro _ s₂ ⟨r', hc, rfl⟩
  exact ⟨v, o, r₁, r', hv, ho, hf, hc, rfl⟩

theorem unloadWindows_spec {ε : Type} : ∀ (ws : List WindowRef) (s : State),
    (Prog.forEach unloadWindow ws : SProg ε Unit).wp (fun _ s' => AllUnloaded ws s s')
      (fun _ _ => False) Panic.Low s
  | [], s => .nil s
  | w :: ws, s => by
      simp only [Prog.forEach, Prog.wp_prog_bind]
      refine Prog.wp_mono (unloadWindow_spec s w) ?_ (fun _ _ => False.elim) fun _ hp => hp
      rintro _ s₁ ⟨v, o, r₁, r', hu⟩
      refine Prog.wp_mono (unloadWindows_spec ws s₁) ?_ (fun _ _ h => h) fun _ hp => hp
      intro _ s₂ hrest
      exact .cons hu hrest

theorem handleLoadComplete_spec (s : State) (p : Nat) :
    (handleLoadComplete p).wp
      (fun _ s' => ∃ s₁, AllUnloaded (s.initialOf p) s s₁ ∧
        s' = s₁.updProc p fun u => { u with initialWindows := [] })
      (fun _ _ => False) Panic.Low s := by
  simp only [handleLoadComplete, Prog.wp_bind, wp_getProc]
  refine ⟨fun u hu => ?_, fun _ _ => by decide⟩
  refine Prog.wp_mono (unloadWindows_spec u.initialWindows s) ?_ (fun _ _ => False.elim)
    fun _ hp => hp
  intro _ s₁ hall
  simp only [wp_modifyProc, Prog.wp_pure]
  exact ⟨s₁, by simpa [State.initialOf, hu] using hall, rfl⟩

/-- Taking a window or a view apart leaves the views, the processes and the handles as they are,
and allocates nothing. -/
structure SameShape (s s' : State) : Prop where
  views : s'.views = s.views
  procCells : s'.procCells = s.procCells
  procs : s'.procs = s.procs
  handleCaps : s'.handleCaps = s.handleCaps
  dma : s'.dma = s.dma
  published : s'.published = s.published
  reply : s'.reply = s.reply
  windowsNext : s'.windows.next = s.windows.next
  objectsNext : s'.objects.next = s.objects.next
  serversNext : s'.servers.next = s.servers.next

namespace SameShape

protected theorem refl (s : State) : SameShape s s := ⟨rfl, rfl, rfl, rfl, rfl, rfl, rfl, rfl, rfl, rfl⟩

protected theorem trans {s₁ s₂ s₃ : State} (h : SameShape s₁ s₂) (h' : SameShape s₂ s₃) :
    SameShape s₁ s₃ :=
  ⟨h'.views.trans h.views, h'.procCells.trans h.procCells, h'.procs.trans h.procs,
    h'.handleCaps.trans h.handleCaps, h'.dma.trans h.dma, h'.published.trans h.published,
    h'.reply.trans h.reply, h'.windowsNext.trans h.windowsNext,
    h'.objectsNext.trans h.objectsNext, h'.serversNext.trans h.serversNext⟩

theorem notified {v : ViewRef} (h : Notified v s s') : SameShape s s' := by
  unfold Notified at h
  split at h <;> (subst h; exact ⟨rfl, rfl, rfl, rfl, rfl, rfl, rfl, rfl, rfl, rfl⟩)

theorem dissociated {v : ViewRef} {o : ObjectRef} {pos : Nat} (h : Dissociated v o pos s s') :
    SameShape s s' := by
  rw [h.eq]
  exact ⟨rfl, rfl, rfl, rfl, rfl, rfl, rfl, rfl, rfl, rfl⟩

theorem withRes (s : State) (r : Res) : SameShape s { s with res := r } :=
  ⟨rfl, rfl, rfl, rfl, rfl, rfl, rfl, rfl, rfl, rfl⟩

theorem windowDestroyed {w : WindowRef} {destroyView : Bool}
    (h : WindowDestroyed w destroyView s s') : SameShape s s' := by
  cases h with
  | unbound => exact .refl s
  | kept v s' _ _ hn => exact notified hn
  | destroyed v o pos s₁ s₂ r' _ _ hn hdis _ =>
    exact ((notified hn).trans (dissociated hdis)).trans (withRes s₂ r')

theorem unviewed {v : ViewRef} {o : ObjectRef} {pos : Nat} {r' : Res}
    (h : Unviewed v o pos r' s s') : SameShape s s' := by
  have h₁ : SameShape s { s with
      res := r', windows := s.windows.update (s.views v).boundWindow (Window.bind none) } :=
    ⟨rfl, rfl, rfl, rfl, rfl, rfl, rfl, rfl, rfl, rfl⟩
  exact h₁.trans (dissociated h.dissociated)

theorem inRange {s s' : State} (h : SameShape s s') (y : RootServerResource) :
    s'.InRange y ↔ s.InRange y := by
  cases y <;> simp [State.InRange, h.views, h.windowsNext, h.objectsNext, h.serversNext]

end SameShape

/-! ## Turns -/

/-- The process with this pid is active, in the cell `p`. -/
structure Acting (s : State) (pid : Pid) (p : Nat) (u : UserProcess) : Prop where
  lt : pid < maxProcs
  cell : s.procs pid = some p
  proc : s.procCells p = .activeProcess u

/-- `syscall_loop` has a new reply object. -/
structure Renewed (r' : Res) (reply : Alloc) (s s' : State) : Prop where
  quiet : Quiet s.res r'
  fresh : ¬ s.res.cspace.Allocated reply.1
  allocated : r'.cspace.Allocated reply.1
  cap : ∃ obj kind, r'.kernel.caps reply.1 = some (.object obj kind)
  eq : s' = { s with res := r', reply := reply }

/-- The faulter waits on the current reply object. -/
def State.blockOn (s : State) (pid : Pid) : State :=
  { s with res := { s.res with kernel := s.res.kernel.block s.reply.1 pid } }

/-- A thread that waits on the current reply object is resumed. -/
def State.resume (s : State) (reply : Alloc) : State :=
  { s with res := { s.res with kernel := s.res.kernel.replySend reply.1 } }

/-- A process waits for another one to end, which keeps the current reply object for it. -/
def State.awaits (s : State) (proc : Nat) (pid : Pid) : State :=
  (s.updProc proc fun u => { u with waiter := some s.reply }).blockOn pid

/-- All that one turn can make of a state. A turn that only answers an error is `refused`. -/
inductive Turn (s : State) : Op → State → Prop
  | refused (op : Op) : Turn s op s
  | windowCreate {pid args s'} (p u) (act : Acting s pid p u) (h : WindowCreated p args s s') :
    Turn s (.windowCreate pid args) s'
  | windowDestroy {pid hndl s'} (p u loc w s₁) (act : Acting s pid p u)
    (h : WindowRemoved p hndl loc w s₁ s s') : Turn s (.windowDestroy pid hndl) s'
  | windowRegister {pid args s'} (p u srv w idx) (act : Acting s pid p u)
    (h : WindowRegistered p args srv w idx s s') : Turn s (.windowRegister pid args) s'
  | windowDeregister {pid hndl s'} (p u v r') (act : Acting s pid p u)
    (h : WindowDeregistered p hndl v r' s s') : Turn s (.windowDeregister pid hndl) s'
  | objCreate {pid args dmaAnswer} (p u s₁ idx) (act : Acting s pid p u) (h : ObjMade args s s₁)
    (valid : s₁.ValidLoc (allocatedLoc p args.returnCap idx))
    (empty : s₁.handleAt (allocatedLoc p args.returnCap idx) = none) :
    Turn s (.objCreate pid args dmaAnswer)
      (s₁.giveHandle p args.returnCap idx (.object s.objects.next))
  | objLeft {pid args dmaAnswer s'} (p u) (act : Acting s pid p u) (h : ObjMade args s s') :
    Turn s (.objCreate pid args dmaAnswer) s'
  | objDestroy {pid hndl s'} (p u loc o r') (act : Acting s pid p u)
    (h : ObjDestroyed p hndl loc o r' s s') : Turn s (.objDestroy pid hndl) s'
  | view {pid args s'} (p u w o idx) (act : Acting s pid p u) (h : ViewMade p args w o idx s s') :
    Turn s (.view pid args) s'
  | viewLeft {pid args} (p u w o) (act : Acting s pid p u) (accepted : ViewAccepted p args w o s)
    (full : ∀ idx, idx < maxHandles → s.handleAt (.table p idx) ≠ none) :
    Turn s (.view pid args) (s.linkView w o (args.newView w o))
  | unview {pid hndl} (p u v o pos r' s₁) (act : Acting s pid p u)
    (valid : s.ValidLoc (.table p hndl)) (handle : s.handleAt (.table p hndl) = some (.view v))
    (h : Unviewed v o pos r' s s₁) :
    Turn s (.unview pid hndl) (s₁.setHandleAt (.table p hndl) none)
  | connPublish {pid args s'} (p u f r₁ r₂ object page s₁ idx srv) (act : Acting s pid p u)
    (h : Publishing p args f r₁ r₂ object page s s₁) (h' : Published p args f idx srv s s₁ s') :
    Turn s (.connPublish pid args) s'
  | connTried {pid args} (p u r') (act : Acting s pid p u) (h : Tried s.res r') :
    Turn s (.connPublish pid args) { s with res := r' }
  | connLeft {pid args s'} (p u f r₁ r₂ object page) (act : Acting s pid p u)
    (h : Publishing p args f r₁ r₂ object page s s') : Turn s (.connPublish pid args) s'
  | pageMap {pid args s'} (p u dst src w cap slot cs k view s₁ s₂) (act : Acting s pid p u)
    (h : PageMapped p args dst src w cap slot cs k view s₁ s₂ s s') :
    Turn s (.pageMap pid args) s'
  | loadComplete {pid} (p u s₁) (act : Acting s pid p u) (h : AllUnloaded (s.initialOf p) s s₁) :
    Turn s (.loadComplete pid) (s₁.updProc p fun u => { u with initialWindows := [] })
  | registry {pid inv s'} (p u) (act : Acting s pid p u) (h : Beside s s') :
    Turn s (.registry pid inv) s'
  | connDestroy {pid hndl s'} (p u) (act : Acting s pid p u) (h : Severed s s') :
    Turn s (.connDestroy pid hndl) s'
  | processWait {pid hndl s'} (p u proc r' reply) (act : Acting s pid p u)
    (renewed : Renewed r' reply (s.awaits proc pid) s') : Turn s (.processWait pid hndl) s'
  | faultServed {pid addr} (p u s₁) (act : Acting s pid p u)
    (h : Faulted p s.reply addr (s.blockOn pid) (some ⟨true⟩) s₁) :
    Turn s (.vmFault pid addr) (s₁.resume s.reply)
  | faultLeft {pid addr s'} (p u x s₁ r' reply) (act : Acting s pid p u)
    (h : Faulted p s.reply addr (s.blockOn pid) x s₁) (hx : x ≠ some ⟨true⟩)
    (renewed : Renewed r' reply s₁ s') : Turn s (.vmFault pid addr) s'
  | takeNotification (srv : ServerRef) :
    Turn s (.takeNotification srv) { s with
      servers := s.servers.update srv fun server =>
        { server with ntfnBuffer := server.ntfnBuffer.tail } }
  | userWrite {pid vaddr byte} (p u) (act : Acting s pid p u) :
    Turn s (.userWrite pid vaddr byte) { s with
      res := { s.res with kernel := s.res.kernel.userWrite u.vspace.1 vaddr byte } }

theorem procCell_spec {ε : Type} (s : State) (pid : Pid) :
    (procCell pid : SProg ε Nat).wp (fun p s' => s' = s ∧ ∃ u, Acting s pid p u)
      (fun _ _ => False) Panic.Low s := by
  simp only [procCell, Prog.wp_bind, Prog.wp_assert, decide_eq_true_eq, Prog.wp_gets,
    Prog.wp_unwrap, wp_getProc, Prog.wp_pure]
  exact ⟨fun hlt => ⟨fun p hp => ⟨fun u hu => ⟨trivial, u, hlt, hp, hu⟩, fun _ _ => by decide⟩,
    fun _ => by decide⟩, fun _ => by decide⟩

end Smos.RootServer
