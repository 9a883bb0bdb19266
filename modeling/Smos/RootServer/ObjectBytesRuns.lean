/-
Smos.RootServer.ObjectBytesRuns — objects keep their bytes in every run.

No turn that builds or uses something changes a byte of an object that is
there already, except a store of a process; a store changes at most one byte
of one object. So demand paging is invisible: whichever of an object's pages
have been asked for, through whichever views and at whichever offsets, the
bytes are those that were stored.
-/
import Smos.RootServer.ObjectBytes

namespace Smos.RootServer

open Smos.Base

variable {s s' s₁ s₂ : State} {p n : Nat}

/-! ## Where pages are mapped -/

/-- A page may be mapped in the address space that the slot holds. -/
def State.Space (s : State) (c : Slot) : Prop :=
  (∃ p u, s.procCells p = .activeProcess u ∧ c = u.vspace.1) ∨
    ∃ v f, (s.views v).pendingFault = some f ∧ c = f.vspace

/-- None of these is the root server's. -/
def Spaced (s : State) : Prop :=
  ∀ c, s.Space c → s.res.cspace.Allocated c ∧
    ∃ vs, s.res.kernel.caps c = some (.vspace vs) ∧ vs ≠ rootVSpace

theorem Spaced.goes (h : Spaced s) (hg : Goes s s') (hsub : ∀ c, s'.Space c → s.Space c) :
    Spaced s' := by
  intro c hc
  obtain ⟨hall, vs, hcap, hvs⟩ := h c (hsub c hc)
  have hno : ¬ s.res.HoldsObject c := by
    rintro ⟨-, obj, kind, hobj⟩
    cases hcap.symm.trans hobj
  exact ⟨hg.slots.allocated c hno hall, vs, hg.slots.holdsVspace hno hall hcap, hvs⟩

theorem Idle.space (h : Idle s s') (c : Slot) (hc : s'.Space c) : s.Space c := by
  rcases hc with ⟨p, u', hu', rfl⟩ | ⟨v, f, hf, rfl⟩
  · obtain ⟨u, hu, heq⟩ := h.vspace p u' hu'
    exact .inl ⟨p, u, hu, congrArg Prod.fst heq⟩
  · exact .inr ⟨v, f, h.pending v ▸ hf, rfl⟩

theorem SameLinks.space (h : SameLinks s s')
    (hp : ∀ v f, (s'.views v).pendingFault = some f →
      (s.views v).pendingFault = some f ∨ ∃ p u, s.procCells p = .activeProcess u ∧
        f.vspace = u.vspace.1) (c : Slot) (hc : s'.Space c) : s.Space c := by
  rcases hc with ⟨p, u, hu, rfl⟩ | ⟨v, f, hf, rfl⟩
  · exact .inl ⟨p, u, h.procCells ▸ hu, rfl⟩
  · rcases hp v f hf with hf | ⟨p, u, hu, heq⟩
    · exact .inr ⟨v, f, hf, rfl⟩
    · exact .inl ⟨p, u, hu, heq⟩

theorem Answered.pendingFault {v : ViewRef} {offset : Nat} (h : Answered v offset s s')
    (v' : ViewRef) (f : PendingFault) (hf : (s'.views v').pendingFault = some f) :
    (s.views v').pendingFault = some f := by
  cases h with
  | idle => exact hf
  | answered pending s₁ r' _ hm _ =>
    obtain ⟨cap, r, -, -, rfl⟩ := hm
    by_cases hv : v' = v
    · subst hv
      simp only [Heap.update_self] at hf
      cases hf
    · simpa only [Heap.update_of_ne _ hv] using hf

theorem Copied.pendingFault {v : ViewRef} {offset : Nat} {src slot : Slot} {cs : CSpace}
    {k : Kernel} {view : View} (h : Copied v offset src s s' slot cs k view) (v' : ViewRef) :
    (s'.views v').pendingFault = (s.views v').pendingFault := by
  obtain ⟨t, -, hview⟩ := insertCapAt_ok h.insert
  rw [h.eq]
  subst hview
  exact s.views.update_preserves (r := v) View.pendingFault
    (f := fun _ => { s.views v with caps := t }) rfl v'

theorem SourcePage.pendingFault {v : ViewRef} {offset : Nat} (h : SourcePage v offset s s')
    (v' : ViewRef) : (s'.views v').pendingFault = (s.views v').pendingFault := by
  cases h with
  | there => rfl
  | filled o s' _ _ populated =>
    obtain ⟨-, cap, s₁, slot, cs, k, view, hgot, hcopied⟩ := populated
    rw [hcopied.pendingFault v']
    cases hgot <;> rfl

theorem Mapped.pendingFault {v : ViewRef} {offset : Nat} {vspace : Slot} {addr : Nat}
    (h : Mapped v offset vspace addr s s') (v' : ViewRef) :
    (s'.views v').pendingFault = (s.views v').pendingFault := by
  obtain ⟨cap, r, -, -, rfl⟩ := h
  rfl

/-- A pending fault is an old one, or of the process that faults. -/
theorem Faulted.pendingFault {reply : Alloc} {addr : Nat} {x : Option FaultReply}
    (h : Faulted p reply addr s x s') (v : ViewRef) (f : PendingFault)
    (hf : (s'.views v).pendingFault = some f) : (s.views v).pendingFault = some f ∨
      ∃ p u, s.procCells p = .activeProcess u ∧ f.vspace = u.vspace.1 := by
  cases h with
  | nowhere => exact .inl hf
  | unbound => exact .inl hf
  | forwarded w v' srv clientId reference u _ _ _ _ _ proc =>
    by_cases hv : v = v'
    · subst hv
      simp only [Heap.update_self, Option.some.injEq] at hf
      exact .inr ⟨p, u, proc, by rw [← hf]⟩
    · exact .inl (by simpa only [Heap.update_of_ne _ hv] using hf)
  | served w v' u s₁ s' _ _ source _ hm =>
    rw [hm.pendingFault, source.pendingFault] at hf
    exact .inl hf

/-- A turn that tears nothing down makes no address space. -/
theorem Turn.space (hs : Sane s) {op : Op} (hop : op.Builds) (ht : Turn s op s') (c : Slot)
    (hc : s'.Space c) : s.Space c := by
  cases ht with
  | refused => exact hc
  | windowCreate p u _ hm => exact (Idle.windowCreated hm).space c hc
  | windowRegister p u srv w idx _ hr => exact (Idle.windowRegistered hs hr).space c hc
  | objCreate p u s₁ idx _ hm _ _ =>
    exact ((Idle.objMade hm).trans (.giveHandle _ _ _ _ _)).space c hc
  | objLeft p u _ hm => exact (Idle.objMade hm).space c hc
  | @view pid args s' p u w o idx _ hm =>
    have heq := hm.eq
    subst heq
    refine Idle.space ?_ c hc
    have h₁ := Idle.linkView hs o (x := args.newView w o) rfl rfl
    have h₂ := h₁.trans (.setHandleAt _ (.table p idx) (some (.view s.views.next)))
    exact h₂.trans (.updProc _ p (fun _ => rfl) (fun _ => rfl) fun _ _ hw => hw)
  | @viewLeft pid args p u w o =>
    exact (Idle.linkView hs o (x := args.newView w o) rfl rfl).space c hc
  | connPublish p u f r₁ r₂ object page s₁ idx srv _ hp hp' =>
    exact ((Idle.publishing hs hp).trans (.published hp')).space c hc
  | connTried p u r' _ hr => exact (Idle.grow hr.grow).space c hc
  | connLeft p u f r₁ r₂ object page _ hp => exact (Idle.publishing hs hp).space c hc
  | pageMap p u dst src w cap slot cs k view s₁ s₂ act hm =>
    refine (SameLinks.pageMapped hm).space (fun v f hf => .inl ?_) c hc
    rw [← hm.source.pendingFault, ← hm.copied.pendingFault]
    exact hm.answered.pendingFault v f hf
  | @faultServed pid addr p u s₁ act hf =>
    have hlinks := ((SameLinks.blockOn s pid).trans (.faulted hf)).trans (.resume s₁ s.reply)
    exact hlinks.space hf.pendingFault c hc
  | @faultLeft pid addr s' p u x s₁ r' reply act hf hx renewed =>
    have hlinks := ((SameLinks.blockOn s pid).trans (.faulted hf)).trans (.renewed renewed)
    refine hlinks.space (fun v f hf' => hf.pendingFault v f ?_) c hc
    rw [renewed.eq] at hf'
    exact hf'
  | registry p u _ hb => exact (Idle.beside hb).space c hc
  | @processWait pid hndl s' p u proc r' reply _ renewed =>
    have hlinks := (SameLinks.blockOn _ pid).trans (.renewed renewed)
    refine (Idle.waiter s proc).space c (hlinks.space (fun v f hf => .inl ?_) c hc)
    rw [renewed.eq] at hf
    exact hf
  | takeNotification srv => exact hc
  | userWrite p u => exact hc
  | windowDestroy | windowDeregister | objDestroy | unview | loadComplete | connDestroy =>
    exact hop.elim

/-! ## The parts of a turn -/

namespace Remembers

/-- Neither the resources nor the objects have changed. -/
theorem rests (h : Tabled s) (hr : s'.res = s.res) (ho : s'.objects = s.objects) :
    Remembers n s s' := by
  refine ⟨⟨?_, ?_, ?_⟩, ?_, ?_, ?_, ?_, ho ▸ Nat.le_refl _⟩
  · rw [hr]
    exact h.frames
  · rw [ho, hr]
    exact h.entry
  · rw [ho]
    exact h.single
  · rw [hr]
    exact .refl h.frames
  · rw [ho]
    exact fun _ _ => rfl
  · rw [ho]
    exact fun _ _ _ _ hf => hf
  · rw [ho]
    intro o _ _ x f hnone hf
    rw [hnone] at hf
    cases hf

theorem res (h : Tabled s) {r : Res} (hu : Unwritten s.res r) :
    Remembers n s { s with res := r } where
  tabled := ⟨hu.frames, fun o ho x f hf => by
    obtain ⟨hheld, hcap⟩ := h.entry o ho x f hf
    exact ⟨hu.held _ hheld, hcap.trans (hu.frameCap _ (h.frames.held_used hheld)).symm⟩, h.single⟩
  unwritten := hu
  attributes _ _ := rfl
  kept _ _ _ _ hf := hf
  filled _ _ _ _ _ hnone hf := by
    rw [hnone] at hf
    cases hf
  next := Nat.le_refl _

theorem copied (h : Tabled s) {v : ViewRef} {offset : Nat} {src slot : Slot} {cs : CSpace}
    {k : Kernel} {view : View} (hc : Copied v offset src s s' slot cs k view) :
    Remembers n s s' := by
  have h₁ : Remembers n s { s with res := { s.res with cspace := cs, kernel := k } } :=
    res h (.copied h.frames hc.fresh hc.allocated hc.copy)
  have heq := hc.eq
  subst heq
  exact h₁.trans h (rests h₁.tabled rfl rfl)

theorem sourcePage (h : Tabled s) {v : ViewRef} {offset : Nat} (hp : SourcePage v offset s s') :
    Remembers n s s' := by
  cases hp with
  | there => exact .refl h
  | filled o s' _ _ populated =>
    obtain ⟨-, cap, s₁, slot, cs, k, view, hgot, hcopied⟩ := populated
    have h₁ : Remembers n s s₁ := gotFrame h hgot
    exact h₁.trans h (copied h₁.tabled hcopied)

theorem mapped (h : Tabled s) (hsp : Spaced s) {v : ViewRef} {offset : Nat} {c : Slot}
    {addr : Nat} (hc : s.Space c) (hm : Mapped v offset c addr s s') : Remembers n s s' := by
  obtain ⟨hall, vs, hcap, hvs⟩ := hsp c hc
  obtain ⟨cap, r, -, hmaps, rfl⟩ := hm
  exact res h (.mapsFrom h.frames hall hcap hvs hmaps)

theorem answered (h : Tabled s) (hsp : Spaced s) (hsh : Shared s) {v : ViewRef} {offset : Nat}
    (ha : Answered v offset s s') : Remembers n s s' := by
  cases ha with
  | idle => exact .refl h
  | answered pending s₁ r' hpend hm hd =>
    have hc : s.Space pending.vspace := .inr ⟨v, pending, hpend, rfl⟩
    have h₁ : Remembers n s s₁ := mapped h hsp hc hm
    have hsh₁ := (hsh.mapped hm).shared
    have hpend₁ : (s₁.views v).pendingFault = some pending := (hm.pendingFault v).trans hpend
    obtain ⟨⟨hall, obj, kind, hcap⟩, -⟩ := hsh₁.replies.pending v pending hpend₁
    have hu : Unwritten s₁.res
        { s₁.res with kernel := s₁.res.kernel.replySend pending.reply.1 } :=
      .waits h₁.tabled.frames (by simp) (by simp) (by simp) (by simp)
    have hreply : Res.HoldsObject
        { s₁.res with kernel := s₁.res.kernel.replySend pending.reply.1 } pending.reply.1 :=
      ⟨hall, obj, kind, (congrFun (Kernel.replySend_caps _ _) _).trans hcap⟩
    have h₂ : Remembers n s₁ { s₁ with res := r' } :=
      res h₁.tabled (hu.trans h₁.tabled.frames (.deallocated hu.frames hreply hd))
    have h₃ := h₁.trans h h₂
    exact h₃.trans h (rests h₃.tabled rfl rfl)

theorem pageMapped (h : Tabled s) (hsp : Spaced s) (hs : Sane s) (hsh : Shared s)
    {args : PageMapArgs} {dst src : ViewRef} {w : WindowRef} {cap slot : Slot} {cs : CSpace}
    {k : Kernel} {view : View} (hm : PageMapped p args dst src w cap slot cs k view s₁ s₂ s s') :
    Remembers n s s' := by
  have h₁ : Remembers n s s₁ := sourcePage h hm.source
  have h₂ := h₁.trans h (copied h₁.tabled hm.copied)
  have hg := hsh.pageCopied (hs.registered _ _ hm.registration) hm
  have hlinks : SameLinks s s₂ := (SameLinks.sourcePage hm.source).trans (.copied hm.copied)
  have hsp₂ : Spaced s₂ := hsp.goes hg <| hlinks.space fun v f hf => .inl <| by
    rwa [hm.copied.pendingFault, hm.source.pendingFault] at hf
  exact h₂.trans h (answered h₂.tabled hsp₂ hg.shared hm.answered)

theorem blockOn (h : Tabled s) (pid : Pid) : Remembers n s (s.blockOn pid) :=
  res h (.waits h.frames rfl rfl rfl rfl)

theorem faulted (h : Tabled s) (hsp : Spaced s) (hsh : Shared s) {reply : Alloc} {addr : Nat}
    {x : Option FaultReply} (hf : Faulted p reply addr s x s') : Remembers n s s' := by
  cases hf with
  | nowhere => exact .refl h
  | unbound => exact .refl h
  | forwarded => exact rests h rfl rfl
  | served w v u s₁ s' _ _ source proc hm =>
    have h₁ : Remembers n s s₁ := sourcePage h source
    have hlinks := SameLinks.sourcePage source
    have hsp₁ : Spaced s₁ := hsp.goes (hsh.sourcePage source) <|
      hlinks.space fun v f hf => .inl <| by rwa [source.pendingFault] at hf
    have hc : s₁.Space u.vspace.1 := .inl ⟨p, u, hlinks.procCells ▸ proc, rfl⟩
    exact h₁.trans h (mapped h₁.tabled hsp₁ hc hm)

theorem renewed (h : Tabled s) {r' : Res} {reply : Alloc} (hr : Renewed r' reply s s') :
    Remembers n s s' := by
  have h₁ : Remembers n s { s with res := r' } := res h (.quiet h.frames hr.quiet)
  have heq := hr.eq
  subst heq
  exact h₁.trans h (rests h₁.tabled rfl rfl)

/-! ### New objects -/

theorem allocObject (h : Tabled s) (hs : Sane s) {x : AnonymousMemoryObject}
    (hx : x.frames = Table.new) :
    Remembers s.objects.next s { s with objects := s.objects.alloc x } := by
  refine same h hs (Nat.le_refl _) (.refl h.frames) (fun o => ?_) (fun o ho => ?_) (Nat.le_succ _)
  · by_cases ho : o = s.objects.next
    · subst ho
      rw [Heap.alloc_self, hx, hs.blankObject _ (Nat.le_refl _)]
      rfl
    · rw [Heap.alloc_of_ne _ ho]
  · rw [Heap.alloc_of_lt _ ho]

/-- An object that does not take its frames from the table comes to have some. -/
theorem foreign (h : Tabled s) (hu : Unwritten s.res s'.res) {o : ObjectRef}
    {object : AnonymousMemoryObject} (hn : n ≤ o) (hno : ¬ object.Ordinary)
    (hobjects : s'.objects = s.objects.update o fun _ => object) : Remembers n s s' := by
  have hother : ∀ {o'}, (s'.objects o').Ordinary → s'.objects o' = s.objects o' := by
    intro o' hord
    rw [hobjects] at hord ⊢
    by_cases ho : o' = o
    · subst ho
      rw [Heap.update_self] at hord
      exact absurd hord hno
    · rw [Heap.update_of_ne _ ho]
  have hold : ∀ {o'}, o' < n → s'.objects o' = s.objects o' := by
    intro o' ho'
    rw [hobjects, Heap.update_of_ne _ (Nat.ne_of_lt (Nat.lt_of_lt_of_le ho' hn))]
  refine ⟨⟨hu.frames, ?_, ?_⟩, hu, fun o' ho' => by rw [hold ho'], ?_, ?_,
    hobjects ▸ Nat.le_refl _⟩
  · intro o' hord x f hf
    have heq := hother hord
    rw [heq] at hord hf
    obtain ⟨hheld, hcap⟩ := h.entry o' hord x f hf
    exact ⟨hu.held _ hheld, hcap.trans (hu.frameCap _ (h.frames.held_used hheld)).symm⟩
  · intro o₁ o₂ h₁ h₂ x y f g hf hg
    have heq₁ := hother h₁
    have heq₂ := hother h₂
    rw [heq₁] at h₁ hf
    rw [heq₂] at h₂ hg
    exact h.single o₁ o₂ h₁ h₂ x y f g hf hg
  · intro o' ho' x f hf
    rwa [hold ho']
  · intro o' ho' _ x f hnone hf
    rw [hold ho', hnone] at hf
    cases hf

theorem objMade (h : Tabled s) (hs : Sane s) {args : ObjCreateArgs} (hm : ObjMade args s s') :
    Remembers s.objects.next s s' := by
  have h₁ : Remembers s.objects.next s (s.allocObject args) := allocObject h hs rfl
  have hself : (s.allocObject args).objects s.objects.next =
      .new args.size args.rights args.attributes := Heap.alloc_self _ _
  refine h₁.trans h ?_
  cases hm.filled with
  | device paddr fs r object attr memory inserted =>
    have hu : Unwritten s.res r := by
      cases memory with
      | cached => exact .refl h.frames
      | made r₁ frames =>
        exact .grown h.frames (frames.quiet.grow.congr rfl rfl) (.of_eq frames.quiet.frameTable)
    refine foreign h₁.tabled hu (Nat.le_refl _) (fun hord => ?_) rfl
    rw [inserted.eq, hself] at hord
    have hdev : args.attributes.device = false := hord.1
    rw [attr] at hdev
    cases hdev
  | contiguous allocation object _ attr _ inserted =>
    refine foreign h₁.tabled (.refl h.frames) (Nat.le_refl _) (fun hord => ?_) rfl
    rw [inserted.eq, hself] at hord
    have hcont : args.attributes.contiguous = false := hord.2
    rw [attr] at hcont
    cases hcont
  | eager s' _ _ _ filled => exact .eagerFilled filled h₁.tabled (Nat.le_refl _)
  | empty => exact .refl h₁.tabled

theorem linkedRing (h : Tabled s) (hs : Sane s) (base : Nat) {r : Res}
    (hu : Unwritten s.res r) :
    Remembers s.objects.next s { s.linkRing base with res := r } ∧
      ∀ o < s.objects.next, ((s.linkRing base).objects o).frames = (s.objects o).frames := by
  let s₀ : State := { s with
    windows := s.windows.alloc ⟨base, pageSize4K, none⟩
    objects := s.objects.alloc (.new pageSize4K .all .default) }
  have hattributes : ∀ o, ((s.linkRing base).objects o).attributes = (s₀.objects o).attributes :=
    s₀.objects.update_preserves AnonymousMemoryObject.attributes (r := s.objects.next)
      (f := fun object => { object with
        associatedViews := object.associatedViews ++ [s₀.views.next] }) rfl
  have hframes : ∀ o, ((s.linkRing base).objects o).frames = (s₀.objects o).frames :=
    s₀.objects.update_preserves AnonymousMemoryObject.frames (r := s.objects.next)
      (f := fun object => { object with
        associatedViews := object.associatedViews ++ [s₀.views.next] }) rfl
  have hold : ∀ o < s.objects.next, s₀.objects o = s.objects o := fun o ho =>
    s.objects.alloc_of_lt ho _
  refine ⟨same h hs (Nat.le_refl _) hu (fun o => ?_) (fun o ho => ?_) (Nat.le_succ _),
    fun o ho => ?_⟩
  · refine (hframes o).trans ?_
    by_cases ho : o = s.objects.next
    · subst ho
      rw [hs.blankObject _ (Nat.le_refl _)]
      exact (congrArg AnonymousMemoryObject.frames
        (s.objects.alloc_self (.new pageSize4K .all .default))).trans rfl
    · exact congrArg AnonymousMemoryObject.frames (s.objects.alloc_of_ne ho _)
  · exact (hattributes o).trans (congrArg AnonymousMemoryObject.attributes (hold o ho))
  · exact (hframes o).trans (congrArg AnonymousMemoryObject.frames (hold o ho))

theorem publishing (h : Tabled s) (hs : Sane s) {args : ConnPublishArgs} {f : Nat} {r₁ r₂ : Res}
    {object : AnonymousMemoryObject} {page : PageEntry}
    (hp : Publishing p args f r₁ r₂ object page s s') : Remembers s.objects.next s s' := by
  have hgrown := Unwritten.grown h.frames hp.tried.grow hp.tried.frames
  obtain ⟨h₁, hframes⟩ := linkedRing h hs args.ntfnBuffer hgrown
  have h₂ := h₁.trans h (Remembers.inserted h₁.tabled (Nat.le_refl _) hp.frame hp.insert)
  obtain ⟨hu, hfresh, hheld⟩ := Unwritten.frameAllocated h₁.tabled.frames hp.frame
  have hused := hu.frames.held_used hheld
  obtain ⟨obj, hshown⟩ := hu.frames.shown f hused
  obtain rfl : obj = page.obj :=
    congrArg PageEntry.obj (Option.some.inj (hshown.page.symm.trans hp.page_eq))
  have hnew : f ∉ s.res.frameTable.allocated := fun hf => hfresh (h₁.unwritten.held f hf)
  have hbytes := h₂.tabled.written page.obj (s.initRing (r₂.kernel.mem page.obj))
  -- the ring's page is no page of an older object
  have h₃ : Remembers s.objects.next s { s.linkRing args.ntfnBuffer with
      res := { r₂ with kernel := r₂.kernel.writeMem page.obj (s.initRing (r₂.kernel.mem page.obj)) }
      objects := (s.linkRing args.ntfnBuffer).objects.update s.objects.next fun _ => object } := by
    refine ⟨hbytes, h₂.unwritten.write h.frames hused hshown hnew _, h₂.attributes, h₂.kept, ?_,
      Nat.le_succ _⟩
    intro o ho _ x g hnone hg
    rcases lookupFrame_insert hp.insert hg with hg | ⟨rfl, -, -⟩
    · unfold AnonymousMemoryObject.lookupFrame at hg hnone
      rw [hframes o ho, hnone] at hg
      cases hg
    · exact absurd ho (Nat.lt_irrefl _)
  rw [hp.eq]
  exact h₃.trans h (rests h₃.tabled rfl rfl)

theorem linkView (h : Tabled s) (hs : Sane s) (w : WindowRef) (o : ObjectRef) (x : View) :
    Remembers s.objects.next s (s.linkView w o x) := by
  refine same h hs (Nat.le_refl _) (.refl h.frames) ?_ ?_ (Nat.le_refl _)
  · exact s.objects.update_preserves AnonymousMemoryObject.frames (r := o)
      (f := fun object => { object with
        associatedViews := object.associatedViews ++ [s.views.next] }) rfl
  · exact fun o' _ => s.objects.update_preserves AnonymousMemoryObject.attributes (r := o)
      (f := fun object => { object with
        associatedViews := object.associatedViews ++ [s.views.next] }) rfl o'

end Remembers

/-! ## Every turn -/

/-- The operation is no store. -/
def Op.Handled : Op → Prop
  | .userWrite _ _ _ => False
  | _ => True

theorem Tabled.turn (h : Tabled s) (hsp : Spaced s) (hs : Sane s) (hsh : Shared s) {op : Op}
    (hop : op.Builds) (hw : op.Handled) (ht : Turn s op s') : Remembers s.objects.next s s' := by
  cases ht with
  | refused => exact .refl h
  | windowCreate p u _ hc =>
    obtain ⟨-, -, idx, -, -, rfl⟩ := hc
    exact .rests h (by simp [State.giveHandle]) (by simp [State.giveHandle])
  | windowRegister p u srv w idx _ hr =>
    rw [hr.eq]
    exact .rests h (by simp) (by simp)
  | objCreate p u s₁ idx _ hm _ _ =>
    have h₁ := Remembers.objMade h hs hm
    exact h₁.trans h (.rests h₁.tabled (by simp [State.giveHandle]) (by simp [State.giveHandle]))
  | objLeft p u _ hm => exact .objMade h hs hm
  | @view pid args s' p u w o idx _ hm =>
    have h₁ := Remembers.linkView h hs w o (args.newView w o)
    rw [hm.eq]
    exact h₁.trans h (.rests h₁.tabled (by simp) (by simp))
  | viewLeft p u w o => exact .linkView h hs w o _
  | connPublish p u f r₁ r₂ object page s₁ idx srv _ hp hp' =>
    have h₁ := Remembers.publishing h hs hp
    rw [hp'.eq]
    exact h₁.trans h (.rests h₁.tabled (by simp) (by simp))
  | connTried p u r' _ hr => exact .res h (.grown h.frames hr.grow hr.frames)
  | connLeft p u f r₁ r₂ object page _ hp => exact .publishing h hs hp
  | pageMap p u dst src w cap slot cs k view s₁ s₂ _ hm => exact .pageMapped h hsp hs hsh hm
  | @faultServed pid addr p u s₁ _ hf =>
    have h₀ : Remembers s.objects.next s (s.blockOn pid) := .blockOn h pid
    have hg := hsh.blockOn pid
    have h₁ := h₀.trans h (.faulted h₀.tabled (hsp.goes hg fun _ hc => hc) hg.shared hf)
    exact h₁.trans h (.res h₁.tabled
      (.waits h₁.tabled.frames (by simp) (by simp) (by simp) (by simp)))
  | @faultLeft pid addr s' p u x s₁ r' reply _ hf hx renewed =>
    have h₀ : Remembers s.objects.next s (s.blockOn pid) := .blockOn h pid
    have hg := hsh.blockOn pid
    have h₁ := h₀.trans h (.faulted h₀.tabled (hsp.goes hg fun _ hc => hc) hg.shared hf)
    exact h₁.trans h (.renewed h₁.tabled renewed)
  | registry p u _ hb =>
    have h₁ : Remembers s.objects.next s { s with res := s'.res } :=
      .res h (.quiet h.frames hb.quiet)
    exact h₁.trans h (.rests h₁.tabled rfl hb.entered.objects)
  | @processWait pid hndl s' p u proc r' reply _ renewed =>
    have h₁ : Remembers s.objects.next s (s.updProc proc fun u =>
        { u with waiter := some s.reply }) := .rests h rfl rfl
    have h₂ := h₁.trans h (.blockOn h₁.tabled pid)
    exact h₂.trans h (.renewed h₂.tabled renewed)
  | takeNotification srv => exact .rests h rfl rfl
  | userWrite => exact hw.elim
  | windowDestroy | windowDeregister | objDestroy | unview | loadComplete | connDestroy =>
    exact hop.elim

/-! ## Stores -/

namespace State

/-- The page of an address in the address space that the slot holds. -/
def pageOf (s : State) (c : Slot) (vaddr : Nat) : Option PageEntry :=
  match s.res.kernel.caps c with
  | some (.vspace vs) => s.res.kernel.pages vs (roundDown vaddr)
  | _ => none

/-- The object takes its frames from the table, and is no server's ring. -/
def Plain (s : State) (o : ObjectRef) : Prop :=
  (s.objects o).Ordinary ∧
    ∀ srv < s.servers.next, (s.views (s.servers srv).ntfnBufferView).boundObject ≠ some o

instance (s : State) (o : ObjectRef) : Decidable (s.Plain o) := inferInstanceAs (Decidable (_ ∧ _))

/-- After a store at `vaddr`, where the page `e` is. -/
def Stored (s : State) (e : PageEntry) (vaddr byte : Nat) (s' : State) : Prop :=
  ∀ o x, s'.byteAt o x =
    if s.frameAt o x = some e.obj ∧ x % pageSize4K = vaddr % pageSize4K then byte else s.byteAt o x

end State

/-- Where there is no writable page, a store faults. -/
theorem Kernel.userWrite_eq (s : State) (c : Slot) (vaddr byte : Nat) :
    s.res.kernel.userWrite c vaddr byte = s.res.kernel ∨
      ∃ e, s.pageOf c vaddr = some e ∧ e.access.write = true ∧
        s.res.kernel.userWrite c vaddr byte = s.res.kernel.writeMem e.obj
          (Function.update (s.res.kernel.mem e.obj) (vaddr % pageSize4K) byte) := by
  unfold Kernel.userWrite State.pageOf
  cases s.res.kernel.caps c with
  | none => exact .inl rfl
  | some cap =>
    cases cap with
    | vspace vs =>
      simp only
      cases s.res.kernel.pages vs (roundDown vaddr) with
      | none => exact .inl rfl
      | some e =>
        by_cases hw : e.access.write = true
        · exact .inr ⟨e, rfl, hw, if_pos hw⟩
        · exact .inl (if_neg hw)
    | _ => exact .inl rfl

theorem State.stored_writeMem (s : State) (e : PageEntry) (vaddr byte : Nat) :
    s.Stored e vaddr byte (s.withBytes e.obj
      (Function.update (s.res.kernel.mem e.obj) (vaddr % pageSize4K) byte)) := by
  intro o x
  have hframe : ∀ bytes, (s.withBytes e.obj bytes).frameAt o x = s.frameAt o x := fun _ => rfl
  simp only [State.byteAt, hframe]
  cases s.frameAt o x with
  | none => simp
  | some obj =>
    simp only [State.withBytes, Kernel.writeMem, Option.some.injEq]
    by_cases hobj : obj = e.obj
    · subst hobj
      simp only [Function.update_self, true_and]
      by_cases hx : x % pageSize4K = vaddr % pageSize4K
      · simp only [hx, Function.update_self, if_true]
      · simp only [Function.update_of_ne hx, hx, if_false]
    · simp only [Function.update_of_ne hobj, hobj, false_and, if_false]

theorem Tabled.userWrite (h : Tabled s) (c : Slot) (vaddr byte : Nat) : Tabled { s with
    res := { s.res with kernel := s.res.kernel.userWrite c vaddr byte } } := by
  rcases Kernel.userWrite_eq s c vaddr byte with heq | ⟨e, -, -, heq⟩
  · rw [heq]
    exact h
  · rw [heq]
    exact h.written _ _

/-! ## Every run -/

/-- A state after boot: the loaded objects' frames are frames in use, each of one page, and no
address space is the root server's. -/
structure BootedMemory (s : State) : Prop where
  shared : BootedShared s
  tabled : Tabled s
  spaced : Spaced s

/-- What the turns keep. -/
structure Remembering (s : State) : Prop where
  shared : Shared s
  tabled : Tabled s
  spaced : Spaced s

theorem BootedMemory.remembering (h : BootedMemory s) : Remembering s :=
  ⟨h.shared.shared, h.tabled, h.spaced⟩

namespace Remembering

theorem turn (h : Remembering s) (hs : Sane s) {op : Op} (hop : op.Builds) (ht : Turn s op s') :
    Remembering s' := by
  have hg := h.shared.turn hs hop ht
  refine ⟨hg.shared, ?_, h.spaced.goes hg (ht.space hs hop)⟩
  cases op with
  | userWrite pid vaddr byte =>
    cases ht with
    | refused => exact h.tabled
    | userWrite p u _ => exact h.tabled.userWrite _ _ _
  | _ => exact (h.tabled.turn h.spaced hs h.shared hop trivial ht).tabled

/-- Objects keep their bytes in a run without stores. -/
theorem run (h : Remembering s) (hs : Sane s) {ops : List Op}
    (run : Run (fun s₀ => s₀ = s) next (fun _ op => op.Builds ∧ op.Handled) ops s') :
    Sane s' ∧ Remembering s' ∧ s.objects.next ≤ s'.objects.next ∧
      ∀ o < s.objects.next, (s.objects o).Ordinary →
        (s'.objects o).Ordinary ∧ ∀ x, s'.byteAt o x = s.byteAt o x := by
  refine run.invariant (I := fun s' => Sane s' ∧ Remembering s' ∧
    s.objects.next ≤ s'.objects.next ∧ ∀ o < s.objects.next, (s.objects o).Ordinary →
      (s'.objects o).Ordinary ∧ ∀ x, s'.byteAt o x = s.byteAt o x) ?_ ?_
  · intro s₀ heq
    subst heq
    exact ⟨hs, h, Nat.le_refl _, fun _ _ hord => ⟨hord, fun _ => rfl⟩⟩
  · intro s₁ op s₂ hi hop hn
    obtain ⟨hs₁, h₁, hnext, hbytes⟩ := hi
    have ht := next_turn hs₁ hn
    have hkept := h₁.tabled.turn h₁.spaced hs₁ h₁.shared hop.1 hop.2 ht
    refine ⟨hs₁.turn ht, h₁.turn hs₁ hop.1 ht, hnext.trans hkept.next, fun o ho hord => ?_⟩
    obtain ⟨hord₁, hb⟩ := hbytes o ho hord
    have ho₁ := Nat.lt_of_lt_of_le ho hnext
    have hbyte := hkept.byteAt h₁.tabled ho₁ hord₁
    exact ⟨(hkept.ordinary ho₁).mpr hord₁, fun x => (hbyte x).trans (hb x)⟩

end Remembering

/-- An object that is to be filled when its pages are asked for reads as zero. -/
theorem byteAt_created (hs : Sane s) {pid : Pid} {args : ObjCreateArgs} {dmaAnswer : Option Nat}
    (hlazy : args.attributes = .default) (ht : Turn s (.objCreate pid args dmaAnswer) s')
    (x : Nat) : s'.byteAt s.objects.next x = 0 := by
  have hmade : ∀ {s₁}, ObjMade args s s₁ → s₁.byteAt s.objects.next x = 0 := by
    intro s₁ hm
    refine Tabled.byteAt_of_lookup_none ?_
    cases hm.filled with
    | device _ _ _ _ attr => simp [hlazy, ObjAttributes.default] at attr
    | contiguous _ _ _ attr => simp [hlazy, ObjAttributes.default] at attr
    | eager _ _ _ attr => simp [hlazy, ObjAttributes.default] at attr
    | empty =>
      have hself : (s.allocObject args).objects s.objects.next =
          .new args.size args.rights args.attributes := Heap.alloc_self _ _
      rw [hself]
      exact Table.lookup_new _
  cases ht with
  | refused =>
    refine Tabled.byteAt_of_lookup_none ?_
    rw [hs.blankObject _ (Nat.le_refl _)]
    exact Table.lookup_new _
  | objCreate p u s₁ idx _ hm _ _ =>
    rw [← hmade hm]
    simp only [State.byteAt, State.frameAt, State.giveHandle, State.updProc_objects,
      State.updProc_res, State.setHandleAt_objects, State.setHandleAt_res]
  | objLeft p u _ hm => exact hmade hm

/-- In a run that tears nothing down, a page of memory is one page of one object; an object keeps
its bytes whatever is done but storing, and a store changes the bytes at one place of one page. -/
theorem objects_keep_bytes {ops : List Op} {s : State}
    (run : Run BootedMemory next (fun _ op => op.Builds) ops s) :
    (∀ o o' x y obj, s.Plain o → s.Plain o' → s.frameAt o x = some obj →
      s.frameAt o' y = some obj → o = o' ∧ path x = path y) ∧
    (∀ ops' s', Run (fun s₀ => s₀ = s) next (fun _ op => op.Builds ∧ op.Handled) ops' s' →
      ∀ o < s.objects.next, s.Plain o → ∀ x, s'.byteAt o x = s.byteAt o x) ∧
    (∀ pid vaddr byte s', next s (.userWrite pid vaddr byte) = some s' →
      (∀ o x, s'.byteAt o x = s.byteAt o x) ∨
        ∃ p u e, s.procs pid = some p ∧ s.procCells p = .activeProcess u ∧
          s.pageOf u.vspace.1 vaddr = some e ∧ e.access.write = true ∧
          s.Stored e vaddr byte s') ∧
    ∀ pid args dmaAnswer s', args.attributes = .default →
      next s (.objCreate pid args dmaAnswer) = some s' →
      ∀ x, s'.byteAt s.objects.next x = 0 := by
  obtain ⟨hs, h⟩ := run_invariant (I := Remembering) (fun _ h => h.shared.booted)
    (fun _ h => h.remembering) (fun _ _ _ hs h hop _ ht => h.turn hs hop ht) run
  refine ⟨?_, ?_, ?_, ?_⟩
  · exact fun o o' x y obj ho ho' hx hy => h.tabled.frame_eq ho.1 ho'.1 hx hy
  · intro ops' s' run' o ho hplain x
    obtain ⟨-, -, -, hbytes⟩ := h.run hs run'
    exact (hbytes o ho hplain.1).2 x
  · intro pid vaddr byte s' hn
    cases next_turn hs hn with
    | refused => exact .inl fun _ _ => rfl
    | userWrite p u act =>
      rcases Kernel.userWrite_eq s u.vspace.1 vaddr byte with heq | ⟨e, hpage, hw, heq⟩
      · rw [heq]
        exact .inl fun _ _ => rfl
      · rw [heq]
        exact .inr ⟨p, u, e, act.cell, act.proc, hpage, hw, s.stored_writeMem e vaddr byte⟩
  · intro pid args dmaAnswer s' hlazy hn x
    exact byteAt_created hs hlazy (next_turn hs hn) x

/-! ## The small system -/

theorem demo_shown (f : Nat) (hf : f < 6) : Shown demo.res f (100 + f) := by
  have hall : ∀ f < 6, demo.res.cspace.Allocated (20 + f) ∧
      demo.res.kernel.caps (20 + f) =
        some (.frame (100 + f) true ⟨true, true⟩ (some (rootVSpace, frameDataAddr f))) ∧
      demo.res.kernel.pages rootVSpace (frameDataAddr f) = some ⟨100 + f, ⟨true, true⟩⟩ ∧
      100 + f < demo.res.kernel.nextObj := by decide +kernel
  obtain ⟨hslot, hcap, hpage, hold⟩ := hall f hf
  exact ⟨hslot, hcap, hpage, hold⟩

theorem demo_frames : Frames demo.res where
  rooted := demo_booted.rooted
  shown f hf := ⟨100 + f, demo_shown f hf⟩
  distinct f g obj hf hg hs hs' := by
    have h₁ := (demo_shown f hf).unique hs
    have h₂ := (demo_shown g hg).unique hs'
    omega
  created := by decide
  once := by decide

theorem demo_bootedMemory : BootedMemory demo where
  shared := demo_bootedShared
  tabled :=
    { frames := demo_frames
      entry := fun o _ x f hf => by
        have hnone : (demo.objects o).lookupFrame x = none := Table.lookup_new _
        cases hnone.symm.trans hf
      single := fun o _ _ _ x _ f _ hf => by
        have hnone : (demo.objects o).lookupFrame x = none := Table.lookup_new _
        cases hnone.symm.trans hf }
  spaced := by
    intro c hc
    rcases hc with ⟨p, u, hu, rfl⟩ | ⟨v, f, hf, -⟩
    · rcases demo_processes hu with ⟨-, rfl⟩ | ⟨-, rfl⟩
      · exact ⟨by decide +kernel, 2, by decide +kernel, by decide⟩
      · exact ⟨by decide +kernel, 3, by decide +kernel, by decide⟩
    · cases hf

/-- Two processes see one page of an object, and the first stores a byte in it. -/
def demoStore : List Op := demoSharing ++ [.userWrite 0 0x10000123 7]

theorem objects_keep_bytes_demo : ∃ s, Run BootedMemory next (fun _ op => op.Builds) demoStore s ∧
    s.byteAt 0 0x2123 = 7 ∧
    ∀ ops' s', Run (fun s₀ => s₀ = s) next (fun _ op => op.Builds ∧ op.Handled) ops' s' →
      s'.byteAt 0 0x2123 = 7 := by
  obtain ⟨s, run, hbyte, hlt, hplain⟩ := demo_reaches demo_bootedMemory (fun _ op => op.Builds)
    demoStore (fun s => s.byteAt 0 0x2123 = 7 ∧ 0 < s.objects.next ∧ s.Plain 0)
    (by decide +kernel) (by decide +kernel)
  refine ⟨s, run, hbyte, fun ops' s' run' => ?_⟩
  rw [(objects_keep_bytes run).2.1 ops' s' run' 0 hlt hplain, hbyte]

end Smos.RootServer
