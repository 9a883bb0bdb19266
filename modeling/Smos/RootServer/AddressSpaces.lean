/-
Smos.RootServer.AddressSpaces — what a process has mapped.

Two pages of an address space are the process's own, its IPC buffer and its
shared buffer. Every other page is lent (`Lent`): a view of one of the
process's windows has it, at the place in the window where the page is mapped,
and the mapping allows no more than the view does. Behind each entry of a view
is a frame of an object (`State.Sourced`), so no other memory is ever mapped.

The fault handler maps the page that faulted. `PageMap` maps at the address of
the pending fault whichever page it is asked for, so the runs here answer a
fault with the page that faulted (`Op.Answers`).
-/
import Smos.RootServer.FaultAnswers
import Smos.RootServer.ObjectBytesRuns

namespace Smos.RootServer

open Smos.Base

variable {s s' s₁ s₂ : State} {p : Nat}

/-! ## Pages of a process -/

/-- The pages that a process has for itself. -/
def OwnPage (vaddr : Nat) : Prop := vaddr = processIpcBuffer ∨ vaddr = processRsDataTransferPage

instance (vaddr : Nat) : Decidable (OwnPage vaddr) := inferInstanceAs (Decidable (_ ∨ _))

/-- The page is the one that a view of one of the process's windows has at this place, and the
process may do no more with it than the view allows. -/
structure Lent (s : State) (p : Nat) (vaddr : Nat) (e : PageEntry) (v : ViewRef) (offset : Nat)
    (c : Slot) : Prop where
  window : (s.views v).boundWindow ∈ s.windowList p
  aligned : offset % pageSize4K = 0
  place : vaddr = (s.windows (s.views v).boundWindow).start + offset
  entry : (s.views v).lookupCap offset = some c
  holds : s.res.Holds c e.obj
  rights : e.access ≤ .ofRights (s.views v).rights

/-- The slot holds a capability of a frame that an object has. -/
def State.Sourced (s : State) (c : Slot) : Prop :=
  ∃ o x f obj, (s.objects o).lookupFrame x = some f ∧ s.res.Holds f.cap obj ∧ s.res.Holds c obj

/-- Every page of a process is its own, or lent. -/
structure Lending (s : State) : Prop where
  pages : ∀ p u vs vaddr e, s.procCells p = .activeProcess u →
    s.res.kernel.caps u.vspace.1 = some (.vspace vs) → s.res.kernel.pages vs vaddr = some e →
    OwnPage vaddr ∨ ∃ v offset c, Lent s p vaddr e v offset c
  apart : ∀ p p' u u' vs, s.procCells p = .activeProcess u → s.procCells p' = .activeProcess u' →
    s.res.kernel.caps u.vspace.1 = some (.vspace vs) →
    s.res.kernel.caps u'.vspace.1 = some (.vspace vs) → p = p'
  sourced : ∀ v x c, (s.views v).lookupCap x = some c → s.Sourced c

/-- A part of a turn that maps nothing for processes: views keep what they have, and what they are
given is an object's. -/
structure Lends (s s' : State) : Prop where
  pages : ∀ vs vaddr, vs ≠ rootVSpace →
    s'.res.kernel.pages vs vaddr = s.res.kernel.pages vs vaddr
  kept : ∀ v x c, (s.views v).lookupCap x = some c → (s'.views v).lookupCap x = some c ∧
    (s'.views v).boundWindow = (s.views v).boundWindow ∧ (s'.views v).rights = (s.views v).rights
  given : ∀ v x c, (s'.views v).lookupCap x = some c →
    (s.views v).lookupCap x = some c ∨ s'.Sourced c

theorem State.Sourced.goes {c : Slot} (h : s.Sourced c) (hg : Goes s s') : s'.Sourced c := by
  obtain ⟨o, x, f, obj, hf, hcap, hc⟩ := h
  exact ⟨o, x, f, obj, hg.frames o x f hf, hg.slots.holds (fun hd => hcap.ne_of_object hd rfl) hcap,
    hg.slots.holds (fun hd => hc.ne_of_object hd rfl) hc⟩

namespace Lends

/-- The views are as they were, but for their faults. -/
theorem of_fields (hpages : ∀ vs vaddr, vs ≠ rootVSpace →
      s'.res.kernel.pages vs vaddr = s.res.kernel.pages vs vaddr)
    (hviews : ∀ v, (s'.views v).caps = (s.views v).caps ∧
      (s'.views v).boundWindow = (s.views v).boundWindow ∧
      (s'.views v).rights = (s.views v).rights) : Lends s s' where
  pages := hpages
  kept v x c hc := by
    obtain ⟨hcaps, hw, hr⟩ := hviews v
    refine ⟨?_, hw, hr⟩
    unfold View.lookupCap at hc ⊢
    rw [hcaps]
    exact hc
  given v x c hc := by
    unfold View.lookupCap at hc ⊢
    rw [(hviews v).1] at hc
    exact .inl hc

theorem of_pages (hpages : ∀ vs vaddr, vs ≠ rootVSpace →
      s'.res.kernel.pages vs vaddr = s.res.kernel.pages vs vaddr)
    (hviews : s'.views = s.views) : Lends s s' :=
  of_fields hpages fun v => by rw [hviews]; exact ⟨rfl, rfl, rfl⟩

/-- Neither the resources nor the views have changed. -/
theorem rests (hr : s'.res = s.res) (hviews : s'.views = s.views) : Lends s s' :=
  of_pages (fun vs vaddr _ => by rw [hr]) hviews

protected theorem refl (s : State) : Lends s s := rests rfl rfl

/-- A view is new. -/
theorem of_alloc (hs : Sane s) (hpages : ∀ vs vaddr, vs ≠ rootVSpace →
      s'.res.kernel.pages vs vaddr = s.res.kernel.pages vs vaddr)
    {x : View} (hx : x.Fresh) (hviews : s'.views = s.views.alloc x) : Lends s s' where
  pages := hpages
  kept v y c hc := by
    have hlt : v < s.views.next := by
      by_contra hge
      rw [hs.blankView v (Nat.le_of_not_lt hge)] at hc
      have hnone : View.blank.lookupCap y = none := Table.lookup_new _
      cases hnone.symm.trans hc
    rw [hviews, s.views.alloc_of_lt hlt]
    exact ⟨hc, rfl, rfl⟩
  given v y c hc := by
    rw [hviews] at hc
    by_cases hv : v = s.views.next
    · subst hv
      rw [Heap.alloc_self, hx.lookupCap] at hc
      cases hc
    · rw [Heap.alloc_of_ne _ hv] at hc
      exact .inl hc

/-- A view is given the copy of a capability of an object's frame. -/
theorem copied {v : ViewRef} {offset : Nat} {src slot : Slot} {cs : CSpace}
    {k : Kernel} {view : View} (hc : Copied v offset src s s' slot cs k view)
    (hsrc : s.Sourced src) : Lends s s' := by
  obtain ⟨t, ht, hview⟩ := insertCapAt_ok hc.insert
  obtain ⟨-, hself, hnone, hne⟩ := insertAt_ok ht
  have hkept : SlotsKept (fun _ => False) s.res { s.res with cspace := cs, kernel := k } :=
    .of_copy hc.fresh hc.allocated hc.copy
  have heq := hc.eq
  subst heq hview
  obtain ⟨cap, cap', -, -, hk, -⟩ := Kernel.copy_ok hc.copy
  refine ⟨fun vs vaddr _ => ?_, fun v' x c hx => ?_, fun v' x c hx => ?_⟩
  · subst hk
    rfl
  · by_cases hv : v' = v
    · subst hv
      simp only [Heap.update_self]
      refine ⟨?_, trivial, trivial⟩
      have hpath : path x ≠ path offset := by
        intro heq
        have hx' : (s.views v').caps.lookupAt offset = some c := by
          unfold PageTable.lookupAt
          rw [← heq]
          exact hx
        cases hnone.symm.trans hx'
      exact (hne x hpath).trans hx
    · simp only [Heap.update_of_ne _ hv]
      exact ⟨hx, trivial, trivial⟩
  · by_cases hv : v' = v
    · subst hv
      simp only [Heap.update_self] at hx
      by_cases hpath : path x = path offset
      · have hslot : t.lookupAt x = some slot := by
          unfold PageTable.lookupAt at hself ⊢
          rw [hpath, hself]
        cases hslot.symm.trans hx
        obtain ⟨o, y, f, obj, hf, hcap, hheld⟩ := hsrc
        exact .inr ⟨o, y, f, obj, hf, hkept.holds id hcap, hheld.copy hc.allocated hc.copy⟩
      · exact .inl ((hne x hpath).symm.trans hx)
    · simp only [Heap.update_of_ne _ hv] at hx
      exact .inl hx

/-- After it, neither the resources nor views or objects change. -/
theorem before (h : Lends s s₁) (hr : s'.res = s₁.res) (ho : s'.objects = s₁.objects)
    (hviews : s'.views = s₁.views) : Lends s s' where
  pages := hr ▸ h.pages
  kept := hviews ▸ h.kept
  given v x c hc := by
    rw [hviews] at hc
    unfold State.Sourced
    rw [hr, ho]
    exact h.given v x c hc

/-- Before it, frames were taken. -/
theorem after (h : Lends s₁ s') (hpages : ∀ vs vaddr, vs ≠ rootVSpace →
      s₁.res.kernel.pages vs vaddr = s.res.kernel.pages vs vaddr)
    (hviews : s₁.views = s.views) : Lends s s' where
  pages vs vaddr hvs := (h.pages vs vaddr hvs).trans (hpages vs vaddr hvs)
  kept := hviews ▸ h.kept
  given := hviews ▸ h.given

theorem sourcePage (hsh : Shared s) {v : ViewRef} {offset : Nat}
    (hp : SourcePage v offset s s') : Lends s s' := by
  cases hp with
  | there => exact .refl s
  | filled o s' _ _ populated =>
    obtain ⟨-, cap, s₁, slot, cs, k, view, hgot, hcopied⟩ := populated
    obtain ⟨hg, f, hf, heq⟩ := hsh.gotFrame hgot
    obtain ⟨obj, hobj⟩ := hg.shared.coherent.frame _ _ _ hf
    subst heq
    refine (copied hcopied ⟨_, _, f, obj, hf, hobj, hobj⟩).after ?_ (by cases hgot <;> rfl)
    cases hgot with
    | found => exact fun _ _ _ => rfl
    | made f r object page _ alloc => exact alloc.grow.pages

end Lends

/-! ## What a process keeps -/

theorem Spaced.vspace_kept (h : Spaced s) (hg : Goes s s') {c : Slot} (hc : s.Space c)
    {vs : VSpaceId} (hcap : s'.res.kernel.caps c = some (.vspace vs)) :
    s.res.kernel.caps c = some (.vspace vs) ∧ vs ≠ rootVSpace := by
  obtain ⟨hall, vs', hcap', hvs⟩ := h c hc
  have hno : ¬ s.res.HoldsObject c := by
    rintro ⟨-, obj, kind, hobj⟩
    cases hcap'.symm.trans hobj
  cases hcap.symm.trans (hg.slots.holdsVspace hno hall hcap')
  exact ⟨hcap', hvs⟩

/-- The windows of processes stay theirs, and where they are. -/
def WindowsStay (s s' : State) : Prop :=
  ∀ p, ∀ w ∈ s.windowList p, w ∈ s'.windowList p ∧ (s'.windows w).start = (s.windows w).start

theorem SameLinks.windowsStay (h : SameLinks s s') : WindowsStay s s' := by
  intro p w hw
  simp only [State.windowList, h.initialOf, h.windowsOf, h.windows] at hw ⊢
  exact ⟨hw, trivial⟩

theorem Idle.windowsStay (h : Idle s s') (hs : Sane s) {op : Op} (ht : Turn s op s') :
    WindowsStay s s' := by
  intro p w hw
  have hgeometry : SameGeometry s s' := by
    rcases turn_lists ht with hshrunk | ⟨pid, q, u, base, bytes, -, -, hadded⟩
    · exact hshrunk.toSameGeometry
    · exact hadded.toSameGeometry
  exact ⟨h.lists p w hw, hgeometry.start w (hs.procWindows p w hw)⟩

theorem roundDown_aligned (offset : Nat) : roundDown offset % pageSize4K = 0 := by
  unfold roundDown pageSize4K
  omega

theorem roundDown_of_aligned {offset : Nat} (h : offset % pageSize4K = 0) :
    roundDown offset = offset := by
  unfold roundDown pageSize4K at *
  omega

/-- The page of an address, from the start of its window. -/
theorem roundDown_sub {start addr : Nat} (hstart : start % pageSize4K = 0) (hle : start ≤ addr) :
    roundDown addr = start + roundDown (addr - start) := by
  unfold roundDown pageSize4K at *
  omega

section Lent

variable {vaddr offset addr : Nat} {e : PageEntry} {v : ViewRef} {c : Slot}

/-- The view still has the page, in the same place. -/
theorem Lent.stays (h : Lent s p vaddr e v offset c) (hg : Goes s s') (hw : WindowsStay s s')
    (hentry : (s'.views v).lookupCap offset = some c)
    (hbound : (s'.views v).boundWindow = (s.views v).boundWindow)
    (hrights : (s'.views v).rights = (s.views v).rights) : Lent s' p vaddr e v offset c := by
  obtain ⟨hmem, hstart⟩ := hw p _ h.window
  constructor
  · rwa [hbound]
  · exact h.aligned
  · rw [hbound, hstart]
    exact h.place
  · exact hentry
  · exact hg.slots.holds (fun hd => h.holds.ne_of_object hd rfl) h.holds
  · rw [hrights]
    exact h.rights

namespace Lending

theorem lends (h : Lending s) (hsp : Spaced s) (hg : Goes s s') (hl : Lends s s')
    (hw : WindowsStay s s')
    (hv : ∀ p u', s'.procCells p = .activeProcess u' →
      ∃ u, s.procCells p = .activeProcess u ∧ u'.vspace = u.vspace) : Lending s' where
  pages p u' vs vaddr e hu' hvs he := by
    obtain ⟨u, hu, heq⟩ := hv p u' hu'
    rw [heq] at hvs
    obtain ⟨hvs, hne⟩ := hsp.vspace_kept hg (.inl ⟨p, u, hu, rfl⟩) hvs
    rw [hl.pages vs vaddr hne] at he
    refine (h.pages p u vs vaddr e hu hvs he).imp_right ?_
    rintro ⟨v, offset, c, hlent⟩
    obtain ⟨hentry, hbound, hrights⟩ := hl.kept v offset c hlent.entry
    exact ⟨v, offset, c, hlent.stays hg hw hentry hbound hrights⟩
  apart p p' u u' vs hu hu' hvs hvs' := by
    obtain ⟨u₁, hu₁, heq⟩ := hv p u hu
    obtain ⟨u₂, hu₂, heq'⟩ := hv p' u' hu'
    rw [heq] at hvs
    rw [heq'] at hvs'
    exact h.apart p p' u₁ u₂ vs hu₁ hu₂ (hsp.vspace_kept hg (.inl ⟨p, u₁, hu₁, rfl⟩) hvs).1
      (hsp.vspace_kept hg (.inl ⟨p', u₂, hu₂, rfl⟩) hvs').1
  sourced v x c hc := by
    rcases hl.given v x c hc with hold | hnew
    · exact (h.sourced v x c hold).goes hg
    · exact hnew

/-- Links between windows, views and objects are as they were. -/
theorem links (h : Lending s) (hsp : Spaced s) (hg : Goes s s') (hl : Lends s s')
    (hlinks : SameLinks s s') : Lending s' :=
  h.lends hsp hg hl hlinks.windowsStay fun _ u' hu' => ⟨u', hlinks.procCells ▸ hu', rfl⟩

theorem idle (h : Lending s) (hsp : Spaced s) (hs : Sane s) {op : Op} (ht : Turn s op s')
    (hg : Goes s s') (hi : Idle s s') (hl : Lends s s') : Lending s' :=
  h.lends hsp hg hl (hi.windowsStay hs ht) hi.vspace

/-- A process is mapped the page that a view of it has at the address. -/
theorem mapped (h : Lending s) (hsp : Spaced s) (hsh : Shared s) {u : UserProcess}
    (hu : s.procCells p = .activeProcess u) (hw : (s.views v).boundWindow ∈ s.windowList p)
    (hplace : roundDown addr = (s.windows (s.views v).boundWindow).start + roundDown offset)
    (hm : Mapped v offset u.vspace.1 addr s s') : Lending s' := by
  have hg := hsh.mapped hm
  obtain ⟨hall, vs₀, hcap, hne₀⟩ := hsp _ (.inl ⟨p, u, hu, rfl⟩)
  obtain ⟨c, r, hentry, ⟨r₁, k, hq, hmap, rfl⟩, rfl⟩ := hm
  obtain ⟨obj, orig, access, m, vs₁, hc, hspace, -, -, rfl⟩ := Kernel.frameMap_ok hmap
  cases hspace.symm.trans ((hq.grow.caps _ hall).trans hcap)
  obtain ⟨-, -, -, obj', -, -, hheld⟩ := h.sourced v offset c hentry
  obtain ⟨hallc, orig', access', m', hc'⟩ := hheld
  cases hc.symm.trans ((hq.grow.caps _ hallc).trans hc')
  have hheld : s.res.Holds c obj := ⟨hallc, orig, access, m, hc'⟩
  constructor
  · intro q uq vs vaddr e huq hvs' he
    obtain ⟨hvs, hne⟩ := hsp.vspace_kept hg (.inl ⟨q, uq, huq, rfl⟩) hvs'
    replace he := (Kernel.enterPage_pages ..).symm.trans he
    by_cases hnew : vs = vs₀ ∧ vaddr = roundDown addr
    · -- the address space is the one process's
      rw [if_pos hnew] at he
      obtain ⟨rfl, rfl⟩ := hnew
      cases he
      have hq := h.apart q p uq u vs huq hu hvs hcap
      subst hq
      exact .inr ⟨v, roundDown offset, c, {
        window := hw
        aligned := roundDown_aligned offset
        place := hplace
        entry := (View.lookupCap_roundDown _ _).trans hentry
        holds := hg.slots.holds (fun hd => hheld.ne_of_object hd rfl) hheld
        rights := Access.mask_le_ofRights access _ }⟩
    · rw [if_neg hnew, hq.grow.pages vs vaddr hne] at he
      refine (h.pages q uq vs vaddr e huq hvs he).imp_right ?_
      rintro ⟨v', offset', c', hlent⟩
      exact ⟨v', offset', c', hlent.stays hg (fun _ w hw => ⟨hw, rfl⟩) hlent.entry rfl rfl⟩
  · intro q q' uq uq' vs huq huq' hvs hvs'
    exact h.apart q q' uq uq' vs huq huq' (hsp.vspace_kept hg (.inl ⟨q, uq, huq, rfl⟩) hvs).1
      (hsp.vspace_kept hg (.inl ⟨q', uq', huq', rfl⟩) hvs').1
  · exact fun v' x c' hc' => (h.sourced v' x c' hc').goes hg

end Lending

end Lent

end Smos.RootServer
